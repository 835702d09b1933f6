import ObfuscationKernel.Sched.Coherence

/-! Process groups stay inside one session, whatever processes fork, regroup, start sessions, exit and are reaped. -/

namespace ObfuscationKernel.Sched.Sessions

open ObfuscationKernel.Core List

def maxTaskId : ℕ := 0x3fffffff

/-- What a process is to its session and its family; `exit_family` says how the scheduler's own record agrees. -/
structure Process where
  pid : ℕ
  parent : ℕ := 0
  group : ℕ
  session : ℕ
  hasExeced : Bool := false
  exited : Bool := false
  deriving DecidableEq

/-- The process table, the live threads behind the first of each process with their owners, and the next identity. -/
structure Table where
  processes : List Process
  nextTaskId : ℕ := 2
  threads : List (ℕ × ℕ) := []

/-- `refused` is the answer of the checks on other resources, none when they pass; `adopted` says which children init takes. -/
inductive Call
  | createProcess (refused : Option Status)
  | createThread (owner : ℕ) (refused : Option Status)
  | exitThread (tid : ℕ)
  | fork (parent : ℕ) (refused : Option Status)
  | replaceImage (pid : ℕ) (refused : Option Status)
  | setProcessGroup (caller : ℕ) (pid pgid : ℤ)
  | createSession (caller : ℕ)
  | exit (pid : ℕ) (adopted : ℕ → Bool) (refused : Option Status)
  | reap (pid : ℕ) (refused : Option Status)

namespace Table

variable (s : Table)

def find (pid : ℕ) : Option Process := s.processes.find? fun p => p.pid == pid

def map (f : Process → Process) : Table := { s with processes := s.processes.map f }

def update (pid : ℕ) (f : Process → Process) : Table := s.map fun p => if p.pid = pid then f p else p

def add (p : Process) : Table := { s with processes := s.processes ++ [p], nextTaskId := s.nextTaskId + 1 }

def endThreads (pid : ℕ) : Table := { s with threads := s.threads.filter fun t => t.2 != pid }

def createProcess (member : ℕ → Process) (refused : Option Status) : Result ℕ × Table :=
  if s.nextTaskId > maxTaskId then (.error (.overflow "process or thread identity exhausted"), s)
  else
    match refused with
    | some status => (.error status, s)
    | none =>
      if s.processes.length ≥ maxProcesses then (.error (.overflow "process table capacity exceeded"), s)
      else (.ok s.nextTaskId, s.add (member s.nextTaskId))

def fork (parent : ℕ) (refused : Option Status) : Result ℕ × Table :=
  match s.find parent with
  | none => (.error (.notFound "parent process not found"), s)
  | some source =>
    if source.exited then (.error (.invalidArgument "parent process is not alive"), s)
    else s.createProcess (fun pid => { pid := pid, parent := parent, group := source.group, session := source.session }) refused

def regroup (source target : Process) (pgid : ℕ) : Result ℕ × Table :=
  if target.session = target.pid then (.error (.permission "a session leader cannot change process groups"), s)
  else if pgid ≠ target.pid ∧ ¬(s.processes.any fun m => m.group == pgid && m.session == source.session) then
    (.error (.permission "process group does not exist in the calling session"), s)
  else (.ok 0, s.update target.pid fun p => { p with group := pgid })

def setProcessGroup (caller : ℕ) (pid pgid : ℤ) : Result ℕ × Table :=
  match s.find caller with
  | none => (.error (.noProcess "calling process not found"), s)
  | some source =>
    let pid := if pid = 0 then (caller : ℤ) else pid
    let pgid := if pgid = 0 then pid else pgid
    if pgid < 0 then (.error (.invalidArgument "process group identity is negative"), s)
    else if pid < 0 then (.error (.noProcess "process identity is negative"), s)
    else
      match s.find pid.toNat with
      | none =>
        if s.threads.any fun t => t.1 == pid.toNat then
          (.error (.invalidArgument "only a thread group leader may change process groups"), s)
        else (.error (.noProcess "process group target not found"), s)
      | some target =>
        if target.pid ≠ caller ∧ target.parent ≠ caller then (.error (.noProcess "process is not a child of the caller"), s)
        else if target.pid ≠ caller ∧ target.session ≠ source.session then
          (.error (.permission "child is outside the calling session"), s)
        else if target.pid ≠ caller ∧ target.hasExeced then (.error (.denied "child has already replaced its image"), s)
        else s.regroup source target pgid.toNat

def createSession (caller : ℕ) : Result ℕ × Table :=
  match s.find caller with
  | none => (.error (.noProcess "calling process not found"), s)
  | some process =>
    if process.session = caller then (.error (.permission "calling process is already a session leader"), s)
    else if s.processes.any fun m => m.group == caller then
      (.error (.permission "calling process identity already names a process group"), s)
    else (.ok caller, s.update caller fun p => { p with session := caller, group := caller })

def exit (pid : ℕ) (adopted : ℕ → Bool) (refused : Option Status) : Result ℕ × Table :=
  match s.find pid, refused with
  | none, _ => (.error (.notFound "process not found"), s)
  | _, some status => (.error status, s)
  | some process, none =>
    if process.exited then (.error (.alreadyExists "process has already exited"), s)
    else (.ok 0, (s.endThreads pid).map fun p => { p with
      parent := if p.parent = pid then (if adopted p.pid then userInitPid else 0) else p.parent
      exited := p.exited || p.pid == pid })

def reap (pid : ℕ) (refused : Option Status) : Result ℕ × Table :=
  if pid = userInitPid ∧ (s.find pid).isSome then (.error (.busy "init must remain available for recovery diagnosis"), s)
  else
    match s.find pid, refused with
    | none, _ => (.error (.notFound "process not found"), s)
    | _, some status => (.error status, s)
    | some process, none =>
      if !process.exited then (.error (.invalidArgument "process is not a zombie"), s)
      else (.ok 0, { s with processes := s.processes.filter fun p => p.pid != pid }.map fun p =>
        { p with parent := if p.parent = pid then 0 else p.parent })

def step : Call → Result ℕ × Table
  | .createProcess refused => s.createProcess (fun pid => { pid := pid, group := pid, session := pid }) refused
  | .createThread owner refused =>
    match refused with
    | some status => (.error status, s)
    | none =>
      if s.nextTaskId > maxTaskId then (.error (.overflow "process or thread identity exhausted"), s)
      else (.ok s.nextTaskId, { s with nextTaskId := s.nextTaskId + 1, threads := (s.nextTaskId, owner) :: s.threads })
  | .exitThread tid => (.ok 0, { s with threads := s.threads.filter fun t => t.1 != tid })
  | .fork parent refused => s.fork parent refused
  | .replaceImage pid refused =>
    match s.find pid, refused with
    | none, _ => (.error (.notFound "process not found"), s)
    | _, some status => (.error status, s)
    | some process, none =>
      if process.exited then (.error (.invalidArgument "cannot exec an exited process"), s)
      else (.ok 0, (s.endThreads pid).update pid fun p => { p with hasExeced := true })
  | .setProcessGroup caller pid pgid => s.setProcessGroup caller pid pgid
  | .createSession caller => s.createSession caller
  | .exit pid adopted refused => s.exit pid adopted refused
  | .reap pid refused => s.reap pid refused

end Table

structure Consistent (s : Table) : Prop where
  groups : ∀ a ∈ s.processes, ∀ b ∈ s.processes, a.group = b.group → a.session = b.session
  leaders : ∀ a ∈ s.processes, a.session = a.pid → a.group = a.pid

structure Inv (s : Table) : Prop extends Consistent s where
  unique : ∀ a ∈ s.processes, ∀ b ∈ s.processes, a.pid = b.pid → a = b
  founders : ∀ a ∈ s.processes, ∀ b ∈ s.processes, b.group = a.pid → b.session = a.session
  issued : ∀ a ∈ s.processes, a.pid < s.nextTaskId ∧ a.group < s.nextTaskId ∧ a.session < s.nextTaskId

structure Confined (s s' : Table) : Prop where
  leads : ∀ a ∈ s.processes, ∀ b ∈ s'.processes, a.pid = b.pid → a.session = a.pid → b.group = a.group ∧ b.session = a.session
  joins : ∀ a ∈ s.processes, ∀ b ∈ s'.processes, a.pid = b.pid → b.group ≠ a.group →
    (b.session = a.session ∨ b.session = b.pid ∧ b.group = b.pid) ∧ ∀ m ∈ s.processes, m.group = b.group → m.session = b.session

variable {s s' : Table} {pid : ℕ} {p : Process}

lemma find_some (h : s.find pid = some p) : p ∈ s.processes ∧ p.pid = pid :=
  ⟨mem_of_find?_eq_some h, by simpa using find?_some h⟩

lemma Inv.keep (hi : Inv s) (hk : ∀ b ∈ s'.processes, ∃ a ∈ s.processes, a.pid = b.pid ∧ a.group = b.group ∧ a.session = b.session)
    (hu : ∀ a ∈ s'.processes, ∀ b ∈ s'.processes, a.pid = b.pid → a = b) (hn : s.nextTaskId ≤ s'.nextTaskId) :
    Inv s' ∧ Confined s s' := by
  refine ⟨⟨⟨?_, ?_⟩, hu, ?_, ?_⟩, ?_, ?_⟩
  · intro a ha b hb hg
    obtain ⟨a', ha', -, ga, sa⟩ := hk a ha
    obtain ⟨b', hb', -, gb, sb⟩ := hk b hb
    rw [← sa, ← sb]
    exact hi.groups a' ha' b' hb' (by rw [ga, gb, hg])
  · intro a ha hs
    obtain ⟨a', ha', pa, ga, sa⟩ := hk a ha
    rw [← ga, ← pa]
    exact hi.leaders a' ha' (by rw [sa, pa, hs])
  · intro a ha b hb hg
    obtain ⟨a', ha', pa, -, sa⟩ := hk a ha
    obtain ⟨b', hb', -, gb, sb⟩ := hk b hb
    rw [← sa, ← sb]
    exact hi.founders a' ha' b' hb' (by rw [gb, pa, hg])
  · intro a ha
    obtain ⟨a', ha', pa, ga, sa⟩ := hk a ha
    have := hi.issued a' ha'
    omega
  · intro a ha b hb hp _
    obtain ⟨b', hb', pb, gb, sb⟩ := hk b hb
    rw [hi.unique a ha b' hb' (hp.trans pb.symm)]
    exact ⟨gb.symm, sb.symm⟩
  intro a ha b hb hp hg
  obtain ⟨b', hb', pb, gb, sb⟩ := hk b hb
  rw [hi.unique a ha b' hb' (hp.trans pb.symm)] at hg
  exact absurd gb.symm hg

lemma Inv.self (hi : Inv s) : Inv s ∧ Confined s s := hi.keep (fun b hb => ⟨b, hb, rfl, rfl, rfl⟩) hi.unique (Nat.le_refl _)

lemma Inv.map_keep (hi : Inv s) {f : Process → Process}
    (hf : ∀ p, (f p).pid = p.pid ∧ (f p).group = p.group ∧ (f p).session = p.session) (pid : ℕ) :
    Inv ((s.endThreads pid).map f) ∧ Confined s ((s.endThreads pid).map f) := by
  refine hi.keep (fun b hb => ?_) (fun a ha b hb hp => ?_) (Nat.le_refl _)
  · obtain ⟨a, ha, rfl⟩ := mem_map.mp hb
    exact ⟨a, ha, (hf a).1.symm, (hf a).2.1.symm, (hf a).2.2.symm⟩
  obtain ⟨a', ha', rfl⟩ := mem_map.mp ha
  obtain ⟨b', hb', rfl⟩ := mem_map.mp hb
  rw [(hf a').1, (hf b').1] at hp
  rw [hi.unique a' ha' b' hb' hp]

lemma Inv.add (hi : Inv s) (hp : p.pid = s.nextTaskId)
    (hg : p.group = p.pid ∧ p.session = p.pid ∨ ∃ a ∈ s.processes, p.group = a.group ∧ p.session = a.session) :
    Inv (s.add p) ∧ Confined s (s.add p) := by
  have hm : ∀ b ∈ (s.add p).processes, b ∈ s.processes ∨ b = p := fun b hb => by simpa [Table.add] using hb
  have hn : (s.add p).nextTaskId = s.nextTaskId + 1 := rfl
  obtain ⟨⟨hgroups, hleaders⟩, hunique, hfounders, hissued⟩ := hi
  refine ⟨⟨⟨?_, ?_⟩, ?_, ?_, ?_⟩, ?_, ?_⟩ <;> grind

lemma Inv.mem_update (hi : Inv s) (hp : p ∈ s.processes) {f : Process → Process} :
    ∀ b ∈ (s.update p.pid f).processes, b ∈ s.processes ∧ b.pid ≠ p.pid ∨ b = f p := by
  intro b hb
  obtain ⟨a, ha, rfl⟩ := mem_map.mp hb
  split_ifs with he
  · exact .inr (by rw [hi.unique a ha p hp he])
  · exact .inl ⟨ha, he⟩

lemma Inv.regroup (hi : Inv s) {target : Process} (ht : target ∈ s.processes) (hl : target.session ≠ target.pid) {pgid : ℕ}
    (hg : pgid = target.pid ∨ ∃ m ∈ s.processes, m.group = pgid ∧ m.session = target.session) :
    Inv (s.update target.pid fun p => { p with group := pgid }) ∧
      Confined s (s.update target.pid fun p => { p with group := pgid }) := by
  have hm := hi.mem_update ht (f := fun p => { p with group := pgid })
  have hn : (s.update target.pid fun p => { p with group := pgid }).nextTaskId = s.nextTaskId := rfl
  obtain ⟨⟨hgroups, hleaders⟩, hunique, hfounders, hissued⟩ := hi
  refine ⟨⟨⟨?_, ?_⟩, ?_, ?_, ?_⟩, ?_, ?_⟩ <;> grind

lemma Inv.createSession (hi : Inv s) (hp : p ∈ s.processes) (hg : ∀ m ∈ s.processes, m.group ≠ p.pid) :
    Inv (s.update p.pid fun q => { q with session := p.pid, group := p.pid }) ∧
      Confined s (s.update p.pid fun q => { q with session := p.pid, group := p.pid }) := by
  have hm := hi.mem_update hp (f := fun q => { q with session := p.pid, group := p.pid })
  have hn : (s.update p.pid fun q => { q with session := p.pid, group := p.pid }).nextTaskId = s.nextTaskId := rfl
  obtain ⟨⟨hgroups, hleaders⟩, hunique, hfounders, hissued⟩ := hi
  refine ⟨⟨⟨?_, ?_⟩, ?_, ?_, ?_⟩, ?_, ?_⟩ <;> grind

lemma Inv.create (hi : Inv s) {member : ℕ → Process} (hp : (member s.nextTaskId).pid = s.nextTaskId)
    (hg : (member s.nextTaskId).group = s.nextTaskId ∧ (member s.nextTaskId).session = s.nextTaskId ∨
      ∃ a ∈ s.processes, (member s.nextTaskId).group = a.group ∧ (member s.nextTaskId).session = a.session)
    (refused : Option Status) : Inv (s.createProcess member refused).2 ∧ Confined s (s.createProcess member refused).2 := by
  unfold Table.createProcess
  split
  · exact hi.self
  split
  · exact hi.self
  split
  · exact hi.self
  · exact hi.add hp (hp.symm ▸ hg)

lemma Inv.setProcessGroup (hi : Inv s) (caller : ℕ) (pid pgid : ℤ) :
    Inv (s.setProcessGroup caller pid pgid).2 ∧ Confined s (s.setProcessGroup caller pid pgid).2 := by
  unfold Table.setProcessGroup
  split
  · exact hi.self
  next source hs =>
  dsimp only
  generalize (if pid = 0 then (caller : ℤ) else pid) = pid
  generalize (if pgid = 0 then pid else pgid) = pgid
  split
  · exact hi.self
  split
  · exact hi.self
  split
  · split <;> exact hi.self
  next target ht =>
  obtain ⟨ht, -⟩ := find_some ht
  obtain ⟨hs, hc⟩ := find_some hs
  split
  · exact hi.self
  split
  · exact hi.self
  next hsession =>
  split
  · exact hi.self
  have hsame : source.session = target.session := by
    by_cases he : target.pid = caller
    · rw [hi.unique source hs target ht (hc.trans he.symm)]
    · exact (not_not.mp fun h => hsession ⟨he, h⟩).symm
  unfold Table.regroup
  split
  · exact hi.self
  next hl =>
  split
  · exact hi.self
  next hg =>
  refine hi.regroup ht hl ?_
  by_cases he : pgid.toNat = target.pid
  · exact .inl he
  obtain ⟨m, hm, hin⟩ := any_eq_true.mp (not_not.mp fun h => hg ⟨he, h⟩)
  simp only [Bool.and_eq_true, beq_iff_eq, hsame] at hin
  exact .inr ⟨m, hm, hin⟩

lemma Inv.session (hi : Inv s) (caller : ℕ) : Inv (s.createSession caller).2 ∧ Confined s (s.createSession caller).2 := by
  unfold Table.createSession
  split
  · exact hi.self
  next process hf =>
  obtain ⟨hp, rfl⟩ := find_some hf
  split
  · exact hi.self
  split
  · exact hi.self
  next hg =>
  exact hi.createSession hp fun m hm he => hg (any_eq_true.mpr ⟨m, hm, by simpa using he⟩)

lemma Inv.step (hi : Inv s) (call : Call) : Inv (s.step call).2 ∧ Confined s (s.step call).2 := by
  cases call with
  | createProcess refused => exact hi.create rfl (.inl ⟨rfl, rfl⟩) refused
  | createThread owner refused =>
    dsimp only [Table.step]
    split
    · exact hi.self
    split
    · exact hi.self
    · exact hi.keep (fun b hb => ⟨b, hb, rfl, rfl, rfl⟩) hi.unique (Nat.le_succ _)
  | exitThread tid => exact hi.keep (fun b hb => ⟨b, hb, rfl, rfl, rfl⟩) hi.unique (Nat.le_refl _)
  | fork parent refused =>
    dsimp only [Table.step, Table.fork]
    split
    · exact hi.self
    next source hs =>
    split
    · exact hi.self
    · exact hi.create rfl (.inr ⟨source, (find_some hs).1, rfl, rfl⟩) refused
  | replaceImage pid refused =>
    dsimp only [Table.step]
    split
    · exact hi.self
    · exact hi.self
    split
    · exact hi.self
    · exact hi.map_keep (fun p => by split_ifs <;> exact ⟨rfl, rfl, rfl⟩) pid
  | setProcessGroup caller pid pgid => exact hi.setProcessGroup caller pid pgid
  | createSession caller => exact hi.session caller
  | exit pid adopted refused =>
    dsimp only [Table.step, Table.exit]
    split
    · exact hi.self
    · exact hi.self
    split
    · exact hi.self
    · refine hi.map_keep (fun p => ?_) pid
      exact ⟨rfl, rfl, rfl⟩
  | reap pid refused =>
  dsimp only [Table.step, Table.reap]
  split
  · exact hi.self
  split
  · exact hi.self
  · exact hi.self
  split
  · exact hi.self
  refine hi.keep (fun b hb => ?_) (fun a ha b hb hp => ?_) (Nat.le_refl _)
  · obtain ⟨a, ha, rfl⟩ := mem_map.mp hb
    exact ⟨a, mem_of_mem_filter ha, rfl, rfl, rfl⟩
  obtain ⟨a', ha', rfl⟩ := mem_map.mp ha
  obtain ⟨b', hb', rfl⟩ := mem_map.mp hb
  rw [hi.unique a' (mem_of_mem_filter ha') b' (mem_of_mem_filter hb') hp]

inductive Reached : Table → Prop
  | start (pids : List ℕ) (next : ℕ) (hlt : ∀ pid ∈ pids, pid < next) :
    Reached ⟨pids.map fun pid => { pid := pid, group := pid, session := pid }, next, []⟩
  | step {s : Table} (h : Reached s) (call : Call) : Reached (s.step call).2

lemma Reached.inv (h : Reached s) : Inv s := by
  induction h with
  | start pids next hlt =>
    refine ⟨⟨?_, ?_⟩, ?_, ?_, ?_⟩ <;> grind
  | step h call ih => exact (ih.step call).1

/-- In every state reached a group lies in one session and a session leader leads its group, and no call takes a leader from
its group or puts a process into a group of another session. -/
theorem groups_within_sessions (h : Reached s) (call : Call) : Consistent s ∧ Confined s (s.step call).2 :=
  ⟨h.inv.toConsistent, (h.inv.step call).2⟩

theorem groups_within_sessions_fork :
    Reached (Table.step ⟨[{ pid := 1, group := 1, session := 1 }], 2, []⟩ (.fork 1 none)).2 ∧
      Confined (Table.step ⟨[{ pid := 1, group := 1, session := 1 }], 2, []⟩ (.fork 1 none)).2
        (Table.step (Table.step ⟨[{ pid := 1, group := 1, session := 1 }], 2, []⟩ (.fork 1 none)).2 (.setProcessGroup 1 2 0)).2 :=
  have h := (Reached.start [1] 2 (by simp)).step (.fork 1 none)
  ⟨h, (groups_within_sessions h (.setProcessGroup 1 2 0)).2⟩

section Family

variable {s : Scheduler} {t : Table} {pid : ℕ}

def family (s : Scheduler) : List (ℕ × ℕ × Bool) := s.processes.map fun p => (p.pid, p.parent, p.state.over)

def Table.family (t : Table) : List (ℕ × ℕ × Bool) := t.processes.map fun p => (p.pid, p.parent, p.exited)

lemma modify_family {f : Sched.Process → Sched.Process}
    (hf : ∀ p, (f p).pid = p.pid ∧ (f p).parent = p.parent ∧ (f p).state.over = p.state.over) :
    family (s.modify pid f) = family s := by
  simp only [family, Scheduler.modify, map_map]
  refine map_congr_left fun p _ => ?_
  dsimp only [Function.comp_apply]
  split_ifs
  · rw [(hf p).1, (hf p).2.1, (hf p).2.2]
  · rfl

lemma completeWait_family (s : Scheduler) (ticket : WaitTicket) (completion : WaitCompletion) (source : WakeSource) :
    family (s.completeWait ticket completion source).2 = family s := by
  unfold Scheduler.completeWait
  split
  · split
    · rfl
    split
    · rfl
    refine modify_family fun p => ⟨rfl, rfl, ?_⟩
    dsimp only
    split_ifs with hb
    · rw [hb]
      rfl
    · rfl
  · rfl

/-- The parent that a child of a process that ends gets. -/
def heir (init : Option ℕ) (s : Scheduler) (child : ℕ) : ℕ :=
  if (s.find child).any (·.user) && init.isSome then userInitPid else 0

lemma find_modify {f : Sched.Process → Sched.Process} (hf : ∀ p, (f p).pid = p.pid) (m : ℕ) :
    (s.modify pid f).find m = (s.find m).map fun p => if p.pid = pid then f p else p := by
  have hpid (p : Sched.Process) : (if p.pid = pid then f p else p).pid = p.pid := by
    split
    · exact hf p
    · rfl
  simp only [Scheduler.find, Scheduler.modify, find?_map, Function.comp_def, hpid]

lemma modify_user {f : Sched.Process → Sched.Process} (hf : ∀ p, (f p).pid = p.pid ∧ (f p).user = p.user) (child : ℕ) :
    ((s.modify pid f).find child).any (·.user) = (s.find child).any (·.user) := by
  rw [find_modify fun p => (hf p).1]
  cases s.find child with
  | none => rfl
  | some p =>
    simp only [Option.map_some, Option.any_some]
    split_ifs
    · exact (hf p).2
    · rfl

lemma adoptChild_heir (init : Option ℕ) (s : Scheduler) (child : ℕ) : heir init (s.adoptChild init child) = heir init s := by
  funext c
  unfold heir Scheduler.adoptChild
  dsimp only
  split
  · rw [modify_user, modify_user]
    iterate 2 exact fun _ => ⟨rfl, rfl⟩
  · rw [modify_user]
    exact fun _ => ⟨rfl, rfl⟩

lemma adoptChild_family (init : Option ℕ) (s : Scheduler) (child : ℕ) :
    family (s.adoptChild init child) = (family s).map fun r => (r.1, if r.1 = child then heir init s child else r.2.1, r.2.2) := by
  have hone : family (s.modify child fun p => { p with parent := heir init s child }) =
      (family s).map fun r => (r.1, if r.1 = child then heir init s child else r.2.1, r.2.2) := by
    simp only [family, Scheduler.modify, map_map]
    refine map_congr_left fun p _ => ?_
    dsimp only [Function.comp_apply]
    split_ifs <;> rfl
  rw [← hone]
  unfold heir Scheduler.adoptChild
  dsimp only
  split
  · exact modify_family fun _ => ⟨rfl, rfl, rfl⟩
  · rfl

lemma adoptChildren_family (init : Option ℕ) (children : List ℕ) (s : Scheduler) :
    family (children.foldl (Scheduler.adoptChild init) s) = (family s).map fun r =>
      (r.1, if r.1 ∈ children then heir init s r.1 else r.2.1, r.2.2) := by
  induction children generalizing s with
  | nil => simp
  | cons child children ih =>
  rw [foldl_cons, ih, adoptChild_heir, adoptChild_family, map_map]
  refine map_congr_left fun r _ => ?_
  by_cases hr : r.1 = child <;> by_cases hc : r.1 ∈ children <;> simp [hr, hc]

lemma find_family (h : t.family = family s) (pid : ℕ) : (t.find pid).map (·.exited) = (s.find pid).map (·.state.over) := by
  have hleft : (t.find pid).map (·.exited) = (t.family.find? (·.1 == pid)).map (·.2.2) := by
    rw [Table.family, find?_map, Option.map_map]
    rfl
  rw [hleft, h, family, find?_map, Option.map_map]
  rfl

lemma wakeWaiters_family (s : Scheduler) (reason : ThreadWaitReason) (key : ℕ) (source : WakeSource) :
    family (s.wakeWaiters reason key source) = family s :=
  Scheduler.wakeWaiters_induct (P := fun s' => family s' = family s) (fun _ _ _ _ h => (completeWait_family ..).trans h) rfl _ _ _

lemma released_family (released : List (ThreadWaitReason × ℕ)) (s : Scheduler) :
    family (released.foldl (fun s w => s.wakeWaiters w.1 w.2 .thread) s) = family s := by
  induction released generalizing s with
  | nil => rfl
  | cons w released ih => exact (ih _).trans (wakeWaiters_family ..)

lemma modify_zombie (f : List Sched.Thread → List Sched.Thread) :
    family (s.modify pid fun p => { p with state := .zombie, threads := f p.threads }) =
      (family s).map fun r => (r.1, r.2.1, r.2.2 || r.1 == pid) := by
  simp only [family, Scheduler.modify, map_map]
  refine map_congr_left fun p _ => ?_
  dsimp only [Function.comp_apply]
  by_cases hp : p.pid = pid
  · simp [hp, ProcessState.over]
  · simp [hp]

lemma clearCurrent_family (s : Scheduler) (pid : ℕ) : family (s.clearCurrent pid) = family s := rfl

lemma retireConsoleProcess_family (s : Scheduler) (console : Option ℕ) : family (s.retireConsoleProcess console) = family s :=
  Scheduler.retireConsoleProcess_induct (P := fun s' => family s' = family s) (fun _ _ _ _ h => (completeWait_family ..).trans h)
    rfl console

lemma exitProcess_family {console : Option ℕ} {released : List (ThreadWaitReason × ℕ)}
    (hok : (s.exitProcess pid console released).1 = .ok ()) :
    ∃ source init, s.find pid = some source ∧ source.state.over = false ∧
      family (s.exitProcess pid console released).2 = (family s).map fun r =>
        (r.1, if r.1 ∈ source.children then heir init s r.1 else r.2.1, r.2.2 || r.1 == pid) := by
  unfold Scheduler.exitProcess at hok ⊢
  split at hok
  · cases hok
  next source hsource =>
  split at hok
  · cases hok
  next hpreparing =>
  split at hok
  · cases hok
  next hover =>
  split at hok
  · cases hok
  next hstacked =>
  split at hok
  · cases hok
  next s' hs' =>
  unfold Scheduler.reparentChildrenOnExit at hs'
  rw [hsource] at hs'
  dsimp only at hs'
  split at hs'
  · cases hs'
  split at hs'
  · cases hs'
  refine ⟨source, (s.find (s.userAdoptionTarget pid)).map Sched.Process.pid, hsource, by simpa using hover, ?_⟩
  simp only [hpreparing, hover, hstacked, Bool.false_eq_true, if_false]
  obtain ⟨-, rfl⟩ := Prod.mk.inj hs'
  rw [wakeWaiters_family, wakeWaiters_family, clearCurrent_family, released_family, modify_zombie, retireConsoleProcess_family,
    modify_family, adoptChildren_family, map_map]
  · rfl
  · exact fun _ => ⟨rfl, rfl, rfl⟩

/-- The end of a process is the same for both records: whoever it leaves behind gets the same parent. -/
lemma exit_family (h : t.family = family s) {console : Option ℕ} {released : List (ThreadWaitReason × ℕ)}
    (hlinks : ∀ source, s.find pid = some source → ∀ p ∈ s.processes, p.parent = pid ↔ p.pid ∈ source.children)
    (hok : (s.exitProcess pid console released).1 = .ok ()) :
    ∃ adopted, (t.exit pid adopted none).1 = .ok 0 ∧
      (t.exit pid adopted none).2.family = family (s.exitProcess pid console released).2 := by
  obtain ⟨source, init, hsource, hover, hfamily⟩ := exitProcess_family hok
  have hfind := find_family h pid
  rw [hsource] at hfind
  obtain ⟨process, hprocess, hexited⟩ := Option.map_eq_some_iff.mp hfind
  have hlive : process.exited = false := hexited.trans hover
  refine ⟨fun c => (s.find c).any (·.user) && init.isSome, ?_⟩
  rw [hfamily]
  unfold Table.exit
  simp only [hprocess, hlive, Bool.false_eq_true, if_false, true_and]
  have hmap (f : ℕ × ℕ × Bool → ℕ × ℕ × Bool) (g : Process → Process)
      (hg : ∀ p : Process, ((g p).pid, (g p).parent, (g p).exited) = f (p.pid, p.parent, p.exited)) :
      ((t.endThreads pid).map g).family = t.family.map f := by
    simp only [Table.family, Table.map, Table.endThreads, map_map]
    exact map_congr_left fun p _ => hg p
  rw [hmap (fun r => (r.1, if r.2.1 = pid then (if (s.find r.1).any (·.user) && init.isSome then userInitPid else 0) else r.2.1,
    r.2.2 || r.1 == pid)) _ fun _ => rfl, h]
  refine map_congr_left fun r hr => ?_
  obtain ⟨p, hp, rfl⟩ := mem_map.mp hr
  simp only [hlinks source hsource p hp, heir]

end Family

end ObfuscationKernel.Sched.Sessions
