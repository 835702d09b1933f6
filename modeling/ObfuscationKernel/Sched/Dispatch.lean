import ObfuscationKernel.Sched.Wait

/-! Processes, threads and the current records of the CPUs, with the scheduler operations
that move threads between them. -/

namespace ObfuscationKernel.Sched

open ObfuscationKernel.Core

inductive ProcessState
  | created | runnable | running | blocked | zombie | exited
  deriving DecidableEq, Repr

def ProcessState.over (s : ProcessState) : Bool := s == .zombie || s == .exited

inductive ThreadWaitReason
  | none | child | pipeRead | pipeWrite | deadline | consoleRead | poll | futex | signalSuspend | signalWait
  | vfsOperation | udpReceive | tcpStream | ptyRead | ptyWrite
  deriving DecidableEq, Repr

structure Thread where
  tid : ℕ
  owner : ℕ
  state : ProcessState := .created
  registration : WaitRegistration := {}
  waitReason : ThreadWaitReason := .none
  waitKey : ℕ := 0
  stacked : Bool := false
  deriving DecidableEq, Repr

structure Process where
  pid : ℕ
  state : ProcessState := .created
  priority : ℕ := 16
  affinity : BitVec 16 := 0xffff
  threads : List Thread
  parent : ℕ := 0
  children : List ℕ := []
  user : Bool := false
  preparing : Bool := false
  deriving DecidableEq, Repr

structure Scheduler where
  processes : List Process
  cpuCount : ℕ
  current : ℕ → ℕ × ℕ := fun _ => (0, 0)
  currentPid : ℕ := 0
  closed : Bool := false

def maxCpus : ℕ := 16
def maxProcesses : ℕ := 64
def maxProcessChildren : ℕ := 64
def userInitPid : ℕ := 1

namespace Process

def canRunOn (p : Process) (cpu : ℕ) : Bool := decide (cpu < maxCpus) && p.affinity.getLsbD cpu

def hasRunnableThread (p : Process) : Bool := p.threads.any fun t => t.state == .runnable

def allowedOn (p : Process) (cpu current : ℕ) : Bool :=
  p.canRunOn cpu && (p.state == .runnable || p.state == .running && (p.pid == current || p.hasRunnableThread))

def live (p : Process) : Bool := p.threads.any fun t => t.state != .exited

def modifyThread (p : Process) (tid : ℕ) (f : Thread → Thread) : Process :=
  { p with threads := p.threads.map fun t => if t.tid = tid then f t else t }

end Process

def rotate {α : Type} (xs : List α) (start : ℕ) : List α := xs.drop start ++ xs.take start

def after {α : Type} (xs : List α) (q : α → Bool) : ℕ :=
  if xs.any q then (xs.findIdx q + 1) % xs.length else 0

def bestPriority (ps : List Process) (cpu current : ℕ) : Option ℕ :=
  ps.foldl (fun best p => if p.allowedOn cpu current && best.all (fun b => decide (b < p.priority)) then some p.priority else best)
    none

def pickNext (ps : List Process) (current cpu : ℕ) : Result ℕ :=
  if ps.isEmpty then .error (.notFound "no processes available")
  else
    let ring := rotate ps (after ps fun p => p.pid == current)
    match bestPriority ring cpu current with
    | none => .error (.wouldBlock "no runnable process")
    | some best =>
      match ring.find? fun p => p.allowedOn cpu current && p.priority == best with
      | some p => .ok p.pid
      | none => .error (.wouldBlock "no runnable process")

namespace Scheduler

abbrev Outcome (α : Type) := Result α × Scheduler

def find (s : Scheduler) (pid : ℕ) : Option Process := s.processes.find? fun p => p.pid == pid

def findThread (s : Scheduler) (pid tid : ℕ) : Option Thread :=
  (s.find pid).bind fun p => p.threads.find? fun t => t.tid == tid

def modify (s : Scheduler) (pid : ℕ) (f : Process → Process) : Scheduler :=
  { s with processes := s.processes.map fun p => if p.pid = pid then f p else p }

def currentOn (s : Scheduler) (cpu : ℕ) : ℕ × ℕ := if cpu < s.cpuCount then s.current cpu else (0, 0)

def setCurrent (s : Scheduler) (cpu : ℕ) (c : ℕ × ℕ) : Scheduler :=
  { s with
    current := Function.update s.current cpu c
    currentPid := if cpu = 0 then c.1 else s.currentPid }

def threadRunningOnOtherCpu (s : Scheduler) (tid cpu : ℕ) : Bool :=
  tid != 0 && (List.range s.cpuCount).any fun i => i != cpu && (s.current i).2 == tid

def pickNextThread (s : Scheduler) (p : Process) (current cpu : ℕ) : Result ℕ :=
  if p.threads.isEmpty then .error (.notFound "process has no threads")
  else
    match (rotate p.threads (after p.threads fun t => t.tid == current)).find? fun t =>
        t.state == .runnable ||
          t.state == .running && t.tid == current && !s.threadRunningOnOtherCpu t.tid cpu with
    | some t => .ok t.tid
    | none => .error (.wouldBlock "process has no runnable thread")

def deselect (s : Scheduler) (cpu : ℕ) : Scheduler :=
  let (pid, tid) := s.current cpu
  match s.find pid with
  | none => s
  | some p =>
    if p.state = .running then
      s.modify pid fun p => { p.modifyThread tid fun t =>
        if t.state = .running then { t with state := .runnable } else t with state := .runnable }
    else s

def select (s : Scheduler) (cpu pid tid : ℕ) : Scheduler :=
  (s.modify pid fun p => { p.modifyThread tid fun t => { t with state := .running } with state := .running }).setCurrent
    cpu (pid, tid)

def dispatchSelected (s : Scheduler) (cpu : ℕ) (next : Result ℕ) (requested : ℕ) : Outcome ℕ :=
  if s.closed then (.error (.denied "scheduler shutdown admission is closed"), s)
  else if cpu ≥ s.cpuCount then (.error (.invalidArgument "scheduler cpu id out of range"), s)
  else
    match next with
    | .error status => (.error status, s)
    | .ok pid =>
      let (previousPid, previousTid) := s.current cpu
      let refused := requested != 0 && !(s.findThread pid requested).any fun t =>
        !s.threadRunningOnOtherCpu requested cpu &&
          (t.state == .runnable || t.state == .running && requested == previousTid && pid == previousPid)
      if refused then (.error (.invalidArgument "requested thread cannot be activated"), s)
      else
        let s := s.deselect cpu
        match s.find pid with
        | none => (.error (.notFound "selected process disappeared"), s)
        | some p =>
          match if requested ≠ 0 then .ok requested
              else s.pickNextThread p (if p.pid = previousPid then previousTid else 0) cpu with
          | .error status => (.error status, s)
          | .ok tid => (.ok pid, s.select cpu pid tid)

def scheduleNextOnCpu (s : Scheduler) (cpu : ℕ) : Outcome ℕ :=
  if s.closed then (.error (.denied "scheduler shutdown admission is closed"), s)
  else if cpu ≥ s.cpuCount then (.error (.invalidArgument "scheduler cpu id out of range"), s)
  else s.dispatchSelected cpu (pickNext s.processes (s.currentOn cpu).1 cpu) 0

def setRunnable (s : Scheduler) (pid : ℕ) : Outcome Unit :=
  if s.closed then (.error (.denied "scheduler shutdown admission is closed"), s)
  else
    match s.find pid with
    | none => (.error (.notFound "process not found"), s)
    | some p =>
      if p.state.over then (.error (.invalidArgument "cannot run an exited process"), s)
      else if !p.live then (.error (.invalidArgument "process has no live thread"), s)
      else
        (.ok (), s.modify pid fun p => { p with
          state := .runnable
          threads := p.threads.map fun t =>
            if t.state = .exited then t
            else { t with
              registration := t.registration.cancel, waitReason := .none, waitKey := 0, state := .runnable } })

def activate (s : Scheduler) (pid cpu : ℕ) : Outcome Unit :=
  if cpu ≥ s.cpuCount then (.error (.invalidArgument "invalid activation CPU"), s)
  else if pid = 0 then
    let (previousPid, previousTid) := s.current cpu
    let s := s.modify previousPid fun p => { p.modifyThread previousTid fun t =>
      if t.state = .running then { t with state := .runnable } else t with
        state := if p.state = .running then .runnable else p.state }
    (.ok (), s.setCurrent cpu (0, 0))
  else
    match s.find pid with
    | none => (.error (.notFound "process not found"), s)
    | some p =>
      if p.state = .blocked ∨ p.state.over ∨ !p.canRunOn cpu then
        (.error (.invalidArgument "process cannot be activated"), s)
      else
        let s := if p.state = .created then (s.setRunnable pid).2 else s
        (s.dispatchSelected cpu (.ok pid) 0).map (fun r => r.map fun _ => ()) id

def activateThread (s : Scheduler) (pid tid cpu : ℕ) : Outcome Unit :=
  match s.find pid with
  | none => (.error (.invalidArgument "thread owner cannot be activated"), s)
  | some p =>
    if tid = 0 ∨ cpu ≥ s.cpuCount ∨ (p.state ≠ .runnable ∧ p.state ≠ .running) ∨ !p.canRunOn cpu then
      (.error (.invalidArgument "thread owner cannot be activated"), s)
    else (s.dispatchSelected cpu (.ok pid) tid).map (fun r => r.map fun _ => ()) id

/-- Only the boot CPU's thread can register a wait. -/
def registerCurrentWait (s : Scheduler) (reason : ThreadWaitReason) (key : ℕ) : Outcome WaitTicket :=
  if s.closed then (.error (.denied "scheduler shutdown admission is closed"), s)
  else if reason = .none then (.error (.invalidArgument "wait requires a reason"), s)
  else
    match s.find s.currentPid, s.findThread (s.currentOn 0).1 (s.currentOn 0).2 with
    | none, _ => (.error (.notFound "no current process to block"), s)
    | some _, none => (.error (.notFound "no current thread to block"), s)
    | some p, some t =>
      if t.owner ≠ p.pid then (.error (.notFound "no current thread to block"), s)
      else if t.state ≠ .running then (.error (.busy "wait owner is not running"), s)
      else
        match t.registration.arm p.pid t.tid with
        | (.error status, _) => (.error status, s)
        | (.ok ticket, r) =>
          (.ok ticket, (s.modify (s.currentOn 0).1 fun p => p.modifyThread t.tid fun t => { t with
            state := .blocked, registration := r, waitReason := reason, waitKey := key }).modify p.pid fun p =>
              if p.threads.any fun t => t.state == .runnable || t.state == .running then p
              else { p with state := .blocked })

def completeWait (s : Scheduler) (ticket : WaitTicket) (completion : WaitCompletion) (source : WakeSource) :
    Bool × Scheduler :=
  match s.find ticket.owner, s.findThread ticket.owner ticket.thread with
  | some p, some t =>
    if p.state.over ∨ t.state ≠ .blocked then (false, s)
    else
      match t.registration.complete ticket completion source with
      | (false, _) => (false, s)
      | (true, r) =>
        (true, s.modify ticket.owner fun p => { p.modifyThread ticket.thread fun t => { t with
          registration := r, waitReason := .none, waitKey := 0, state := .runnable } with
            state := if p.state = .blocked then .runnable else p.state })
  | _, _ => (false, s)

def wakeWaiter (reason : ThreadWaitReason) (key : ℕ) (source : WakeSource) (s : Scheduler) (id : ℕ × ℕ) : Scheduler :=
  match s.find id.1, s.findThread id.1 id.2 with
  | some p, some t =>
    if !p.state.over && t.state == .blocked && t.waitReason == reason && t.waitKey == key then
      (s.completeWait t.registration.ticket .ready source).2
    else s
  | _, _ => s

def identities (s : Scheduler) : List (ℕ × ℕ) := s.processes.flatMap fun p => p.threads.map fun t => (p.pid, t.tid)

def wakeWaiters (s : Scheduler) (reason : ThreadWaitReason) (key : ℕ) (source : WakeSource) : Scheduler :=
  s.identities.foldl (wakeWaiter reason key source) s

def cancelConsoleWait (epoch : ℕ) (s : Scheduler) (id : ℕ × ℕ) : Scheduler :=
  match s.findThread id.1 id.2 with
  | some t =>
    if t.state == .blocked && t.waitReason == .consoleRead && t.waitKey == epoch then
      (s.completeWait t.registration.ticket .cancelled .thread).2
    else s
  | none => s

/-- `console` is the epoch of the console input that the end of a process closes, if it does. -/
def retireConsoleProcess (s : Scheduler) (console : Option ℕ) : Scheduler :=
  match console with
  | some epoch => s.identities.foldl (cancelConsoleWait epoch) s
  | none => s

def exitThread (s : Scheduler) (pid tid cpu : ℕ) (console : Option ℕ) : Outcome ℕ :=
  if cpu ≥ s.cpuCount then (.error (.invalidArgument "thread retirement CPU is invalid"), s)
  else
    match s.find pid, s.findThread pid tid with
    | some p, some t =>
      if p.state.over ∨ t.state = .exited then (.error (.alreadyExists "thread is already retired"), s)
      else if s.threadRunningOnOtherCpu tid cpu then (.error (.busy "thread is owned by another CPU"), s)
      else if t.stacked then (.error (.busy "thread-owned kernel stack must be retired first"), s)
      else
        let gone := p.modifyThread tid fun t => { t with
          registration := t.registration.cancel, waitReason := .none, waitKey := 0, state := .exited }
        let state : ProcessState :=
          if gone.threads.any fun t => t.state == .running then .running
          else if gone.threads.any fun t => t.state == .runnable || t.state == .created then .runnable
          else .blocked
        let live := gone.threads.countP fun t => t.state != .exited
        let s := s.modify pid fun _ => { gone with state := state }
        let s := if s.current cpu = (pid, tid) then s.setCurrent cpu (0, 0) else s
        (.ok live, if live = 0 then s.retireConsoleProcess console else s)
    | _, _ => (.error (.notFound "thread retirement identity not found"), s)

def clearCurrent (s : Scheduler) (pid : ℕ) : Scheduler :=
  { s with
    currentPid := if s.currentPid = pid then 0 else s.currentPid
    current := fun cpu => if (s.current cpu).1 = pid then (0, 0) else s.current cpu }

def userAdoptionTarget (s : Scheduler) (departing : ℕ) : ℕ :=
  match s.find departing, s.find userInitPid with
  | some source, some init =>
    if departing = userInitPid ∨ !source.user ∨ !init.user ∨ source.state = .created ∨ init.state = .created ∨
        init.state.over then 0
    else userInitPid
  | _, _ => 0

def adoptable (s : Scheduler) (source : Process) (init : Option Process) : Result ℕ :=
  source.children.foldlM (fun adopted child =>
    match s.find child with
    | none => .error (.fault "departing process has an invalid child link")
    | some p =>
      if p.parent ≠ source.pid then .error (.fault "departing process has an invalid child link")
      else if source.children.count child ≠ 1 then .error (.fault "departing process has a duplicate child link")
      else
        match init with
        | none => .ok adopted
        | some init =>
          if !p.user then .ok adopted
          else if init.children.contains child then .error (.fault "init already owns departing child")
          else .ok (adopted + 1)) 0

def adoptChild (init : Option ℕ) (s : Scheduler) (child : ℕ) : Scheduler :=
  let toInit := (s.find child).any (·.user) && init.isSome
  let s := s.modify child fun p => { p with parent := if toInit then userInitPid else 0 }
  if toInit then s.modify userInitPid fun p => { p with children := p.children ++ [child] } else s

def reparentChildrenOnExit (s : Scheduler) (pid : ℕ) : Outcome Unit :=
  match s.find pid with
  | none => (.error (.notFound "departing process not found"), s)
  | some source =>
    let init := s.find (s.userAdoptionTarget pid)
    match s.adoptable source init with
    | .error status => (.error status, s)
    | .ok adopted =>
      if init.any fun init => decide (init.children.length + adopted > maxProcessChildren) then
        (.error (.overflow "init child table full"), s)
      else
        (.ok (), (source.children.foldl (adoptChild (init.map Process.pid)) s).modify pid fun p => { p with children := [] })

/-- Ends process `pid`; `released` are the waits that giving back its descriptors wakes. -/
def exitProcess (s : Scheduler) (pid : ℕ) (console : Option ℕ) (released : List (ThreadWaitReason × ℕ)) : Outcome Unit :=
  match s.find pid with
  | none => (.error (.notFound "process not found"), s)
  | some p =>
    if p.preparing then (.error (.busy "prepared descriptor operation must finish before exit"), s)
    else if p.state.over then (.error (.alreadyExists "process has already exited"), s)
    else if p.threads.any (·.stacked) then
      (.error (.busy "thread entry stacks must be retired before process exit"), s)
    else
      match s.reparentChildrenOnExit pid with
      | (.error status, s) => (.error status, s)
      | (.ok (), s) =>
        let s := (s.retireConsoleProcess console).modify pid fun p => { p with
          state := .zombie
          threads := p.threads.map fun t => { t with
            registration := t.registration.cancel, waitReason := .none, waitKey := 0, state := .exited } }
        let s := released.foldl (fun s w => s.wakeWaiters w.1 w.2 .thread) s
        (.ok (), ((s.clearCurrent pid).wakeWaiters .child pid .thread).wakeWaiters .child 0 .thread)

end Scheduler

end ObfuscationKernel.Sched
