import ObfuscationKernel.Sched.Dispatch

/-! The states of processes and threads fit the records of the CPUs, and every scheduler operation
keeps them so while the CPUs stay apart. -/

namespace ObfuscationKernel.Sched

open ObfuscationKernel.Core Function List Scheduler Process

structure Scheduler.Shaped (s : Scheduler) : Prop where
  process : ∀ p ∈ s.processes, ∀ q ∈ s.processes, p.pid = q.pid → p = q
  thread : ∀ p ∈ s.processes, ∀ q ∈ s.processes, ∀ t ∈ p.threads, ∀ u ∈ q.threads, t.tid = u.tid → p = q ∧ t = u
  pid : ∀ p ∈ s.processes, p.pid ≠ 0
  tid : ∀ p ∈ s.processes, ∀ t ∈ p.threads, t.tid ≠ 0 ∧ t.owner = p.pid

structure Process.Good (n : ℕ) (current : ℕ → ℕ × ℕ) (p : Process) : Prop where
  running : ∀ t ∈ p.threads, t.state = .running → p.state = .running ∧
    ∃ i < n, current i = (p.pid, t.tid) ∧ ∀ k < n, (current k).2 = t.tid → k = i
  ready : p.state = .runnable → ∃ t ∈ p.threads, t.state = .runnable
  busy : p.state = .running → ∃ t ∈ p.threads, t.state = .runnable ∨ t.state = .running
  fresh : p.state = .created → ∀ t ∈ p.threads, t.state = .created

structure Scheduler.Coherent (s : Scheduler) : Prop where
  shaped : s.Shaped
  good : ∀ p ∈ s.processes, p.Good s.cpuCount s.current
  boot : s.currentPid = (s.current 0).1
  unused : ∀ i, s.cpuCount ≤ i → s.current i = (0, 0)
  unseen : ∀ p ∈ s.processes, ∀ t ∈ p.threads, t.state = .created → ∀ k < s.cpuCount, (s.current k).2 ≠ t.tid

structure Thread.Same (t u : Thread) : Prop where
  tid : u.tid = t.tid
  owner : u.owner = t.owner
  created : u.state = .created → t.state = .created

lemma Thread.Same.refl (t : Thread) : t.Same t := ⟨rfl, rfl, id⟩

namespace Process

variable {p q : Process} {tid n : ℕ} {c : ℕ → ℕ × ℕ} {f : Thread → Thread} {t u : Thread}

structure Rework (p q : Process) : Prop where
  pid : q.pid = p.pid
  threads : ∃ g : Thread → Thread, (∀ t : Thread, t.Same (g t)) ∧ q.threads = p.threads.map g

lemma Rework.refl (p : Process) : p.Rework p := ⟨rfl, id, .refl, by simp⟩

lemma Rework.setState (h : p.Rework q) (x : ProcessState) : p.Rework { q with state := x } := ⟨h.pid, h.threads⟩

lemma modifyThread_rework (hf : ∀ t : Thread, t.Same (f t)) : p.Rework (p.modifyThread tid f) := by
  refine ⟨rfl, _, fun t => ?_, rfl⟩
  split
  · exact hf t
  · exact .refl t

lemma mem_modifyThread : u ∈ (p.modifyThread tid f).threads ↔ ∃ t ∈ p.threads, (if t.tid = tid then f t else t) = u := by
  simp [modifyThread]

lemma mem_modifyThread_of_ne (ht : t ∈ p.threads) (hn : t.tid ≠ tid) : t ∈ (p.modifyThread tid f).threads :=
  mem_modifyThread.mpr ⟨t, ht, if_neg hn⟩

lemma mem_modifyThread_self (ht : t ∈ p.threads) (he : t.tid = tid) : f t ∈ (p.modifyThread tid f).threads :=
  mem_modifyThread.mpr ⟨t, ht, if_pos he⟩

lemma Good.idle (hr : ∀ t ∈ p.threads, t.state ≠ .running) (hs : p.state = .runnable ∨ p.state = .running)
    (ht : t ∈ p.threads) (hts : t.state = .runnable) : p.Good n c where
  running u hu h := absurd h (hr u hu)
  ready _ := ⟨t, ht, hts⟩
  busy _ := ⟨t, ht, .inl hts⟩
  fresh h := by simp [h] at hs

end Process

namespace Scheduler

variable {s : Scheduler} {pid tid cpu : ℕ} {f : Process → Process} {p q : Process} {t u : Thread}

lemma mem_modify : q ∈ (s.modify pid f).processes ↔ ∃ p ∈ s.processes, (if p.pid = pid then f p else p) = q := by
  simp [modify]

lemma modify_congr {f' : Process → Process} (h : ∀ p ∈ s.processes, p.pid = pid → f p = f' p) :
    s.modify pid f = s.modify pid f' := by
  unfold modify
  congr 1
  refine map_congr_left fun p hp => ?_
  split
  · next he => exact h p hp he
  · rfl

lemma modify_modify {g : Process → Process} (h : ∀ p, (f p).pid = p.pid) :
    (s.modify pid f).modify pid g = s.modify pid (g ∘ f) := by
  simp only [modify, map_map]
  congr 1
  refine map_congr_left fun p _ => ?_
  by_cases he : p.pid = pid
  · simp [he, h]
  · simp [he]

lemma modify_self (h : ∀ p ∈ s.processes, p.pid = pid → f p = p) : s.modify pid f = s := by
  rw [modify_congr (show ∀ p ∈ s.processes, p.pid = pid → f p = id p from h)]
  simp [modify]

lemma Shaped.modify (h : s.Shaped) (hf : ∀ p ∈ s.processes, p.pid = pid → p.Rework (f p)) : (s.modify pid f).Shaped := by
  have hr (p) (hp : p ∈ s.processes) : p.Rework (if p.pid = pid then f p else p) := by
    split
    · next he => exact hf p hp he
    · exact .refl p
  have hm (q) (hq : q ∈ (s.modify pid f).processes) : ∃ p ∈ s.processes, p.Rework q ∧
      (if p.pid = pid then f p else p) = q := by
    obtain ⟨p, hp, rfl⟩ := mem_modify.mp hq
    exact ⟨p, hp, hr p hp, rfl⟩
  refine ⟨fun p hp q hq he => ?_, fun p hp q hq t ht u hu he => ?_, fun p hp => ?_, fun p hp t ht => ?_⟩
  · obtain ⟨p₀, hp₀, hpr, rfl⟩ := hm p hp
    obtain ⟨q₀, hq₀, hqr, rfl⟩ := hm q hq
    rw [hpr.pid, hqr.pid] at he
    rw [h.process p₀ hp₀ q₀ hq₀ he]
  · obtain ⟨p₀, hp₀, hpr, rfl⟩ := hm p hp
    obtain ⟨q₀, hq₀, hqr, rfl⟩ := hm q hq
    obtain ⟨g, hg, hpt⟩ := hpr.threads
    obtain ⟨g', hg', hqt⟩ := hqr.threads
    obtain ⟨t₀, ht₀, htg⟩ := mem_map.mp (hpt ▸ ht)
    obtain ⟨u₀, hu₀, hug⟩ := mem_map.mp (hqt ▸ hu)
    have hid : t₀.tid = u₀.tid := by rw [← (hg t₀).tid, ← (hg' u₀).tid, htg, hug, he]
    obtain ⟨rfl, -⟩ := h.thread p₀ hp₀ q₀ hq₀ t₀ ht₀ u₀ hu₀ hid
    obtain ⟨v₀, hv₀, hvg⟩ := mem_map.mp (hpt ▸ hu)
    have hid : t₀.tid = v₀.tid := by rw [← (hg t₀).tid, ← (hg v₀).tid, htg, hvg, he]
    obtain ⟨-, rfl⟩ := h.thread p₀ hp₀ p₀ hp₀ t₀ ht₀ v₀ hv₀ hid
    exact ⟨rfl, htg.symm.trans hvg⟩
  · obtain ⟨p₀, hp₀, hpr, -⟩ := hm p hp
    rw [hpr.pid]
    exact h.pid p₀ hp₀
  obtain ⟨p₀, hp₀, hpr, -⟩ := hm p hp
  obtain ⟨g, hg, hpt⟩ := hpr.threads
  obtain ⟨t₀, ht₀, rfl⟩ := mem_map.mp (hpt ▸ ht)
  rw [(hg t₀).tid, (hg t₀).owner, hpr.pid]
  exact h.tid p₀ hp₀ t₀ ht₀

lemma Shaped.find_iff (h : s.Shaped) : s.find pid = some p ↔ p ∈ s.processes ∧ p.pid = pid := by
  constructor
  · intro hf
    exact ⟨mem_of_find?_eq_some hf, by simpa using find?_some hf⟩
  rintro ⟨hp, rfl⟩
  cases hf : s.find p.pid with
  | none => simpa using find?_eq_none.mp hf p hp
  | some q =>
    have hq : q.pid = p.pid := by simpa using find?_some hf
    rw [h.process q (mem_of_find?_eq_some hf) p hp hq]

lemma Shaped.findThread_iff (h : s.Shaped) :
    s.findThread pid tid = some t ↔ ∃ p ∈ s.processes, p.pid = pid ∧ t ∈ p.threads ∧ t.tid = tid := by
  rw [findThread, Option.bind_eq_some_iff]
  constructor
  · rintro ⟨p, hp, ht⟩
    rw [h.find_iff] at hp
    exact ⟨p, hp.1, hp.2, mem_of_find?_eq_some ht, by simpa using find?_some ht⟩
  rintro ⟨p, hp, he, ht, rfl⟩
  refine ⟨p, h.find_iff.mpr ⟨hp, he⟩, ?_⟩
  cases hf : p.threads.find? fun u => u.tid == t.tid with
  | none => simpa using find?_eq_none.mp hf t ht
  | some u =>
    have hu : u.tid = t.tid := by simpa using find?_some hf
    rw [(h.thread p hp p hp u (mem_of_find?_eq_some hf) t ht hu).2]

lemma Coherent.modify (h : s.Coherent)
    (hf : ∀ p ∈ s.processes, p.pid = pid → p.Rework (f p) ∧ (f p).Good s.cpuCount s.current) :
    (s.modify pid f).Coherent := by
  refine ⟨h.shaped.modify fun p hp he => (hf p hp he).1, fun q hq => ?_, h.boot, h.unused, fun q hq u hu hs => ?_⟩
  · obtain ⟨p, hp, rfl⟩ := mem_modify.mp hq
    split
    · next he => exact (hf p hp he).2
    · exact h.good p hp
  obtain ⟨p, hp, rfl⟩ := mem_modify.mp hq
  split at hu
  · next he =>
    obtain ⟨g, hg, hgt⟩ := (hf p hp he).1.threads
    obtain ⟨t, ht, rfl⟩ := mem_map.mp (hgt ▸ hu)
    rw [(hg t).tid]
    exact h.unseen p hp t ht ((hg t).created hs)
  · exact h.unseen p hp u hu hs

def Idle (s : Scheduler) (cpu : ℕ) : Prop :=
  ∀ p ∈ s.processes, ∀ t ∈ p.threads, t.state = .running → t.tid ≠ (s.current cpu).2

/-- The processors may be given other records that keep those of the running threads and name no new ones. -/
lemma Coherent.recorded (h : s.Coherent) {c : ℕ → ℕ × ℕ} {n : ℕ} (hb : n = (c 0).1) (hu : ∀ i, s.cpuCount ≤ i → c i = (0, 0))
    (hk : ∀ p ∈ s.processes, ∀ t ∈ p.threads, p.state = .running → t.state = .running →
      ∀ i, s.current i = (p.pid, t.tid) → c i = s.current i)
    (hn : ∀ p ∈ s.processes, ∀ t ∈ p.threads, t.state = .running ∨ t.state = .created →
      ∀ i, (c i).2 = t.tid → c i = s.current i) : { s with current := c, currentPid := n }.Coherent := by
  refine ⟨⟨h.shaped.1, h.shaped.2, h.shaped.3, h.shaped.4⟩, fun p hp => ⟨fun t ht htr => ?_, (h.good p hp).ready,
    (h.good p hp).busy, (h.good p hp).fresh⟩, hb, hu, fun p hp t ht hs k hk he => ?_⟩
  · obtain ⟨hs, i, hi, hci, hone⟩ := (h.good p hp).running t ht htr
    refine ⟨hs, i, hi, (hk p hp t ht hs htr i hci).trans hci, fun k hk hkt => hone k hk ?_⟩
    rwa [← hn p hp t ht (.inl htr) k hkt]
  · exact h.unseen p hp t ht hs k hk (by rwa [← hn p hp t ht (.inr hs) k he])

lemma Coherent.setCurrent (h : s.Coherent) (hc : cpu < s.cpuCount) (hi : s.Idle cpu) {c : ℕ × ℕ}
    (hn : ∀ p ∈ s.processes, ∀ t ∈ p.threads, t.state = .running ∨ t.state = .created → t.tid ≠ c.2) :
    (s.setCurrent cpu c).Coherent := by
  refine h.recorded ?_ (fun i hl => ?_) (fun p hp t ht _ htr i hci => update_of_ne ?_ ..)
    fun p hp t ht hts i he => update_of_ne ?_ ..
  · rcases eq_or_ne cpu 0 with rfl | h0
    · simp
    · simpa [h0, Ne.symm h0] using h.boot
  · rw [update_of_ne (by omega), h.unused i hl]
  · rintro rfl
    exact hi p hp t ht htr (by rw [hci])
  · rintro rfl
    rw [update_self] at he
    exact hn p hp t ht hts he.symm

lemma Coherent.record (h : s.Coherent) (hp : p ∈ s.processes) (ht : t ∈ p.threads) (hr : t.state = .running)
    (hc : cpu < s.cpuCount) (he : t.tid = (s.current cpu).2) : s.current cpu = (p.pid, t.tid) := by
  obtain ⟨-, i, -, hi, hu⟩ := (h.good p hp).running t ht hr
  rw [hu cpu hc he.symm]
  exact hi

lemma Coherent.clear (h : s.Coherent) (hc : cpu < s.cpuCount) (hi : s.Idle cpu) : (s.setCurrent cpu (0, 0)).Coherent :=
  h.setCurrent hc hi fun p hp t ht _ => (h.shaped.tid p hp t ht).1

def demote (t : Thread) : Thread := if t.state = .running then { t with state := .runnable } else t

lemma demote_same (t : Thread) : t.Same (demote t) := by
  unfold demote
  split
  · exact ⟨rfl, rfl, nofun⟩
  · exact .refl t

lemma demote_not_running (t : Thread) : (demote t).state ≠ .running := by
  unfold demote
  split
  · simp
  · assumption

lemma demote_runnable (h : t.state = .runnable ∨ t.state = .running) : (demote t).state = .runnable := by
  unfold demote
  split
  · rfl
  · exact h.resolve_right (by assumption)

def Alone (s : Scheduler) (cpu : ℕ) : Prop :=
  ∀ p ∈ s.processes, p.pid = (s.current cpu).1 → ∀ t ∈ p.threads, t.state = .running → t.tid = (s.current cpu).2

variable {n : ℕ} {c : ℕ → ℕ × ℕ}

def rested (p : Process) (tid : ℕ) : Process :=
  { p.modifyThread tid demote with state := if p.state = .running then .runnable else p.state }

lemma rested_idle (h : p.Good n c) (hs : p.state ≠ .running) : rested p tid = p := by
  have ht : p.threads.map (fun t => if t.tid = tid then demote t else t) = p.threads := by
    conv_rhs => rw [← map_id p.threads]
    refine map_congr_left fun t ht => ?_
    have hr : t.state ≠ .running := fun hr => hs (h.running t ht hr).1
    simp [demote, hr]
  rw [rested, if_neg hs]
  exact congrArg (fun ts => { p with threads := ts }) ht

lemma rested_good (h : p.Good n c) (ha : ∀ t ∈ p.threads, t.state = .running → t.tid = tid) : (rested p tid).Good n c := by
  by_cases hs : p.state = .running
  · obtain ⟨t, ht, htr⟩ := h.busy hs
    have hr (u) (hu : u ∈ (rested p tid).threads) : u.state ≠ .running := by
      obtain ⟨v, hv, rfl⟩ := mem_modifyThread.mp hu
      split
      · exact demote_not_running v
      · next hn => exact fun hvr => hn (ha v hv hvr)
    by_cases he : t.tid = tid
    · exact .idle hr (.inl (if_pos hs)) (mem_modifyThread_self ht he) (demote_runnable htr)
    · exact .idle hr (.inl (if_pos hs)) (mem_modifyThread_of_ne ht he) (htr.resolve_right fun hx => he (ha t ht hx))
  · rwa [rested_idle h hs]

lemma deselect_eq (h : s.Coherent) (cpu : ℕ) :
    s.deselect cpu = s.modify (s.current cpu).1 fun p => rested p (s.current cpu).2 := by
  unfold Scheduler.deselect
  dsimp only
  cases hf : s.find (s.current cpu).1 with
  | none => exact (modify_self fun p hp hpe => by simp [h.shaped.find_iff.mpr ⟨hp, hpe⟩] at hf).symm
  | some p =>
  obtain ⟨hp, he⟩ := h.shaped.find_iff.mp hf
  have hone (q) (hq : q ∈ s.processes) (hqe : q.pid = (s.current cpu).1) : q = p :=
    h.shaped.process q hq p hp (hqe.trans he.symm)
  dsimp only
  split
  · next hr =>
    refine modify_congr fun q hq hqe => ?_
    rw [hone q hq hqe, rested, if_pos hr]
    rfl
  · next hr => exact (modify_self fun q hq hqe => rested_idle (h.good q hq) (hone q hq hqe ▸ hr)).symm

lemma Coherent.deselect (h : s.Coherent) (ha : s.Alone cpu) : (s.deselect cpu).Coherent := by
  rw [deselect_eq h]
  exact h.modify fun p hp hpe => ⟨(modifyThread_rework demote_same).setState _, rested_good (h.good p hp) (ha p hp hpe)⟩

@[simp] lemma deselect_current (s : Scheduler) (cpu : ℕ) : (s.deselect cpu).current = s.current := by
  unfold Scheduler.deselect
  dsimp only
  split
  · rfl
  · split <;> rfl

@[simp] lemma deselect_cpuCount (s : Scheduler) (cpu : ℕ) : (s.deselect cpu).cpuCount = s.cpuCount := by
  unfold Scheduler.deselect
  dsimp only
  split
  · rfl
  · split <;> rfl

lemma mem_deselect (h : s.Coherent) (hc : cpu < s.cpuCount) (hq : q ∈ (s.deselect cpu).processes) (hu : u ∈ q.threads) :
    ∃ p ∈ s.processes, p.pid = q.pid ∧ ∃ t ∈ p.threads, t.tid = u.tid ∧
      (u = t ∧ t.tid ≠ (s.current cpu).2 ∨ u = demote t ∧ t.tid = (s.current cpu).2) := by
  rw [deselect_eq h] at hq
  obtain ⟨p, hp, rfl⟩ := mem_modify.mp hq
  split at hu
  · next hpe =>
    obtain ⟨t, ht, rfl⟩ := mem_modifyThread.mp hu
    refine ⟨p, hp, by simp [hpe, rested, modifyThread], t, ht, ?_, ?_⟩
    · split
      · exact (demote_same t).tid.symm
      · rfl
    split
    · next htid => exact .inr ⟨rfl, htid⟩
    · next htid => exact .inl ⟨rfl, htid⟩
  next hpe =>
  refine ⟨p, hp, by simp [hpe], u, hu, rfl, ?_⟩
  by_cases he : u.tid = (s.current cpu).2
  · refine .inr ⟨?_, he⟩
    rw [demote, if_neg]
    exact fun hur => hpe (by rw [h.record hp hu hur hc he])
  · exact .inl ⟨rfl, he⟩

lemma idle_deselect (h : s.Coherent) (hc : cpu < s.cpuCount) : (s.deselect cpu).Idle cpu := by
  intro q hq u hu hr he
  obtain ⟨p, -, -, t, -, htu, ⟨rfl, hne⟩ | ⟨rfl, -⟩⟩ := mem_deselect h hc hq hu
  · exact hne (by simpa using he)
  · exact demote_not_running t hr

def Unshared (s : Scheduler) (cpu : ℕ) : Prop :=
  ∀ k < s.cpuCount, k ≠ cpu → ∀ p ∈ s.processes, ∀ t ∈ p.threads, t.state = .runnable → (s.current k).2 ≠ t.tid

lemma Unshared.deselect (h : s.Coherent) (hu : s.Unshared cpu) (hc : cpu < s.cpuCount) : (s.deselect cpu).Unshared cpu := by
  intro k hk hkc q hq u huq hur
  rw [deselect_cpuCount] at hk
  rw [deselect_current]
  obtain ⟨p, hp, -, t, ht, htu, ⟨rfl, -⟩ | ⟨rfl, he⟩⟩ := mem_deselect h hc hq huq
  · exact hu k hk hkc p hp u ht hur
  rw [(demote_same t).tid]
  by_cases htr : t.state = .running
  · obtain ⟨-, i, -, -, hone⟩ := (h.good p hp).running t ht htr
    intro hkt
    exact hkc ((hone k hk hkt).trans (hone cpu hc he.symm).symm)
  · rw [demote, if_neg htr] at hur
    exact hu k hk hkc p hp t ht hur

structure Startable (s : Scheduler) (cpu : ℕ) (p : Process) (t : Thread) : Prop where
  process : p ∈ s.processes
  thread : t ∈ p.threads
  runnable : t.state = .runnable
  apart : ∀ k < s.cpuCount, k ≠ cpu → (s.current k).2 ≠ t.tid

lemma promoted_good (h : p.Good n c) (ht : t ∈ p.threads) (hc : cpu < n)
    (hcur : c cpu = (p.pid, t.tid)) (hone : ∀ k < n, (c k).2 = t.tid → k = cpu) :
    Process.Good n c { p.modifyThread t.tid fun t => { t with state := .running } with state := .running } := by
  refine ⟨fun u hu hur => ?_, nofun, fun _ => ?_, nofun⟩
  · obtain ⟨v, hv, rfl⟩ := mem_modifyThread.mp hu
    split
    · next he => exact ⟨rfl, cpu, hc, by rw [hcur, ← he]; rfl, fun k hk hkt => hone k hk (by rw [hkt, he])⟩
    next he =>
    rw [if_neg he] at hur
    exact ⟨rfl, ((h.running v hv hur).2)⟩
  · exact ⟨_, mem_modifyThread_self ht rfl, .inr rfl⟩

lemma Startable.select (h : s.Coherent) (hi : s.Idle cpu) (hc : cpu < s.cpuCount) (ht : s.Startable cpu p t) :
    (s.select cpu p.pid t.tid).Coherent := by
  have hset : (s.setCurrent cpu (p.pid, t.tid)).Coherent := by
    refine h.setCurrent hc hi fun q hq u hu hur he => ?_
    obtain ⟨-, rfl⟩ := h.shaped.thread q hq p ht.process u hu t ht.thread he
    simp [ht.runnable] at hur
  refine hset.modify fun q hq he => ⟨.setState (modifyThread_rework (by exact fun t => ⟨rfl, rfl, nofun⟩)) _, ?_⟩
  obtain rfl := h.shaped.process q hq p ht.process he
  refine promoted_good (hset.good q hq) ht.thread hc (by simp [setCurrent]) fun k hk hkt => ?_
  by_contra hkc
  simp only [setCurrent, update_of_ne hkc] at hkt
  exact ht.apart k hk hkc hkt

inductive Dispatched (s : Scheduler) (cpu : ℕ) : Scheduler → Prop
  | refused : Dispatched s cpu s
  | demoted (hc : cpu < s.cpuCount) : Dispatched s cpu (s.deselect cpu)
  | released (hc : cpu < s.cpuCount) : Dispatched s cpu ((s.deselect cpu).setCurrent cpu (0, 0))
  | started (p : Process) (t : Thread) (hc : cpu < s.cpuCount) (ht : (s.deselect cpu).Startable cpu p t) :
      Dispatched s cpu ((s.deselect cpu).select cpu p.pid t.tid)

lemma Dispatched.coherent {s' : Scheduler} (hd : s.Dispatched cpu s') (h : s.Coherent) (ha : s.Alone cpu) : s'.Coherent := by
  cases hd with
  | refused => exact h
  | demoted hc => exact h.deselect ha
  | released hc => exact (h.deselect ha).clear (by simpa using hc) (idle_deselect h hc)
  | started p t hc ht => exact ht.select (h.deselect ha) (idle_deselect h hc) (by simpa using hc)

lemma threadRunningOnOtherCpu_false (h0 : tid ≠ 0) (h : s.threadRunningOnOtherCpu tid cpu = false) (k : ℕ)
    (hk : k < s.cpuCount) (hkc : k ≠ cpu) : (s.current k).2 ≠ tid := by
  simp only [threadRunningOnOtherCpu, bne_iff_ne, ne_eq, h0, not_false_eq_true, Bool.and_eq_false_imp,
    any_eq_false, mem_range, Bool.and_eq_true, beq_iff_eq, not_and] at h
  exact h trivial k hk hkc

lemma mem_rotate {α : Type} {xs : List α} {x : α} : x ∈ rotate xs n ↔ x ∈ xs := by
  rw [rotate, mem_append, or_comm, ← mem_append, take_append_drop]

lemma pickNextThread_ok {prev : ℕ} (h : s.pickNextThread p prev cpu = .ok tid) : ∃ t ∈ p.threads, t.tid = tid ∧
    (t.state = .runnable ∨ t.state = .running ∧ t.tid = prev) := by
  unfold pickNextThread at h
  split at h
  · cases h
  split at h
  · next t ht =>
    cases h
    refine ⟨t, mem_rotate.mp (mem_of_find?_eq_some ht), rfl, ?_⟩
    have := find?_some ht
    simp only [Bool.or_eq_true, beq_iff_eq, Bool.and_eq_true] at this
    exact this.imp id fun h => h.1
  · cases h

lemma mem_deselect_of_mem (h : s.Coherent) (cpu : ℕ) (hp : p ∈ s.processes) (ht : t ∈ p.threads)
    (hr : t.state = .runnable ∨ t.state = .running ∧ s.current cpu = (p.pid, t.tid)) :
    ∃ q ∈ (s.deselect cpu).processes, q.pid = p.pid ∧ ∃ u ∈ q.threads, u.tid = t.tid ∧ u.state = .runnable := by
  rw [deselect_eq h]
  by_cases hpe : p.pid = (s.current cpu).1
  · refine ⟨_, mem_modify.mpr ⟨p, hp, if_pos hpe⟩, rfl, ?_⟩
    by_cases hte : t.tid = (s.current cpu).2
    · exact ⟨_, mem_modifyThread_self ht hte, (demote_same t).tid, demote_runnable (hr.imp id And.left)⟩
    · exact ⟨t, mem_modifyThread_of_ne ht hte, rfl, hr.resolve_right fun hx => hte (by rw [hx.2])⟩
  · exact ⟨p, mem_modify.mpr ⟨p, hp, if_neg hpe⟩, rfl, t, ht, rfl, hr.resolve_right fun hx => hpe (by rw [hx.2])⟩

lemma dispatchSelected_requested (h : s.Coherent) (ha : s.Alone cpu) (h0 : tid ≠ 0) :
    s.Dispatched cpu (s.dispatchSelected cpu (.ok pid) tid).2 := by
  unfold dispatchSelected
  split
  · exact .refused
  split
  · exact .refused
  next hc =>
  have hc : cpu < s.cpuCount := by omega
  dsimp only
  split
  · exact .refused
  next hr =>
  have hd := h.deselect ha
  obtain ⟨t, htf, hto, hts⟩ : ∃ t, s.findThread pid tid = some t ∧ s.threadRunningOnOtherCpu tid cpu = false ∧
      (t.state = .runnable ∨ (t.state = .running ∧ tid = (s.current cpu).2) ∧ pid = (s.current cpu).1) := by
    simpa [h0, Option.any_eq_true] using hr
  obtain ⟨p, hp, rfl, ht, rfl⟩ := h.shaped.findThread_iff.mp htf
  obtain ⟨q, hq, hqp, u, hu, hut, hur⟩ := mem_deselect_of_mem h cpu hp ht
    (hts.imp id fun hx => ⟨hx.1.1, Prod.ext hx.2.symm hx.1.2.symm⟩)
  rw [hd.shaped.find_iff.mpr ⟨hq, hqp⟩, ← hqp, ← hut]
  exact .started q u hc ⟨hq, hu, hur, fun k hk hkc => by
    rw [deselect_current, hut]
    exact threadRunningOnOtherCpu_false h0 hto k (by simpa using hk) hkc⟩

lemma dispatchSelected_any (h : s.Coherent) (ha : s.Alone cpu) (hu : s.Unshared cpu) (next : Result ℕ) :
    s.Dispatched cpu (s.dispatchSelected cpu next 0).2 := by
  unfold dispatchSelected
  split
  · exact .refused
  split
  · exact .refused
  next hc =>
  have hc : cpu < s.cpuCount := by omega
  cases next with
  | error status => exact .refused
  | ok pid =>
  have hd := h.deselect ha
  simp only [bne_self_eq_false, Bool.false_and, Bool.false_eq_true, if_false, ne_eq, not_true_eq_false]
  split
  · exact .demoted hc
  next p hf =>
  obtain ⟨hp, rfl⟩ := hd.shaped.find_iff.mp hf
  split
  · exact .demoted hc
  next tid hpick =>
  obtain ⟨t, ht, rfl, hts⟩ := pickNextThread_ok hpick
  have hrun : t.state = .runnable := by
    refine hts.resolve_right fun ⟨hx, he⟩ => ?_
    split at he
    · exact idle_deselect h hc p hp t ht hx (by simpa using he)
    · exact (hd.shaped.tid p hp t ht).1 he
  exact .started p t hc ⟨hp, ht, hrun, fun k hk hkc => hu.deselect h hc k hk hkc p hp t ht hrun⟩

lemma Dispatched.keeps {s' : Scheduler} (hd : s.Dispatched cpu s') (h : s.Coherent) (hp : p ∈ s.processes)
    (ht : t ∈ p.threads) (hr : t.state = .running) (hn : t.tid ≠ (s.current cpu).2) :
    ∃ q ∈ s'.processes, q.pid = p.pid ∧ t ∈ q.threads := by
  have hdes : ∃ q ∈ (s.deselect cpu).processes, q.pid = p.pid ∧ t ∈ q.threads := by
    rw [deselect_eq h]
    refine ⟨_, mem_modify.mpr ⟨p, hp, rfl⟩, ?_⟩
    split
    · exact ⟨rfl, mem_modifyThread_of_ne ht hn⟩
    · exact ⟨rfl, ht⟩
  cases hd with
  | refused => exact ⟨p, hp, rfl, ht⟩
  | demoted hc | released hc => exact hdes
  | started p₁ t₁ hc ht₁ =>
  obtain ⟨q, hq, hqp, htq⟩ := hdes
  refine ⟨_, mem_modify.mpr ⟨q, hq, rfl⟩, ?_⟩
  split
  · refine ⟨hqp, mem_modifyThread.mpr ⟨t, htq, ?_⟩⟩
    rw [ite_eq_right_iff]
    intro _
    rw [← hr]
  · exact ⟨hqp, htq⟩

lemma scheduleNextOnCpu_dispatched (h : s.Coherent) (ha : s.Alone cpu) (hu : s.Unshared cpu) :
    s.Dispatched cpu (s.scheduleNextOnCpu cpu).2 := by
  unfold scheduleNextOnCpu
  split
  · exact .refused
  split
  · exact .refused
  exact dispatchSelected_any h ha hu _

lemma activate_zero (h : s.Coherent) (hc : cpu < s.cpuCount) :
    (s.activate 0 cpu).2 = (s.deselect cpu).setCurrent cpu (0, 0) := by
  rw [activate, if_neg (by omega), if_pos rfl, deselect_eq h]
  rfl

def wakeAll (p : Process) : Process :=
  { p with
    state := .runnable
    threads := p.threads.map fun t =>
      if t.state = .exited then t
      else { t with registration := t.registration.cancel, waitReason := .none, waitKey := 0, state := .runnable } }

lemma setRunnable_cases (hf : s.find pid = some p) :
    (s.setRunnable pid).2 = s ∨ (∃ t ∈ p.threads, t.state ≠ .exited) ∧ (s.setRunnable pid).2 = s.modify pid wakeAll := by
  unfold setRunnable
  split
  · exact .inl rfl
  rw [hf]
  dsimp only
  split
  · exact .inl rfl
  split
  · exact .inl rfl
  next hl => exact .inr ⟨by simpa [live] using hl, rfl⟩

lemma wakeAll_rework (p : Process) : p.Rework (wakeAll p) := by
  refine ⟨rfl, _, fun t => ?_, rfl⟩
  split
  · exact .refl t
  · exact ⟨rfl, rfl, nofun⟩

lemma mem_wakeAll (hu : u ∈ (wakeAll p).threads) : ∃ t ∈ p.threads, u.tid = t.tid ∧ u.state ≠ .running := by
  obtain ⟨t, ht, rfl⟩ := mem_map.mp hu
  refine ⟨t, ht, ?_⟩
  split
  · next he => exact ⟨rfl, by simp [he]⟩
  · exact ⟨rfl, nofun⟩

lemma setRunnable_created (cpu : ℕ) (h : s.Coherent) (hf : s.find pid = some p) (hs : p.state = .created) :
    (s.setRunnable pid).2.Coherent ∧ (s.setRunnable pid).2.current = s.current ∧
      (s.setRunnable pid).2.cpuCount = s.cpuCount ∧ (s.Alone cpu → (s.setRunnable pid).2.Alone cpu) ∧
      (s.Unshared cpu → (s.setRunnable pid).2.Unshared cpu) := by
  obtain he | ⟨⟨t, ht, hte⟩, he⟩ := setRunnable_cases hf
  · rw [he]
    exact ⟨h, rfl, rfl, id, id⟩
  obtain ⟨hp, rfl⟩ := h.shaped.find_iff.mp hf
  have hone (q) (hq : q ∈ s.processes) (hqp : q.pid = p.pid) : q = p := h.shaped.process q hq p hp hqp
  rw [he]
  refine ⟨h.modify fun q hq hqp => ⟨wakeAll_rework q, ?_⟩, rfl, rfl, fun ha q hq hqe u hu hur => ?_,
    fun hun k hk hkc q hq u hu hur => ?_⟩
  · obtain rfl := hone q hq hqp
    refine Process.Good.idle (fun u hu => ?_) (.inl rfl) (mem_map.mpr ⟨t, ht, if_neg hte⟩) rfl
    obtain ⟨v, -, -, hv⟩ := mem_wakeAll hu
    exact hv
  · obtain ⟨q₀, hq₀, rfl⟩ := mem_modify.mp hq
    split at hu
    · obtain ⟨v, -, -, hv⟩ := mem_wakeAll hu
      exact absurd hur hv
    next hx =>
    rw [if_neg hx] at hqe
    exact ha q₀ hq₀ hqe u hu hur
  obtain ⟨q₀, hq₀, rfl⟩ := mem_modify.mp hq
  split at hu
  · next hx =>
    obtain rfl := hone q₀ hq₀ hx
    obtain ⟨v, hv, hvt, -⟩ := mem_wakeAll hu
    rw [hvt]
    exact h.unseen q₀ hq₀ v hv ((h.good q₀ hq₀).fresh hs v hv) k hk
  · exact hun k hk hkc q₀ hq₀ u hu hur

lemma activate_cases (h : s.Coherent) (ha : s.Alone cpu) (hu : s.Unshared cpu) :
    s.Dispatched cpu (s.activate pid cpu).2 ∨ ∃ p, s.find pid = some p ∧ p.state = .created ∧
      (s.setRunnable pid).2.Dispatched cpu (s.activate pid cpu).2 := by
  by_cases hc : cpu ≥ s.cpuCount
  · rw [activate, if_pos hc]
    exact .inl .refused
  by_cases h0 : pid = 0
  · subst h0
    rw [activate_zero h (by omega)]
    exact .inl (.released (by omega))
  rw [activate, if_neg hc, if_neg h0]
  cases hf : s.find pid with
  | none => exact .inl .refused
  | some p =>
  dsimp only
  split
  · exact .inl .refused
  by_cases hs : p.state = .created
  · obtain ⟨hco, -, -, hal, hun⟩ := setRunnable_created cpu h hf hs
    rw [if_pos hs]
    exact .inr ⟨p, rfl, hs, dispatchSelected_any hco (hal ha) (hun hu) (.ok pid)⟩
  · rw [if_neg hs]
    exact .inl (dispatchSelected_any h ha hu (.ok pid))

lemma activateThread_dispatched (h : s.Coherent) (ha : s.Alone cpu) : s.Dispatched cpu (s.activateThread pid tid cpu).2 := by
  unfold activateThread
  split
  · exact .refused
  split
  · exact .refused
  next hn => exact dispatchSelected_requested h ha fun h0 => hn (.inl h0)

lemma activate_coherent (h : s.Coherent) (ha : s.Alone cpu) (hu : s.Unshared cpu) : (s.activate pid cpu).2.Coherent := by
  obtain hd | ⟨p, hf, hs, hd⟩ := activate_cases h ha hu
  · exact hd.coherent h ha
  · obtain ⟨hco, -, -, hal, -⟩ := setRunnable_created cpu h hf hs
    exact hd.coherent hco (hal ha)

lemma activate_keeps (h : s.Coherent) (ha : s.Alone cpu) (hu : s.Unshared cpu) (hp : p ∈ s.processes) (ht : t ∈ p.threads)
    (hr : t.state = .running) (hn : t.tid ≠ (s.current cpu).2) :
    ∃ q ∈ (s.activate pid cpu).2.processes, q.pid = p.pid ∧ t ∈ q.threads := by
  obtain hd | ⟨p₁, hf, hs, hd⟩ := activate_cases h ha hu
  · exact hd.keeps h hp ht hr hn
  obtain ⟨hco, hcur, -, -, -⟩ := setRunnable_created cpu h hf hs
  obtain ⟨hp₁, rfl⟩ := h.shaped.find_iff.mp hf
  have hpm : p ∈ (s.setRunnable p₁.pid).2.processes := by
    obtain he | ⟨-, he⟩ := setRunnable_cases hf
    · rwa [he]
    rw [he]
    refine mem_modify.mpr ⟨p, hp, if_neg fun hpe => ?_⟩
    obtain rfl := h.shaped.process p hp p₁ hp₁ hpe
    simp [(h.good p hp).fresh hs t ht] at hr
  exact hd.keeps hco hpm ht hr (by rwa [hcur])

lemma blocked_good {f : Thread → Thread} (h : p.Good n c) (hs : p.state = .running)
    (hf : ∀ t, (f t).state = .blocked) :
    (if (p.modifyThread tid f).threads.any fun t => t.state == .runnable || t.state == .running then p.modifyThread tid f
      else { p.modifyThread tid f with state := .blocked }).Good n c := by
  have hrun (u) (hu : u ∈ (p.modifyThread tid f).threads) (hur : u.state = .running) : u ∈ p.threads := by
    obtain ⟨t, ht, rfl⟩ := mem_modifyThread.mp hu
    split at hur
    · simp [hf] at hur
    · next he => rwa [if_neg he]
  split
  · next hany =>
    simp only [any_eq_true, Bool.or_eq_true, beq_iff_eq] at hany
    exact ⟨fun u hu hur => h.running u (hrun u hu hur) hur, fun hx => by simp [modifyThread, hs] at hx,
      fun _ => hany, fun hx => by simp [modifyThread, hs] at hx⟩
  next hany =>
  simp only [any_eq_true, Bool.or_eq_true, beq_iff_eq, not_exists, not_and] at hany
  exact ⟨fun u hu hur => absurd (.inr hur) (hany u hu), nofun, nofun, nofun⟩

lemma registerCurrentWait_coherent (h : s.Coherent) (reason : ThreadWaitReason) (key : ℕ) :
    (s.registerCurrentWait reason key).2.Coherent := by
  unfold registerCurrentWait
  split
  · exact h
  split
  · exact h
  split
  · exact h
  · exact h
  next p t hf hft =>
  split
  · exact h
  split
  · exact h
  next hts =>
  split
  · exact h
  next ticket r hr =>
  obtain ⟨hp, hpe⟩ := h.shaped.find_iff.mp hf
  obtain ⟨q, hq, hqe, ht, htid⟩ := h.shaped.findThread_iff.mp hft
  have hcpu : s.currentOn 0 = s.current 0 := by
    unfold currentOn
    split
    · rfl
    · exact (h.unused 0 (by omega)).symm
  rw [hcpu, ← h.boot, ← hpe] at hqe ⊢
  obtain rfl := h.shaped.process q hq p hp hqe
  rw [modify_modify (by exact fun _ => rfl)]
  refine h.modify fun p hp hpe => ?_
  obtain rfl := h.shaped.process p hp q hq hpe
  constructor
  · dsimp only [Function.comp]
    split
    · exact modifyThread_rework (by exact fun _ => ⟨rfl, rfl, nofun⟩)
    · exact .setState (modifyThread_rework (by exact fun _ => ⟨rfl, rfl, nofun⟩)) _
  · refine blocked_good (h.good p hp) ((h.good p hp).running t ht ?_).1 (by exact fun _ => rfl)
    simpa using hts

lemma completeWait_cases (h : s.Shaped) (ticket : WaitTicket) (completion : WaitCompletion) (source : WakeSource) :
    (s.completeWait ticket completion source).2 = s ∨ ∃ p ∈ s.processes, ∃ t ∈ p.threads, ∃ f : Thread → Thread,
      p.pid = ticket.owner ∧ t.tid = ticket.thread ∧ p.state.over = false ∧ t.state = .blocked ∧
      (∀ u, u.Same (f u) ∧ (f u).state = .runnable) ∧
      (s.completeWait ticket completion source).2 = s.modify p.pid fun p =>
        { p.modifyThread t.tid f with state := if p.state = .blocked then .runnable else p.state } := by
  unfold completeWait
  split
  · next p t hf hft =>
    split
    · exact .inl rfl
    next hn =>
    split
    · exact .inl rfl
    next r hr =>
    obtain ⟨hp, hpe⟩ := h.find_iff.mp hf
    obtain ⟨q, hq, hqe, ht, htid⟩ := h.findThread_iff.mp hft
    obtain rfl := h.process q hq p hp (hqe.trans hpe.symm)
    simp only [not_or, Bool.not_eq_true, ne_eq, not_not] at hn
    refine .inr ⟨q, hq, t, ht, _, hpe, htid, hn.1, hn.2, ?_, by rw [hpe, htid]⟩
    exact fun _ => ⟨⟨rfl, rfl, nofun⟩, rfl⟩
  · exact .inl rfl

lemma woken_good {f : Thread → Thread} (h : p.Good n c)
    (ht : t ∈ p.threads) (hb : t.state = .blocked) (hf : ∀ u, (f u).state = .runnable) :
    Process.Good n c { p.modifyThread t.tid f with state := if p.state = .blocked then .runnable else p.state } := by
  have hrun : f t ∈ (p.modifyThread t.tid f).threads := mem_modifyThread_self ht rfl
  refine ⟨fun u hu hur => ?_, fun _ => ⟨_, hrun, hf t⟩, fun _ => ⟨_, hrun, .inl (hf t)⟩, fun hx => ?_⟩
  · obtain ⟨v, hv, rfl⟩ := mem_modifyThread.mp hu
    split at hur
    · simp [hf] at hur
    next he =>
    obtain ⟨hs, hi⟩ := h.running v hv hur
    rw [if_neg he, hs]
    exact ⟨rfl, hi⟩
  split at hx
  · cases hx
  · have := h.fresh hx t ht
    simp [hb] at this

lemma completeWait_coherent (h : s.Coherent) (ticket : WaitTicket) (completion : WaitCompletion) (source : WakeSource) :
    (s.completeWait ticket completion source).2.Coherent := by
  obtain he | ⟨p, hp, t, ht, f, -, -, -, hb, hf, he⟩ := completeWait_cases h.shaped ticket completion source
  · rwa [he]
  rw [he]
  refine h.modify fun q hq hqe => ⟨.setState (modifyThread_rework fun u => (hf u).1) _, ?_⟩
  obtain rfl := h.shaped.process q hq p hp hqe
  exact woken_good (h.good q hq) ht hb fun u => (hf u).2

lemma completeWait_over (h : s.Shaped) (ticket : WaitTicket) (completion : WaitCompletion) (source : WakeSource)
    (hover : ∀ p ∈ s.processes, p.pid = pid → p.state.over = true) :
    ∀ p ∈ (s.completeWait ticket completion source).2.processes, p.pid = pid → p.state.over = true := by
  obtain he | ⟨p, hp, t, ht, f, -, -, ho, hb, hf, he⟩ := completeWait_cases h ticket completion source
  · rwa [he]
  rw [he]
  intro q hq hqe
  obtain ⟨q₀, hq₀, rfl⟩ := mem_modify.mp hq
  split at hqe
  · next hx =>
    obtain rfl := h.process q₀ hq₀ p hp hx
    have := hover q₀ hq₀ hqe
    simp [ho] at this
  next hx =>
  rw [if_neg hx]
  exact hover q₀ hq₀ hqe

section

variable {P : Scheduler → Prop} (hP : ∀ s ticket completion source, P s → P (s.completeWait ticket completion source).2)

include hP

omit hP in
lemma foldl_induct {f : Scheduler → ℕ × ℕ → Scheduler} (hf : ∀ s id, P s → P (f s id)) (ids : List (ℕ × ℕ)) (h : P s) :
    P (ids.foldl f s) := by
  induction ids generalizing s with
  | nil => exact h
  | cons id ids ih => exact ih (hf s id h)

lemma wakeWaiters_induct (h : P s) (reason : ThreadWaitReason) (key : ℕ) (source : WakeSource) :
    P (s.wakeWaiters reason key source) := by
  refine foldl_induct (fun s id h => ?_) _ h
  unfold wakeWaiter
  split
  · split
    · exact hP _ _ _ _ h
    · exact h
  · exact h

lemma retireConsoleProcess_induct (h : P s) (console : Option ℕ) : P (s.retireConsoleProcess console) := by
  cases console with
  | none => exact h
  | some epoch =>
  refine foldl_induct (fun s id h => ?_) _ h
  unfold cancelConsoleWait
  split
  · split
    · exact hP _ _ _ _ h
    · exact h
  · exact h

end

lemma wakeWaiters_coherent (h : s.Coherent) (reason : ThreadWaitReason) (key : ℕ) (source : WakeSource) :
    (s.wakeWaiters reason key source).Coherent :=
  wakeWaiters_induct (P := Coherent) (fun _ _ _ _ h => completeWait_coherent h _ _ _) h reason key source

lemma retireConsoleProcess_coherent (h : s.Coherent) (console : Option ℕ) : (s.retireConsoleProcess console).Coherent :=
  retireConsoleProcess_induct (P := Coherent) (fun _ _ _ _ h => completeWait_coherent h _ _ _) h console

def Started (s : Scheduler) (pid tid : ℕ) : Prop :=
  ∀ p ∈ s.processes, p.pid = pid → ∀ t ∈ p.threads, t.tid ≠ tid → t.state ≠ .created

def retire (t : Thread) : Thread :=
  { t with registration := t.registration.cancel, waitReason := .none, waitKey := 0, state := .exited }

lemma retire_same (t : Thread) : t.Same (retire t) := ⟨rfl, rfl, nofun⟩

def retired (p : Process) (tid : ℕ) : Process :=
  { p.modifyThread tid retire with
    state := if (p.modifyThread tid retire).threads.any fun t => t.state == .running then .running
      else if (p.modifyThread tid retire).threads.any fun t => t.state == .runnable || t.state == .created then .runnable
      else .blocked }

lemma exitThread_cases (h : s.Shaped) (pid tid cpu : ℕ) (console : Option ℕ) : (s.exitThread pid tid cpu console).2 = s ∨
    cpu < s.cpuCount ∧ ∃ p ∈ s.processes, p.pid = pid ∧ ∃ closed, (s.exitThread pid tid cpu console).2 =
      (if s.current cpu = (pid, tid) then (s.modify pid fun _ => retired p tid).setCurrent cpu (0, 0)
      else s.modify pid fun _ => retired p tid).retireConsoleProcess closed := by
  unfold exitThread
  split
  · exact .inl rfl
  next hc =>
  split
  · next p t hf hft =>
    split
    · exact .inl rfl
    split
    · exact .inl rfl
    split
    · exact .inl rfl
    refine .inr ⟨by omega, p, (h.find_iff.mp hf).1, (h.find_iff.mp hf).2, ?_⟩
    dsimp only
    split
    · exact ⟨console, rfl⟩
    · exact ⟨none, rfl⟩
  · exact .inl rfl

lemma retired_rework (p : Process) (tid : ℕ) : p.Rework (retired p tid) :=
  .setState (modifyThread_rework retire_same) _

lemma mem_retired (hu : u ∈ (retired p tid).threads) (hs : u.state ≠ .exited) : u ∈ p.threads ∧ u.tid ≠ tid := by
  obtain ⟨t, ht, rfl⟩ := mem_modifyThread.mp hu
  split at hs
  · simp [retire] at hs
  next he =>
  rw [if_neg he]
  exact ⟨ht, he⟩

lemma retired_good (h : p.Good n c)
    (hst : ∀ t ∈ p.threads, t.tid ≠ tid → t.state ≠ .created) : (retired p tid).Good n c := by
  by_cases hany : (p.modifyThread tid retire).threads.any fun t => t.state == .running
  · have hs : (retired p tid).state = .running := if_pos hany
    simp only [any_eq_true, beq_iff_eq] at hany
    obtain ⟨u, hu, hur⟩ := hany
    refine ⟨fun v hv hvr => ⟨hs, ?_⟩, fun hx => by simp [hs] at hx, fun _ => ⟨u, hu, .inr hur⟩, fun hx => by simp [hs] at hx⟩
    exact (h.running v (mem_retired hv (by simp [hvr])).1 hvr).2
  have hnr (v) (hv : v ∈ (retired p tid).threads) : v.state ≠ .running := by
    intro hvr
    exact hany (any_eq_true.mpr ⟨v, hv, by simp [hvr]⟩)
  by_cases hready : (p.modifyThread tid retire).threads.any fun t => t.state == .runnable || t.state == .created
  · have hs : (retired p tid).state = .runnable := by simp only [retired, if_neg hany, if_pos hready]
    simp only [any_eq_true, Bool.or_eq_true, beq_iff_eq] at hready
    obtain ⟨u, hu, hur⟩ := hready
    refine .idle hnr (.inl hs) hu (hur.resolve_right fun hc => ?_)
    obtain ⟨hup, hne⟩ := mem_retired hu (by simp [hc])
    exact hst u hup hne hc
  have hs : (retired p tid).state = .blocked := by simp only [retired, if_neg hany, if_neg hready]
  exact ⟨fun v hv hvr => absurd hvr (hnr v hv), fun hx => by simp [hs] at hx, fun hx => by simp [hs] at hx,
    fun hx => by simp [hs] at hx⟩

lemma exitThread_coherent (h : s.Coherent) (hst : s.Started pid tid) (console : Option ℕ) :
    (s.exitThread pid tid cpu console).2.Coherent := by
  obtain he | ⟨hc, p, hp, rfl, closed, he⟩ := exitThread_cases h.shaped pid tid cpu console
  · rwa [he]
  have hone (q) (hq : q ∈ s.processes) (hqp : q.pid = p.pid) : q = p := h.shaped.process q hq p hp hqp
  have hm : (s.modify p.pid fun _ => retired p tid).Coherent := by
    refine h.modify fun q hq hqe => ?_
    obtain rfl := hone q hq hqe
    exact ⟨retired_rework q tid, retired_good (h.good q hq) (hst q hq rfl)⟩
  rw [he]
  refine retireConsoleProcess_coherent ?_ closed
  split
  · next hcur =>
    refine hm.clear hc fun q hq u hu hur hx => ?_
    have hx := hx.trans (congrArg Prod.snd hcur)
    obtain ⟨q, hqs, rfl⟩ := mem_modify.mp hq
    split at hu
    · exact (mem_retired hu (by simp [hur])).2 hx
    next hne =>
    have hrec := h.record hqs hu hur hc (by rw [hcur, hx])
    simp [hcur, hx, Ne.symm hne] at hrec
  · exact hm

lemma Coherent.relink (h : s.Coherent) (hf : ∀ p, (f p).pid = p.pid ∧ (f p).state = p.state ∧ (f p).threads = p.threads) :
    (s.modify pid f).Coherent := by
  refine h.modify fun p hp _ => ⟨⟨(hf p).1, id, .refl, by simp [(hf p).2.2]⟩, ?_⟩
  have hg := h.good p hp
  obtain ⟨h1, h2, h3⟩ := hf p
  exact ⟨by rw [h1, h2, h3]; exact hg.running, by rw [h2, h3]; exact hg.ready, by rw [h2, h3]; exact hg.busy,
    by rw [h2, h3]; exact hg.fresh⟩

lemma adoptChild_coherent (h : s.Coherent) (init : Option ℕ) (child : ℕ) : (adoptChild init s child).Coherent := by
  unfold adoptChild
  dsimp only
  split
  · exact (h.relink (by exact fun _ => ⟨rfl, rfl, rfl⟩)).relink (by exact fun _ => ⟨rfl, rfl, rfl⟩)
  · exact h.relink (by exact fun _ => ⟨rfl, rfl, rfl⟩)

lemma adoptChildren_coherent (h : s.Coherent) (init : Option ℕ) (children : List ℕ) :
    (children.foldl (adoptChild init) s).Coherent := by
  induction children generalizing s with
  | nil => exact h
  | cons child children ih => exact ih (adoptChild_coherent h init child)

lemma reparentChildrenOnExit_coherent (h : s.Coherent) (pid : ℕ) : (s.reparentChildrenOnExit pid).2.Coherent := by
  unfold reparentChildrenOnExit
  split
  · exact h
  dsimp only
  split
  · exact h
  split
  · exact h
  exact (adoptChildren_coherent h _ _).relink fun _ => ⟨rfl, rfl, rfl⟩

lemma Coherent.clearCurrent (h : s.Coherent) (ho : ∀ p ∈ s.processes, p.pid = pid → p.state.over = true) :
    (s.clearCurrent pid).Coherent := by
  refine h.recorded ?_ (fun i hi => ?_) (fun p hp t ht hs _ i hci => if_neg ?_) fun p hp t ht _ i he => if_neg ?_
  · rw [h.boot]
    split <;> rfl
  · simp [h.unused i hi]
  · rw [hci]
    exact fun he => by simpa [hs, ProcessState.over] using ho p hp he
  · intro hx
    rw [if_pos hx] at he
    exact (h.shaped.tid p hp t ht).1 he.symm

lemma exitProcess_coherent (h : s.Coherent) (pid : ℕ) (console : Option ℕ) (released : List (ThreadWaitReason × ℕ)) :
    (s.exitProcess pid console released).2.Coherent := by
  unfold exitProcess
  split
  · exact h
  split
  · exact h
  split
  · exact h
  split
  · exact h
  have hr := reparentChildrenOnExit_coherent h pid
  split
  · next he => rwa [he] at hr
  next s₁ he =>
  rw [he] at hr
  have hr := retireConsoleProcess_coherent hr console
  refine wakeWaiters_coherent (wakeWaiters_coherent ?_ _ _ _) _ _ _
  generalize hs₂ : ((s₁.retireConsoleProcess console).modify pid _) = s₂
  have h₂ : s₂.Coherent ∧ ∀ p ∈ s₂.processes, p.pid = pid → p.state.over = true := by
    subst hs₂
    refine ⟨hr.modify fun p _ _ => ⟨⟨rfl, retire, retire_same, rfl⟩, fun u hu hur => ?_, nofun, nofun, nofun⟩, fun q hq hqe => ?_⟩
    · obtain ⟨t, -, rfl⟩ := mem_map.mp hu
      cases hur
    obtain ⟨p, -, rfl⟩ := mem_modify.mp hq
    split at hqe
    · next hpe => rw [if_pos hpe]; rfl
    · next hpe => exact absurd hqe hpe
  suffices hfold : ∀ s : Scheduler, (s.Coherent ∧ ∀ p ∈ s.processes, p.pid = pid → p.state.over = true) →
      (released.foldl (fun s w => s.wakeWaiters w.1 w.2 .thread) s).Coherent ∧
      ∀ p ∈ (released.foldl (fun s w => s.wakeWaiters w.1 w.2 .thread) s).processes, p.pid = pid → p.state.over = true from
    (hfold s₂ h₂).1.clearCurrent (hfold s₂ h₂).2
  induction released with
  | nil => exact fun s hs => hs
  | cons w ws ih =>
  intro s hs
  refine ih _ (wakeWaiters_induct (P := fun s => s.Coherent ∧ ∀ p ∈ s.processes, p.pid = pid → p.state.over = true)
    (fun s ticket completion source hs => ?_) hs _ _ _)
  exact ⟨completeWait_coherent hs.1 _ _ _, completeWait_over hs.1.shaped _ _ _ hs.2⟩

end Scheduler

end ObfuscationKernel.Sched
