import ObfuscationKernel.Sched.Coherence

/-! When dispatching keeps every running thread on exactly one CPU. -/

namespace ObfuscationKernel.Sched

open ObfuscationKernel.Core Scheduler

inductive SchedOp
  | scheduleNext (cpu : ℕ)
  | activate (pid cpu : ℕ)
  | activateThread (pid tid cpu : ℕ)
  | registerWait (reason : ThreadWaitReason) (key : ℕ)
  | completeWait (ticket : WaitTicket) (completion : WaitCompletion) (source : WakeSource)
  | wakeWaiters (reason : ThreadWaitReason) (key : ℕ) (source : WakeSource)
  | exitThread (pid tid cpu : ℕ) (console : Option ℕ)
  | exitProcess (pid : ℕ) (console : Option ℕ) (released : List (ThreadWaitReason × ℕ))

namespace SchedOp

def run (s : Scheduler) : SchedOp → Scheduler
  | scheduleNext cpu => (s.scheduleNextOnCpu cpu).2
  | activate pid cpu => (s.activate pid cpu).2
  | activateThread pid tid cpu => (s.activateThread pid tid cpu).2
  | registerWait reason key => (s.registerCurrentWait reason key).2
  | completeWait ticket completion source => (s.completeWait ticket completion source).2
  | wakeWaiters reason key source => s.wakeWaiters reason key source
  | exitThread pid tid cpu console => (s.exitThread pid tid cpu console).2
  | exitProcess pid console released => (s.exitProcess pid console released).2

def dispatchCpu : SchedOp → Option ℕ
  | scheduleNext cpu => some cpu
  | activate _ cpu => some cpu
  | activateThread _ _ cpu => some cpu
  | _ => none

/-- The call changes nothing or the CPUs are apart: a dispatch on `cpu` finds no runnable thread on record for another CPU and no
other running thread in the process it may demote, and a thread exits from a process whose other threads were started. -/
def Apart (s : Scheduler) (op : SchedOp) : Prop :=
  op.run s = s ∨ match op with
    | scheduleNext cpu => s.Alone cpu ∧ s.Unshared cpu
    | activate _ cpu => s.Alone cpu ∧ s.Unshared cpu
    | activateThread _ _ cpu => s.Alone cpu
    | exitThread pid tid _ _ => s.Started pid tid
    | _ => True

lemma run_coherent {s : Scheduler} (h : s.Coherent) (op : SchedOp) (ha : op.Apart s) : (op.run s).Coherent := by
  rcases ha with he | ha
  · rwa [he]
  cases op with
  | scheduleNext cpu => exact (scheduleNextOnCpu_dispatched h ha.1 ha.2).coherent h ha.1
  | activate pid cpu => exact activate_coherent h ha.1 ha.2
  | activateThread pid tid cpu => exact (activateThread_dispatched h ha).coherent h ha
  | registerWait reason key => exact registerCurrentWait_coherent h reason key
  | completeWait ticket completion source => exact completeWait_coherent h ticket completion source
  | wakeWaiters reason key source => exact wakeWaiters_coherent h reason key source
  | exitThread pid tid cpu console => exact exitThread_coherent h ha console
  | exitProcess pid console released => exact exitProcess_coherent h pid console released

lemma run_keeps {s : Scheduler} (h : s.Coherent) {op : SchedOp} (ha : op.Apart s) {cpu : ℕ} (hc : op.dispatchCpu = some cpu)
    {p : Process} (hp : p ∈ s.processes) {t : Thread} (ht : t ∈ p.threads) (hr : t.state = .running)
    (hn : t.tid ≠ (s.current cpu).2) : ∃ q ∈ (op.run s).processes, q.pid = p.pid ∧ t ∈ q.threads := by
  rcases ha with he | ha
  · exact ⟨p, by rwa [he], rfl, ht⟩
  cases op with
  | scheduleNext c =>
    cases hc
    exact (scheduleNextOnCpu_dispatched h ha.1 ha.2).keeps h hp ht hr hn
  | activate pid c =>
    cases hc
    exact activate_keeps h ha.1 ha.2 hp ht hr hn
  | activateThread pid tid c =>
    cases hc
    exact (activateThread_dispatched h ha).keeps h hp ht hr hn
  | _ => cases hc

end SchedOp

namespace Scheduler

structure Booted (s : Scheduler) : Prop where
  shaped : s.Shaped
  idle : s.current = (fun _ => (0, 0)) ∧ s.currentPid = 0
  states : ∀ p ∈ s.processes, p.state = .created ∧ (∀ t ∈ p.threads, t.state = .created) ∨
    p.state = .runnable ∧ (∀ t ∈ p.threads, t.state = .created ∨ t.state = .runnable) ∧ ∃ t ∈ p.threads, t.state = .runnable

inductive Reached (s₀ : Scheduler) : Scheduler → Prop
  | boot : Reached s₀ s₀
  | step {s : Scheduler} (op : SchedOp) (h : Reached s₀ s) (ha : op.Apart s) : Reached s₀ (op.run s)

variable {s₀ s : Scheduler}

lemma Booted.coherent (h : s.Booted) : s.Coherent := by
  obtain ⟨hcur, hpid⟩ := h.idle
  refine ⟨h.shaped, fun p hp => ?_, by rw [hcur, hpid], fun i _ => by rw [hcur], fun p hp t ht _ k _ => ?_⟩
  · obtain ⟨hs, ht⟩ | ⟨hs, ht, u, hu, hur⟩ := h.states p hp
    · exact ⟨fun t h hr => by simp [ht t h] at hr, by simp [hs], by simp [hs], fun _ => ht⟩
    · exact .idle (fun t h hr => by simpa [hr] using ht t h) (.inl hs) hu hur
  · rw [hcur]
    exact (h.shaped.tid p hp t ht).1.symm

lemma Reached.coherent (h : Reached s₀ s) (h₀ : s₀.Booted) : s.Coherent := by
  induction h with
  | boot => exact h₀.coherent
  | step op _ ha ih => exact op.run_coherent ih ha

def bench : Scheduler where
  processes := [
    { pid := 1, state := .runnable, threads := [{ tid := 1, owner := 1, state := .runnable },
      { tid := 2, owner := 1, state := .runnable }] },
    { pid := 2, state := .runnable, threads := [{ tid := 3, owner := 2, state := .runnable }] }]
  cpuCount := 2

def states (s : Scheduler) : List (ℕ × ProcessState) := s.processes.flatMap fun p => p.threads.map fun t => (t.tid, t.state)

def runs (s : Scheduler) (ops : List SchedOp) : Scheduler := ops.foldl SchedOp.run s

lemma bench_booted : bench.Booted := ⟨⟨by decide, by decide, by decide, by decide⟩, ⟨rfl, rfl⟩, by decide⟩

/-- Both CPUs dispatch: thread 1 runs on the first and thread 3 on the second. -/
lemma bench_reached : Reached bench (bench.runs [.scheduleNext 0, .activate 2 1]) :=
  .step (.activate 2 1) (.step (.scheduleNext 0) .boot (.inr ⟨by unfold Alone; decide, by unfold Unshared; decide⟩))
    (.inr ⟨by unfold Alone; decide, by unfold Unshared; decide⟩)

theorem states_agree (h₀ : s₀.Booted) (h : Reached s₀ s) : s.currentPid = (s.current 0).1 ∧ ∀ p ∈ s.processes,
    (p.state = .runnable → ∃ t ∈ p.threads, t.state = .runnable) ∧
    (p.state = .running → ∃ t ∈ p.threads, t.state = .runnable ∨ t.state = .running) ∧
    ∀ t ∈ p.threads, (t.state = .running → p.state = .running ∧ ∃ cpu < s.cpuCount, s.current cpu = (p.pid, t.tid)) ∧
      (t.state = .created → ∀ cpu < s.cpuCount, (s.current cpu).2 ≠ t.tid) := by
  have hco := h.coherent h₀
  refine ⟨hco.boot, fun p hp => ?_⟩
  have hg := hco.good p hp
  refine ⟨hg.ready, hg.busy, fun t ht => ⟨fun hr => ?_, hco.unseen p hp t ht⟩⟩
  obtain ⟨hrun, i, hi, hci, -⟩ := hg.running t ht hr
  exact ⟨hrun, i, hi, hci⟩

/-- The thread of the first CPU blocks: its process stays runnable by the other one, and the second CPU goes on. -/
theorem states_agree_bench : let s := bench.runs [.scheduleNext 0, .activate 2 1, .registerWait .poll 7]
    s.states = [(1, .blocked), (2, .runnable), (3, .running)] ∧ s.currentPid = (s.current 0).1 ∧
      ∀ p ∈ s.processes, (p.state = .running → ∃ t ∈ p.threads, t.state = .runnable ∨ t.state = .running) ∧
        ∀ t ∈ p.threads, t.state = .running → p.state = .running ∧ ∃ cpu < s.cpuCount, s.current cpu = (p.pid, t.tid) := by
  have h := states_agree bench_booted (.step (.registerWait .poll 7) bench_reached (.inr trivial))
  exact ⟨by decide, h.1, fun p hp => ⟨(h.2 p hp).2.1, fun t ht => ((h.2 p hp).2.2 t ht).1⟩⟩

end Scheduler

end ObfuscationKernel.Sched
