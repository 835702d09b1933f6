import ObfuscationKernel.Library.Slots

/-! The pending signals of a task: tickets, coalescing, the order of delivery and the discards. -/

namespace ObfuscationKernel.Sched.Signals

open Library List Function

structure Limits where
  maximumSignal : ℕ
  realtimeCapacity : ℕ
  maximumSequence : ℕ
  signals : maximumSignal = 64 ∨ maximumSignal = 128
  capacity_pos : 0 < realtimeCapacity
  sequence_pos : 0 < maximumSequence

def timerCode (maximumSignal : ℕ) : ℤ := if maximumSignal = 128 then -3 else -2

structure PendingSignalInfo where
  signal : ℕ
  code : ℤ
  senderPid : ℕ := 0
  senderUid : ℕ := 0
  childStatus : ℤ := 0
  timer : ℤ := 0
  overrun : ℤ := 0
  value : ℕ := 0
  deriving DecidableEq

def childSignal (maximumSignal : ℕ) : ℕ := if maximumSignal = 128 then 18 else 17

def PendingSignalInfo.valid (info : PendingSignalInfo) (maximumSignal : ℕ) : Bool :=
  if (maximumSignal ≠ 64 ∧ maximumSignal ≠ 128) ∨ info.signal = 0 ∨ info.signal > maximumSignal then false
  else if info.code = timerCode maximumSignal then
    info.senderPid == 0 && info.senderUid == 0 && info.childStatus == 0 && decide (info.timer ≥ 0) && decide (info.overrun ≥ 0)
  else if info.timer ≠ 0 ∨ info.overrun ≠ 0 ∨ info.value ≠ 0 then false
  else if info.code = 0 ∨ info.code = -6 then info.childStatus == 0
  else if info.code = 128 then info.senderPid == 0 && info.senderUid == 0 && info.childStatus == 0
  else if info.signal ≠ childSignal maximumSignal ∨ info.senderPid = 0 ∨ info.senderPid > 0x7fffffff then false
  else info.code == 1 && decide (0 ≤ info.childStatus ∧ info.childStatus ≤ 255) ||
    info.code == 2 && decide (0 < info.childStatus ∧ info.childStatus ≤ maximumSignal)

structure ChildExitStatus where
  code : ℤ
  status : ℕ

def ChildExitStatus.valid (s : ChildExitStatus) (maximumSignal : ℕ) : Bool :=
  (maximumSignal == 64 || maximumSignal == 128) &&
    (s.code == 1 && decide (s.status ≤ 255) || s.code == 2 && decide (s.status ≠ 0 ∧ s.status ≤ maximumSignal))

structure Identity where
  process : ℕ := 0
  thread : ℕ := 0
  generation : ℕ := 0
  deriving DecidableEq

structure Entry where
  sequence : ℕ
  info : PendingSignalInfo
  deriving DecidableEq

/-- A ticket; `queue` is the identity of the queue it was peeked from. -/
structure Delivery extends Entry where
  owner : Identity
  queue : ℕ

inductive Enqueue
  | queued | coalesced | full | invalid
  deriving DecidableEq

/-- `normal` is the mask of the signals below 32 together with their records. -/
structure PendingSignals where
  queue : ℕ
  owner : Identity := {}
  nextSequence : ℕ := 0
  normal : ℕ → Option Entry := fun _ => none
  realtime : List Entry := []

def synchronous (maximumSignal signal : ℕ) : Bool :=
  signal ∈ [4, 5, 8, 11, if maximumSignal = 128 then 10 else 7, if maximumSignal = 128 then 12 else 31]

namespace PendingSignals

variable (l : Limits) (s : PendingSignals)

def clear (owner : Identity) : PendingSignals := { s with owner := owner, normal := fun _ => none, realtime := [] }

def reset (identity : Identity) : Bool × PendingSignals :=
  if identity.process = 0 ∨ identity.thread = 0 ∨ identity.generation = 0 then (false, s) else (true, s.clear identity)

def retire : PendingSignals := s.clear {}

def setNormal (signal : ℕ) (e : Option Entry) : PendingSignals := { s with normal := Function.update s.normal signal e }

def enqueueChecked (info : PendingSignalInfo) : Enqueue × PendingSignals :=
  if s.owner.process = 0 ∨ info.signal = 0 ∨ info.signal > l.maximumSignal then (.invalid, s)
  else if info.signal < 32 ∧ (s.normal info.signal).isSome then (.coalesced, s)
  else if (info.signal ≥ 32 ∧ s.realtime.length = l.realtimeCapacity) ∨ s.nextSequence = l.maximumSequence then (.full, s)
  else
    let e : Entry := ⟨s.nextSequence + 1, info⟩
    let s := { s with nextSequence := s.nextSequence + 1 }
    (.queued, if info.signal < 32 then s.setNormal info.signal (some e) else { s with realtime := s.realtime ++ [e] })

def enqueue (info : PendingSignalInfo) : Enqueue × PendingSignals :=
  if (info.code ≠ 0 ∧ info.code ≠ -6) ∨ !info.valid l.maximumSignal then (.invalid, s) else s.enqueueChecked l info

def enqueueKernel (signal : ℕ) : Enqueue × PendingSignals := s.enqueueChecked l { signal := signal, code := 128 }

def enqueueValid (info : PendingSignalInfo) : Enqueue × PendingSignals :=
  if info.valid l.maximumSignal then s.enqueueChecked l info else (.invalid, s)

def enqueueTimer (signal : ℕ) (timer overrun : ℤ) (value : ℕ) : Enqueue × PendingSignals :=
  s.enqueueValid l
    { signal := signal, code := timerCode l.maximumSignal, timer := timer, overrun := overrun, value := value }

def enqueueChildExit (status : ChildExitStatus) (childPid childUid : ℕ) : Enqueue × PendingSignals :=
  if !status.valid l.maximumSignal then (.invalid, s)
  else s.enqueueValid l ⟨childSignal l.maximumSignal, status.code, childPid, childUid, status.status, 0, 0, 0⟩

def ticket (e : Entry) : Delivery := { e with owner := s.owner, queue := s.queue }

def eligible (blocked : ℕ → Bool) (signal : ℕ) : Bool := (s.normal signal).isSome && !blocked signal

def nextNormal (blocked : ℕ → Bool) : Option ℕ :=
  let urgent := (List.range' 1 31).any fun n => s.eligible blocked n && synchronous l.maximumSignal n
  (List.range' 1 31).find? fun n => s.eligible blocked n && (!urgent || synchronous l.maximumSignal n)

def peek (blocked : ℕ → Bool) : Option Delivery :=
  match s.nextNormal l blocked with
  | some n => (s.normal n).map s.ticket
  | none => (Slots.least (fun e => !blocked e.info.signal) (·.info.signal) s.realtime).map s.ticket

def consume (t : Delivery) : Bool × PendingSignals :=
  if t.queue ≠ s.queue ∨ t.owner ≠ s.owner ∨ t.sequence = 0 ∨ t.info.signal = 0 ∨ t.info.signal > l.maximumSignal then (false, s)
  else if t.info.signal < 32 then
    if s.normal t.info.signal = some t.toEntry then (true, s.setNormal t.info.signal none) else (false, s)
  else if t.toEntry ∈ s.realtime then (true, { s with realtime := s.realtime.erase t.toEntry }) else (false, s)

def isTimer (signal : ℕ) (timer : ℤ) (e : Entry) : Bool :=
  e.info.signal == signal && e.info.code == timerCode l.maximumSignal && e.info.timer == timer

def findTimer (signal : ℕ) (timer : ℤ) : Option Entry :=
  if signal = 0 ∨ signal > l.maximumSignal then none
  else if signal < 32 then (s.normal signal).filter fun e => e.info.code == timerCode l.maximumSignal && e.info.timer == timer
  else s.realtime.find? (isTimer l signal timer)

def refreshFirst (p : Entry → Bool) (overrun : ℤ) : List Entry → List Entry
  | [] => []
  | e :: es => if p e then { e with info.overrun := overrun } :: es else e :: refreshFirst p overrun es

def refreshTimer (signal : ℕ) (timer overrun : ℤ) : Bool × PendingSignals :=
  match s.findTimer l signal timer with
  | none => (false, s)
  | some e =>
    if overrun < 0 then (false, s)
    else (true, if signal < 32 then s.setNormal signal (some { e with info.overrun := overrun })
      else { s with realtime := refreshFirst (isTimer l signal timer) overrun s.realtime })

def discardTimer (signal : ℕ) (timer : ℤ) : PendingSignals :=
  if (s.findTimer l signal timer).isNone then s
  else if signal < 32 then s.setNormal signal none
  else { s with realtime := s.realtime.eraseP (isTimer l signal timer) }

def discardTimers : PendingSignals :=
  { s with
    normal := fun n => (s.normal n).filter fun e => e.info.code != timerCode l.maximumSignal
    realtime := s.realtime.filter fun e => e.info.code != timerCode l.maximumSignal }

def discard (signal : ℕ) : PendingSignals :=
  if signal = 0 ∨ signal > l.maximumSignal then s
  else if signal < 32 then s.setNormal signal none
  else { s with realtime := s.realtime.filter (·.info.signal ≠ signal) }

end PendingSignals

inductive Op
  | reset (identity : Identity)
  | retire
  | enqueue (info : PendingSignalInfo)
  | enqueueKernel (signal : ℕ)
  | enqueueTimer (signal : ℕ) (timer overrun : ℤ) (value : ℕ)
  | enqueueChildExit (status : ChildExitStatus) (childPid childUid : ℕ)
  | consume (t : Delivery)
  | refreshTimer (signal : ℕ) (timer overrun : ℤ)
  | discardTimer (signal : ℕ) (timer : ℤ)
  | discardTimers
  | discard (signal : ℕ)

def Op.step (l : Limits) (s : PendingSignals) : Op → PendingSignals
  | reset identity => (s.reset identity).2
  | retire => s.retire
  | enqueue info => (s.enqueue l info).2
  | enqueueKernel signal => (s.enqueueKernel l signal).2
  | enqueueTimer signal timer overrun value => (s.enqueueTimer l signal timer overrun value).2
  | enqueueChildExit status childPid childUid => (s.enqueueChildExit l status childPid childUid).2
  | consume t => (s.consume l t).2
  | refreshTimer signal timer overrun => (s.refreshTimer l signal timer overrun).2
  | discardTimer signal timer => s.discardTimer l signal timer
  | discardTimers => s.discardTimers l
  | discard signal => s.discard l signal

def run (l : Limits) (ops : List Op) (s : PendingSignals) : PendingSignals := ops.foldl (Op.step l) s

variable {l : Limits} {s s' : PendingSignals} {q n : ℕ} {timer : ℤ}

def Entry.key (e : Entry) : ℕ × ℕ := (e.sequence, e.info.signal)

namespace PendingSignals

def keys (s : PendingSignals) : List (ℕ × ℕ) := s.realtime.map Entry.key

def Pending (s : PendingSignals) (e : Entry) : Prop := s.normal e.info.signal = some e ∨ e ∈ s.realtime

def Holds (s : PendingSignals) (q : ℕ) : Prop := (∃ n e, s.normal n = some e ∧ e.sequence = q) ∨ ∃ k ∈ s.keys, k.1 = q

structure Inv (l : Limits) (s : PendingSignals) : Prop where
  normal : ∀ n e, s.normal n = some e → e.info.signal = n ∧ 0 < n ∧ n < 32
  realtime : ∀ k ∈ s.keys, 32 ≤ k.2 ∧ k.2 ≤ l.maximumSignal
  order : s.keys.Pairwise (·.1 < ·.1)
  bound : ∀ q, s.Holds q → 0 < q ∧ q ≤ s.nextSequence
  slots : ∀ n m e e', s.normal n = some e → s.normal m = some e' → e.sequence = e'.sequence → n = m
  apart : ∀ n e, s.normal n = some e → ∀ k ∈ s.keys, e.sequence ≠ k.1
  capped : s.nextSequence ≤ l.maximumSequence

structure Shrinks (s s' : PendingSignals) : Prop where
  next : s'.nextSequence = s.nextSequence
  normal : ∀ n e', s'.normal n = some e' → ∃ e, s.normal n = some e ∧ e'.sequence = e.sequence ∧ e'.info.signal = e.info.signal
  realtime : s'.keys.Sublist s.keys

lemma Shrinks.refl (s : PendingSignals) : s.Shrinks s := ⟨rfl, fun _ e h => ⟨e, h, rfl, rfl⟩, .refl _⟩

lemma Shrinks.holds (h : s.Shrinks s') (hq : s'.Holds q) : s.Holds q := by
  rcases hq with ⟨n, e', he', rfl⟩ | ⟨k, hk, rfl⟩
  · obtain ⟨e, he, hseq, -⟩ := h.normal n e' he'
    exact .inl ⟨n, e, he, hseq.symm⟩
  · exact .inr ⟨k, h.realtime.subset hk, rfl⟩

lemma Inv.shrinks (hi : Inv l s) (h : s.Shrinks s') : Inv l s' := by
  refine ⟨fun n e' he' => ?_, fun k hk => hi.realtime k (h.realtime.subset hk), hi.order.sublist h.realtime,
    fun q hq => h.next ▸ hi.bound q (h.holds hq), fun n m e e' he he' hseq => ?_, fun n e' he' k hk => ?_, h.next ▸ hi.capped⟩
  · obtain ⟨e, he, -, hsig⟩ := h.normal n e' he'
    exact hsig ▸ hi.normal n e he
  · obtain ⟨d, hd, hd₁, -⟩ := h.normal n e he
    obtain ⟨d', hd', hd₁', -⟩ := h.normal m e' he'
    exact hi.slots n m d d' hd hd' (hd₁ ▸ hd₁' ▸ hseq)
  · obtain ⟨e, he, hseq, -⟩ := h.normal n e' he'
    exact hseq ▸ hi.apart n e he k (h.realtime.subset hk)

lemma shrinks_setNormal {e : Option Entry} (h : ∀ e' ∈ e, ∃ d, s.normal n = some d ∧ e'.sequence = d.sequence ∧
    e'.info.signal = d.info.signal) :
    s.Shrinks (s.setNormal n e) := by
  refine ⟨rfl, fun m e' he' => ?_, .refl _⟩
  simp only [setNormal, update_apply] at he'
  split_ifs at he' with hm
  · exact hm ▸ h e' he'
  · exact ⟨e', he', rfl, rfl⟩

lemma shrinks_realtime {es : List Entry} (h : (es.map Entry.key).Sublist s.keys) : s.Shrinks { s with realtime := es } :=
  ⟨rfl, fun _ e he => ⟨e, he, rfl, rfl⟩, h⟩

lemma shrinks_clear (owner : Identity) : s.Shrinks (s.clear owner) := ⟨rfl, nofun, nil_sublist _⟩

lemma keys_refreshFirst (p : Entry → Bool) (overrun : ℤ) (es : List Entry) :
    (refreshFirst p overrun es).map Entry.key = es.map Entry.key := by
  induction es with
  | nil => rfl
  | cons e es ih =>
  rw [refreshFirst]
  split_ifs
  · rfl
  · rw [map_cons, map_cons, ih]

lemma shrinks_consume (t : Delivery) : s.Shrinks (s.consume l t).2 := by
  unfold consume
  split_ifs
  · exact .refl s
  · exact shrinks_setNormal nofun
  · exact .refl s
  · exact shrinks_realtime (List.Sublist.map _ erase_sublist)
  · exact .refl s

lemma shrinks_refreshTimer (overrun : ℤ) : s.Shrinks (s.refreshTimer l n timer overrun).2 := by
  unfold refreshTimer
  cases hf : s.findTimer l n timer with
  | none => exact .refl s
  | some e =>
  split_ifs with ho hn
  · exact .refl s
  · refine shrinks_setNormal fun e' he' => ⟨e, ?_, Option.some.inj he' ▸ ⟨rfl, rfl⟩⟩
    unfold findTimer at hf
    split_ifs at hf
    exact (Option.filter_eq_some_iff.mp hf).1
  · exact shrinks_realtime ((keys_refreshFirst _ _ s.realtime) ▸ .refl _)

lemma shrinks_discardTimer : s.Shrinks (s.discardTimer l n timer) := by
  unfold discardTimer
  split_ifs
  · exact .refl s
  · exact shrinks_setNormal nofun
  · exact shrinks_realtime (List.Sublist.map _ eraseP_sublist)

lemma shrinks_discardTimers : s.Shrinks (s.discardTimers l) :=
  ⟨rfl, fun _ e he => ⟨e, (Option.filter_eq_some_iff.mp he).1, rfl, rfl⟩, filter_sublist.map _⟩

lemma shrinks_discard : s.Shrinks (s.discard l n) := by
  unfold discard
  split_ifs
  · exact .refl s
  · exact shrinks_setNormal nofun
  · exact shrinks_realtime (filter_sublist.map _)

inductive Enqueued (l : Limits) (s : PendingSignals) (info : PendingSignalInfo) : Enqueue × PendingSignals → Prop
  | refused {r : Enqueue} (h : r ≠ .queued) : Enqueued l s info (r, s)
  | normal (hn : 0 < info.signal ∧ info.signal < 32) (hs : s.normal info.signal = none)
      (hq : s.nextSequence ≠ l.maximumSequence) : Enqueued l s info (.queued,
        { s with nextSequence := s.nextSequence + 1 }.setNormal info.signal (some ⟨s.nextSequence + 1, info⟩))
  | realtime (hn : 32 ≤ info.signal ∧ info.signal ≤ l.maximumSignal) (hq : s.nextSequence ≠ l.maximumSequence) :
      Enqueued l s info (.queued,
        { s with nextSequence := s.nextSequence + 1, realtime := s.realtime ++ [⟨s.nextSequence + 1, info⟩] })

lemma enqueueChecked_spec (info : PendingSignalInfo) : Enqueued l s info (s.enqueueChecked l info) := by
  unfold enqueueChecked
  split_ifs with hv hc hf hn
  iterate 3 exact .refused nofun
  · exact .normal (by omega) (by simpa [hn] using hc) (by omega)
  · exact .realtime (by omega) (by omega)

variable {info : PendingSignalInfo} {r : Enqueue × PendingSignals} {e : Entry} {blocked : ℕ → Bool}

lemma Enqueued.holds (h : Enqueued l s info r) (hq : r.2.Holds q) : s.Holds q ∨ q = s.nextSequence + 1 := by
  cases h with
  | refused => exact .inl hq
  | normal hn hs =>
    rcases hq with ⟨m, e, he, rfl⟩ | hk
    · simp only [setNormal, update_apply] at he
      split_ifs at he with hm
      · exact .inr (Option.some.inj he ▸ rfl)
      · exact .inl (.inl ⟨m, e, he, rfl⟩)
    · exact .inl (.inr hk)
  | realtime hn =>
  rcases hq with hq | ⟨k, hk, rfl⟩
  · exact .inl (.inl hq)
  simp only [keys, map_append, mem_append, map_singleton, mem_singleton] at hk
  rcases hk with hk | rfl
  · exact .inl (.inr ⟨k, hk, rfl⟩)
  · exact .inr rfl

lemma Inv.enqueued (hi : Inv l s) (h : Enqueued l s info r) : Inv l r.2 := by
  have hle : ∀ n e, s.normal n = some e → e.sequence ≤ s.nextSequence := fun n e he => (hi.bound _ (.inl ⟨n, e, he, rfl⟩)).2
  have hkle : ∀ k ∈ s.keys, k.1 ≤ s.nextSequence := fun k hk => (hi.bound _ (.inr ⟨k, hk, rfl⟩)).2
  have hbound : ∀ q, r.2.Holds q → 0 < q ∧ q ≤ s.nextSequence + 1 := by
    intro q hq
    rcases h.holds hq with hq | rfl
    · exact ⟨(hi.bound q hq).1, (hi.bound q hq).2.trans (Nat.le_succ _)⟩
    · exact ⟨Nat.succ_pos _, le_rfl⟩
  cases h with
  | refused => exact hi
  | normal hn hs hq =>
    have hnew : ∀ m e, (update s.normal info.signal (some ⟨s.nextSequence + 1, info⟩)) m = some e →
        m = info.signal ∧ e = ⟨s.nextSequence + 1, info⟩ ∨ s.normal m = some e := by
      intro m e he
      rw [update_apply] at he
      split_ifs at he with hm
      · exact .inl ⟨hm, (Option.some.inj he).symm⟩
      · exact .inr he
    refine ⟨fun m e he => ?_, hi.realtime, hi.order, hbound, fun m m' e e' he he' hseq => ?_, fun m e he k hk hseq => ?_,
      Nat.lt_of_le_of_ne hi.capped hq⟩
    · rcases hnew m e he with ⟨rfl, rfl⟩ | he
      · exact ⟨rfl, hn⟩
      · exact hi.normal m e he
    · rcases hnew m e he with ⟨rfl, rfl⟩ | he <;> rcases hnew m' e' he' with ⟨rfl, rfl⟩ | he'
      · rfl
      · exact absurd (hle _ _ he') (by simp [← hseq])
      · exact absurd (hle _ _ he) (by simp [hseq])
      · exact hi.slots m m' e e' he he' hseq
    rcases hnew m e he with ⟨rfl, rfl⟩ | he
    · exact absurd (hkle k hk) (by simp [← hseq])
    · exact hi.apart m e he k hk hseq
  | realtime hn hq =>
  have hnew : ∀ k ∈ (s.realtime ++ [(⟨s.nextSequence + 1, info⟩ : Entry)]).map Entry.key,
      k ∈ s.keys ∨ k = (s.nextSequence + 1, info.signal) := by
    intro k hk
    rw [map_append, mem_append] at hk
    exact hk.imp_right mem_singleton.mp
  refine ⟨hi.normal, fun k hk => ?_, ?_, hbound, hi.slots, fun m e he k hk hseq => ?_, Nat.lt_of_le_of_ne hi.capped hq⟩
  · rcases hnew k hk with hk | rfl
    · exact hi.realtime k hk
    · exact hn
  · rw [keys, map_append, pairwise_append]
    refine ⟨hi.order, pairwise_singleton .., fun k hk k' hk' => ?_⟩
    rw [mem_singleton.mp hk']
    exact Nat.lt_succ_of_le (hkle k hk)
  rcases hnew k hk with hk | rfl
  · exact hi.apart m e he k hk hseq
  · exact absurd (hle m e he) (by simp [hseq])

lemma step_cases (op : Op) : s.Shrinks (op.step l s) ∨ ∃ info r, Enqueued l s info (r, op.step l s) := by
  have hchecked : ∀ info, ∃ info' r, Enqueued l s info' (r, (s.enqueueChecked l info).2) :=
    fun info => ⟨info, _, enqueueChecked_spec info⟩
  cases op with
  | reset identity =>
    refine .inl ?_
    dsimp only [Op.step, reset]
    split_ifs
    · exact .refl s
    · exact shrinks_clear identity
  | retire => exact .inl (shrinks_clear {})
  | enqueue info =>
    dsimp only [Op.step, enqueue]
    split_ifs
    · exact .inl (.refl s)
    · exact .inr (hchecked info)
  | enqueueKernel signal => exact .inr (hchecked _)
  | enqueueTimer =>
    dsimp only [Op.step, enqueueTimer, enqueueValid]
    split_ifs
    · exact .inr (hchecked _)
    · exact .inl (.refl s)
  | enqueueChildExit =>
    dsimp only [Op.step, enqueueChildExit, enqueueValid]
    split_ifs
    · exact .inl (.refl s)
    · exact .inr (hchecked _)
    · exact .inl (.refl s)
  | consume t => exact .inl (shrinks_consume t)
  | refreshTimer signal timer overrun => exact .inl (shrinks_refreshTimer overrun)
  | discardTimer => exact .inl shrinks_discardTimer
  | discardTimers => exact .inl shrinks_discardTimers
  | discard => exact .inl shrinks_discard

lemma Inv.run (hi : Inv l s) (ops : List Op) : Inv l (run l ops s) := by
  induction ops generalizing s with
  | nil => exact hi
  | cons op ops ih =>
  refine ih ?_
  rcases step_cases op with h | ⟨_, _, h⟩
  · exact hi.shrinks h
  · exact hi.enqueued h

lemma Inv.cleared (hi : Inv l s) (he : s.normal n = some e) : ¬(s.setNormal n none).Holds e.sequence := by
  rintro (⟨m, d, hd, hseq⟩ | ⟨k, hk, hseq⟩)
  · simp only [setNormal, update_apply] at hd
    split_ifs at hd with hm
    exact hm (hi.slots m n d e hd he hseq)
  · exact hi.apart n e he k hk hseq.symm

lemma Inv.erased {a b : List Entry} (hi : Inv l s) (h : s.realtime = a ++ e :: b) :
    ¬{ s with realtime := a ++ b }.Holds e.sequence := by
  have hmem : e.key ∈ s.keys := mem_map_of_mem (h ▸ by simp)
  have ho := hi.order
  rw [keys, h, map_append, map_cons, pairwise_append, pairwise_cons] at ho
  rintro (⟨m, d, hd, hseq⟩ | ⟨k, hk, hseq⟩)
  · exact hi.apart m d hd _ hmem hseq
  rw [keys, map_append, mem_append] at hk
  rcases hk with hk | hk
  · exact (ho.2.2 k hk _ (mem_cons_self ..)).ne hseq
  · exact (ho.2.1.1 k hk).ne' hseq

lemma Inv.unique {d : Entry} (hi : Inv l s) (hd : s.Pending d) (he : s.Pending e) (hseq : d.sequence = e.sequence) : d = e := by
  rcases hd with hd | hd <;> rcases he with he | he
  · rw [hi.slots _ _ d e hd he hseq, he] at hd
    exact (Option.some.inj hd).symm
  · exact absurd hseq (hi.apart _ d hd _ (mem_map_of_mem he))
  · exact absurd hseq.symm (hi.apart _ e he _ (mem_map_of_mem hd))
  · obtain ⟨a, b, hl⟩ := append_of_mem he
    by_contra hne
    refine hi.erased hl (.inr ⟨d.key, mem_map_of_mem ?_, hseq⟩)
    simpa [hl, hne] using hd

lemma Inv.holds (hi : Inv l s) : s.Holds q ↔ ∃ e, s.Pending e ∧ e.sequence = q := by
  constructor
  · rintro (⟨n, e, he, rfl⟩ | ⟨k, hk, rfl⟩)
    · exact ⟨e, .inl ((hi.normal n e he).1.symm ▸ he), rfl⟩
    · obtain ⟨e, he, rfl⟩ := mem_map.mp hk
      exact ⟨e, .inr he, rfl⟩
  · rintro ⟨e, he | he, rfl⟩
    · exact .inl ⟨_, e, he, rfl⟩
    · exact .inr ⟨_, mem_map_of_mem he, rfl⟩

/-- What a part of the records keeps is known by its sequence: a record that is not kept has none there. -/
lemma Inv.dropped (hi : Inv l s) (h : s.Shrinks s') (hsub : ∀ d, s'.Pending d → s.Pending d) (he : s.Pending e)
    (hgone : ¬s'.Pending e) : ¬s'.Holds e.sequence := by
  intro hh
  obtain ⟨d, hd, hseq⟩ := (hi.shrinks h).holds.mp hh
  exact hgone (hi.unique (hsub d hd) he hseq ▸ hd)

lemma Inv.consumed {t : Delivery} (hi : Inv l s) (h : (s.consume l t).1 = true) :
    ¬(s.consume l t).2.Holds t.sequence ∧ ∀ e, e.sequence ≠ t.sequence → ((s.consume l t).2.Pending e ↔ s.Pending e) := by
  unfold consume at h ⊢
  split_ifs at h ⊢ with h₁ h₂ h₃ h₄
  · refine ⟨hi.cleared h₃, fun e he => or_congr_left ?_⟩
    simp only [setNormal, update_apply]
    split_ifs with hs
    · rw [hs, h₃]
      exact ⟨nofun, fun hh => absurd (congrArg Entry.sequence (Option.some.inj hh)).symm he⟩
    · rfl
  obtain ⟨a, b, -, hl, her⟩ := exists_erase_eq h₄
  refine ⟨?_, fun e he => or_congr_right (mem_erase_of_ne fun hh => he (congrArg Entry.sequence hh))⟩
  rw [her]
  exact hi.erased hl

/-- The order of delivery: synchronous signals first, then the lower number, then the earlier record. -/
def precedes (l : Limits) (d e : Entry) : Prop :=
  synchronous l.maximumSignal d.info.signal = true ∧ synchronous l.maximumSignal e.info.signal = false ∨
    synchronous l.maximumSignal d.info.signal = synchronous l.maximumSignal e.info.signal ∧
      (d.info.signal < e.info.signal ∨ d.info.signal = e.info.signal ∧ d.sequence ≤ e.sequence)

structure Exact (l : Limits) (s : PendingSignals) : Prop where
  single : ∀ e e', s.Pending e → s.Pending e' → e.info.signal = e'.info.signal → e.info.signal < 32 → e = e'
  queued : ∀ info, (s.enqueueChecked l info).1 = .queued →
    ¬s.Holds (s.nextSequence + 1) ∧ (s.enqueueChecked l info).2.Pending ⟨s.nextSequence + 1, info⟩
  peeked : ∀ blocked d, s.peek l blocked = some d → d = s.ticket d.toEntry ∧ s.Pending d.toEntry ∧
    blocked d.info.signal = false ∧ ∀ e, s.Pending e → blocked e.info.signal = false → precedes l d.toEntry e
  exhausted : ∀ blocked, s.peek l blocked = none → ∀ e, s.Pending e → blocked e.info.signal = true
  consumes : ∀ t, (s.consume l t).1 = true ↔ t.queue = s.queue ∧ t.owner = s.owner ∧ s.Pending t.toEntry
  refuses : ∀ t, (s.consume l t).1 = false → s.consume l t = (false, s)
  consumed : ∀ t, (s.consume l t).1 = true → ¬(s.consume l t).2.Holds t.sequence ∧
    ∀ e, e.sequence ≠ t.sequence → ((s.consume l t).2.Pending e ↔ s.Pending e)
  discards : ∀ n e, (s.discard l n).Pending e → e.info.signal ≠ n
  discardsTimers : ∀ e, (s.discardTimers l).Pending e → e.info.code ≠ timerCode l.maximumSignal
  discardsTimer : ∀ n timer e, s.findTimer l n timer = some e → ¬(s.discardTimer l n timer).Holds e.sequence
  bounded : ∀ e, s.Pending e → 0 < e.sequence ∧ e.sequence ≤ s.nextSequence ∧ s.nextSequence ≤ l.maximumSequence
  discarded : ∀ n e, s.Pending e → e.info.signal = n → ¬(s.discard l n).Holds e.sequence
  discardedTimers : ∀ e, s.Pending e → e.info.code = timerCode l.maximumSignal → ¬(s.discardTimers l).Holds e.sequence
  emptied : ∀ q, ¬s.retire.Holds q ∧ ∀ identity, (s.reset identity).1 = true → ¬(s.reset identity).2.Holds q
  gone : ∀ t : Delivery, t.sequence ≤ s.nextSequence → ¬s.Holds t.sequence →
    ∀ ops, (run l ops s).consume l t = (false, run l ops s)

end PendingSignals

end ObfuscationKernel.Sched.Signals
