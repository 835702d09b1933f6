import Mathlib.Algebra.Order.Ring.Int
import Mathlib.Tactic.Linarith

/-! The interval timer: one signal per expiry, and the intervals missed meanwhile counted as its overrun. -/

namespace ObfuscationKernel.Time

def timerHorizon : ℕ := 2 ^ 63 - 1
def timerOverrunLimit : ℤ := 2 ^ 31 - 1

structure TimerSetting where
  value : ℕ := 0
  interval : ℕ := 0

inductive TimerState
  | disarmed | armed | signalled
  deriving DecidableEq

/-- Times are 64-bit words; an overrun is a 64-bit signed word. -/
structure IntervalTimer where
  expiry : ℕ := 0
  interval : ℕ := 0
  previewed : ℕ := 0
  overrun : ℤ := -1
  overrunLast : ℤ := 0
  state : TimerState := .disarmed
  quiet : Bool := false

namespace IntervalTimer

def saturate (base delta : ℕ) : ℕ :=
  if base ≥ timerHorizon ∨ delta > timerHorizon - base then timerHorizon else base + delta

/-- Headroom and sum are taken in unsigned words, so both are reduced modulo `2 ^ 64`. -/
def add (overrun : ℤ) (skipped : ℕ) : ℤ :=
  let headroom := (2 ^ 63 - 1 - overrun) % 2 ^ 64
  if (skipped : ℤ) > headroom then 2 ^ 63 - 1 else Int.bmod (overrun + skipped) (2 ^ 64)

def clamp (overrun : ℤ) : ℤ :=
  if overrun > timerOverrunLimit then timerOverrunLimit else if overrun < 0 then 0 else overrun

def skipped (t : IntervalTimer) (now : ℕ) : ℕ :=
  if now < t.expiry then 0 else ((now - t.expiry) / t.interval + 1) % 2 ^ 64

def forward (t : IntervalTimer) (now : ℕ) : ℕ × IntervalTimer :=
  if t.interval = 0 ∨ now < t.expiry then (0, t) else
  let skipped := t.skipped now
  let delta := if skipped > timerHorizon / t.interval then timerHorizon else skipped * t.interval
  (skipped, { t with expiry := saturate t.expiry delta })

/-- `count(forward(now))`. -/
def countForward (t : IntervalTimer) (now : ℕ) : IntervalTimer :=
  { (t.forward now).2 with overrun := add t.overrun (t.forward now).1 }

def set (t : IntervalTimer) (now : ℕ) (next : TimerSetting) (absolute : Bool) : IntervalTimer :=
  let t := { t with overrun := -1, overrunLast := 0 }
  if next.value = 0 then { t with state := .disarmed, interval := 0 } else
  { t with
    interval := if next.interval > timerHorizon then timerHorizon else next.interval
    expiry := if absolute then if next.value > timerHorizon then timerHorizon else next.value else saturate now next.value
    state := .armed }

def get (t : IntervalTimer) (now : ℕ) : TimerSetting × IntervalTimer :=
  if t.state = .disarmed then ({}, t) else
  let later := if t.interval ≠ 0 ∧ (t.state = .signalled ∨ t.quiet = true) then t.countForward now else t
  let value := if later.expiry > now then later.expiry - now else if !t.quiet then 1 else 0
  (⟨value, t.interval⟩, later)

def itimer (t : IntervalTimer) (now : ℕ) : TimerSetting :=
  if t.state ≠ .armed then ⟨0, t.interval⟩ else ⟨if t.expiry > now then t.expiry - now else 1000, t.interval⟩

def expire (t : IntervalTimer) (now : ℕ) : Bool × IntervalTimer :=
  if t.quiet = true ∨ t.state ≠ .armed ∨ now < t.expiry then (false, t) else
  (true, { t with state := if t.interval ≠ 0 then .signalled else .disarmed, previewed := now })

def preview (t : IntervalTimer) (now : ℕ) : ℤ × IntervalTimer :=
  let t := { t with previewed := now }
  if t.state ≠ .signalled then (0, t) else (clamp (add t.overrun (t.skipped now)), t)

def dequeued (t : IntervalTimer) : IntervalTimer :=
  if t.state ≠ .signalled then t else
  let t := t.countForward t.previewed
  { t with overrunLast := t.overrun, overrun := -1, state := .armed }

end IntervalTimer

open IntervalTimer

inductive TimerCall
  | set (now : ℕ) (next : TimerSetting) (absolute : Bool)
  | get (now : ℕ)
  | itimer (now : ℕ)
  | expire (now : ℕ)
  | preview (now : ℕ)
  | dequeued

def TimerCall.time : TimerCall → Option ℕ
  | set now _ _ | get now | itimer now | expire now | preview now => some now
  | dequeued => none

/-- A timer with what its owner has seen of it: the latest time passed, the expiry of the last setting, whether it expired
since its last arming, the times passed since that expiry (latest first), the sum of `1 + overrun` over the signals dequeued
since the last setting, the last preview since the expiry unless a get followed, and whether every time and every expiry so
far lies below the horizon. -/
structure Watch where
  timer : IntervalTimer
  clock : ℕ := 0
  first : ℕ := 0
  fired : Bool := false
  seen : List ℕ := []
  sum : ℤ := 0
  reported : Option ℤ := none
  low : Prop := True

namespace Watch

/-- The next watch but for `low`. -/
def next (w : Watch) : TimerCall → Watch
  | .set now setting absolute =>
    let t := w.timer.set now setting absolute
    { timer := t, clock := now, first := t.expiry }
  | .get now => { w with timer := (w.timer.get now).2, clock := now, seen := now :: w.seen, reported := none }
  | .itimer now => { w with clock := now }
  | .expire now =>
    let (fired, t) := w.timer.expire now
    if fired then { w with timer := t, clock := now, fired := true, seen := [now], reported := none }
    else { w with timer := t, clock := now }
  | .preview now =>
    let (value, t) := w.timer.preview now
    { w with timer := t, clock := now, seen := now :: w.seen
             reported := if t.state = .signalled then some value else none }
  | .dequeued =>
    let t := w.timer.dequeued
    if w.timer.state = .signalled then { w with timer := t, fired := false, sum := w.sum + (1 + t.overrunLast) } else w

def step (w : Watch) (call : TimerCall) : Watch :=
  { w.next call with low := w.low ∧ (w.next call).clock < timerHorizon ∧ (w.next call).timer.expiry < timerHorizon }

end Watch

/-- Runs of a reset timer whose clock does not go back. -/
inductive Watch.Run (quiet : Bool) : Watch → Prop
  | reset : Run quiet { timer := { quiet := quiet } }
  | call {w : Watch} (call : TimerCall) (h : Run quiet w) (hc : ∀ now ∈ call.time, w.clock ≤ now ∧ now < 2 ^ 64) :
    Run quiet (w.step call)

namespace IntervalTimer

/-- From no interval skipped, not even that of the expiry, up to the signed limit. -/
def InRange (overrun : ℤ) : Prop := -1 ≤ overrun ∧ overrun ≤ 2 ^ 63 - 1

lemma inRange_none : InRange (-1) := ⟨le_rfl, by decide⟩

lemma inRange_zero : InRange 0 := ⟨by decide, by decide⟩

/-- The ranges a timer's words keep. -/
structure Words (t : IntervalTimer) : Prop where
  expiry : t.expiry ≤ timerHorizon
  interval : t.interval ≤ timerHorizon
  overrun : InRange t.overrun
  last : InRange t.overrunLast
  armed : t.state ≠ .disarmed → 0 < t.expiry
  periodic : t.state = .signalled → 0 < t.interval

lemma saturate_eq (base delta : ℕ) : saturate base delta = min (base + delta) timerHorizon := by
  unfold saturate
  split_ifs <;> omega

lemma add_eq {o : ℤ} (h : InRange o) (n : ℕ) : add o n = min (o + n) (2 ^ 63 - 1) := by
  unfold InRange at h
  unfold add
  dsimp only
  split_ifs
  · omega
  · rw [Int.bmod_def]
    split_ifs <;> omega

variable {t : IntervalTimer} {now : ℕ}

lemma skipped_eq (hp : 0 < t.expiry) (hn : now < 2 ^ 64) :
    t.skipped now = if now < t.expiry then 0 else (now - t.expiry) / t.interval + 1 := by
  unfold skipped
  split_ifs
  · rfl
  · have := Nat.div_le_self (now - t.expiry) t.interval
    exact Nat.mod_eq_of_lt (by omega)

/-- Moving forward adds the skipped intervals to expiry and overrun, each up to its limit. -/
lemma countForward_eq (ht : t.Words) (hp : 0 < t.expiry) (hi : 0 < t.interval) (hn : now < 2 ^ 64) :
    t.countForward now = { t with
      expiry := min (t.expiry + t.skipped now * t.interval) timerHorizon
      overrun := min (t.overrun + t.skipped now) (2 ^ 63 - 1) } := by
  unfold countForward forward
  rw [add_eq ht.overrun]
  split_ifs with h
  · have hlt : now < t.expiry := h.resolve_left hi.ne'
    have h0 : t.skipped now = 0 := if_pos hlt
    rw [h0, Nat.zero_mul, Nat.add_zero, Nat.min_eq_left ht.expiry]
  · dsimp only
    rw [saturate_eq]
    congr 1
    split_ifs with hd
    · have := (Nat.div_lt_iff_lt_mul hi).mp hd
      omega
    · rfl

/-- The skipped intervals are the fewest that lead past `now`. -/
lemma passed (hp : 0 < t.expiry) (hi : 0 < t.interval) (hn : now < 2 ^ 64) :
    now < t.expiry + t.skipped now * t.interval ∧ t.expiry + t.skipped now * t.interval ≤ max t.expiry (now + t.interval) := by
  rw [skipped_eq hp hn]
  split_ifs with h
  · omega
  · have hlt := Nat.lt_div_mul_add (a := now - t.expiry) hi
    have hle := Nat.div_mul_le_self (now - t.expiry) t.interval
    rw [Nat.succ_mul]
    omega

lemma Words.countForward (ht : t.Words) (hp : 0 < t.expiry) (hi : 0 < t.interval) (hn : now < 2 ^ 64) :
    (t.countForward now).Words := by
  rw [countForward_eq ht hp hi hn]
  exact ⟨Nat.min_le_right _ _, ht.interval,
    ⟨le_min (by have := ht.overrun.1; omega) (by decide), min_le_right _ _⟩, ht.last,
    fun _ => lt_min (Nat.add_pos_left hp _) (by decide), fun _ => hi⟩

end IntervalTimer

namespace Watch

variable {w : Watch}

/-- The grid points passed are the intervals already reported and those counted since. -/
def Counted (w : Watch) : Prop :=
  ∃ n : ℕ, w.timer.expiry = w.first + n * w.timer.interval ∧ w.sum + (w.timer.overrun + 1) = n

structure Inv (w : Watch) : Prop where
  words : w.timer.Words
  clock : w.clock < 2 ^ 64
  previewed : w.timer.previewed ≤ w.clock
  unfired : w.timer.state = .armed → w.fired = false
  seen : ∀ time ∈ w.seen, time ≤ w.clock
  signalled : w.timer.state = .signalled → w.low → ∃ latest older, w.seen = latest :: older ∧
    w.timer.previewed ≤ latest ∧ w.timer.expiry ≤ latest + w.timer.interval ∧
    ∀ time ∈ w.seen, time ≤ latest ∧ (time ≤ w.timer.previewed ∨ time < w.timer.expiry)
  reported : w.timer.state = .signalled → ∀ value ∈ w.reported,
    value = IntervalTimer.clamp (add w.timer.overrun (w.timer.skipped w.timer.previewed))
  sum : 0 ≤ w.sum
  counted : w.low → w.timer.state ≠ .disarmed → 0 < w.timer.interval → w.Counted

lemma Inv.countForward (h : w.Inv) (hs : w.timer.state ≠ .disarmed) (hi : 0 < w.timer.interval) {now : ℕ} (hn : now < 2 ^ 64)
    (hl : w.low) (he : (w.timer.countForward now).expiry < timerHorizon) :
    { w with timer := w.timer.countForward now }.Counted := by
  have hH : timerHorizon = 2 ^ 63 - 1 := rfl
  have hp := h.words.armed hs
  obtain ⟨n, hn', hsum⟩ := h.counted hl hs hi
  unfold Counted
  dsimp only
  rw [countForward_eq h.words hp hi hn] at he ⊢
  dsimp only at he ⊢
  have h0 := h.sum
  have hle : n + w.timer.skipped now ≤ w.timer.expiry + w.timer.skipped now * w.timer.interval := by
    rw [hn', Nat.add_assoc, ← Nat.add_mul]
    exact (Nat.le_mul_of_pos_right _ hi).trans (Nat.le_add_left _ _)
  refine ⟨n + w.timer.skipped now, ?_, ?_⟩
  · rw [Nat.add_mul, ← Nat.add_assoc, ← hn']
    omega
  · omega

lemma Inv.set (h : w.Inv) {now : ℕ} (setting : TimerSetting) (absolute : Bool) (hc : w.clock ≤ now ∧ now < 2 ^ 64) :
    (w.step (.set now setting absolute)).Inv := by
  have hp := h.previewed.trans hc.1
  by_cases hv : setting.value = 0
  · have ht : w.timer.set now setting absolute =
        { w.timer with overrun := -1, overrunLast := 0, state := .disarmed, interval := 0 } := if_pos hv
    simp only [step, next, ht]
    exact ⟨⟨h.words.expiry, Nat.zero_le _, inRange_none, inRange_zero, fun hd => absurd rfl hd, nofun⟩, hc.2, hp, nofun, nofun,
      nofun, nofun, le_rfl, fun _ hd => absurd rfl hd⟩
  · have ht : w.timer.set now setting absolute = _ := if_neg hv
    have hH : timerHorizon = 2 ^ 63 - 1 := rfl
    simp only [step, next, ht, saturate_eq]
    refine ⟨⟨?_, ?_, inRange_none, inRange_zero, fun _ => ?_, nofun⟩, hc.2, hp, fun _ => rfl, nofun, nofun, nofun, le_rfl,
      fun _ _ _ => ⟨0, by simp, rfl⟩⟩ <;> dsimp only <;> split_ifs <;> omega

lemma Inv.get (h : w.Inv) {now : ℕ} (hc : w.clock ≤ now ∧ now < 2 ^ 64) : (w.step (.get now)).Inv := by
  have hseen : ∀ time ∈ now :: w.seen, time ≤ now := List.forall_mem_cons.mpr ⟨le_rfl, fun time ht => (h.seen time ht).trans hc.1⟩
  have hprev := h.previewed.trans hc.1
  by_cases hf : w.timer.state ≠ .disarmed ∧ w.timer.interval ≠ 0 ∧ (w.timer.state = .signalled ∨ w.timer.quiet = true)
  · have ht : (w.timer.get now).2 = w.timer.countForward now := by
      rw [IntervalTimer.get, if_neg hf.1, if_pos hf.2]
    have hi := Nat.pos_of_ne_zero hf.2.1
    have hp := h.words.armed hf.1
    have heq := countForward_eq h.words hp hi hc.2
    have hw := h.words.countForward hp hi hc.2
    have hcount := h.countForward hf.1 hi hc.2
    have hpast := passed hp hi hc.2
    rw [heq] at ht hw hcount
    simp only [step, next, ht]
    refine ⟨hw, hc.2, hprev, h.unfired, hseen,
      fun hs ⟨hl, hl'⟩ => ⟨now, w.seen, rfl, hprev, ?_, fun time ht => ⟨hseen time ht, ?_⟩⟩,
      nofun, h.sum, fun hl _ _ => hcount hl.1 hl.2.2⟩
    · obtain ⟨latest, older, hlatest, -, hle, -⟩ := h.signalled hs hl
      have := h.seen latest (hlatest ▸ List.mem_cons_self)
      dsimp only at hl' ⊢
      omega
    · have := hseen time ht
      dsimp only at hl' ⊢
      omega
  · have ht : (w.timer.get now).2 = w.timer := by
      unfold IntervalTimer.get
      by_cases hd : w.timer.state = .disarmed
      · rw [if_pos hd]
      · rw [if_neg hd, if_neg fun hf' => hf ⟨hd, hf'⟩]
    have hns (hs : w.timer.state = .signalled) : False := hf ⟨by rw [hs]; decide, (h.words.periodic hs).ne', .inl hs⟩
    simp only [step, next, ht]
    exact ⟨h.words, hc.2, hprev, h.unfired, hseen, fun hs => (hns hs).elim, nofun, h.sum, fun hl => h.counted hl.1⟩

lemma Inv.itimer (h : w.Inv) {now : ℕ} (hc : w.clock ≤ now ∧ now < 2 ^ 64) : (w.step (.itimer now)).Inv :=
  ⟨h.words, hc.2, h.previewed.trans hc.1, h.unfired, fun time ht => (h.seen time ht).trans hc.1, fun hs hl => h.signalled hs hl.1,
    h.reported, h.sum, fun hl => h.counted hl.1⟩

lemma Inv.expire (h : w.Inv) {now : ℕ} (hc : w.clock ≤ now ∧ now < 2 ^ 64) : (w.step (.expire now)).Inv := by
  by_cases hx : w.timer.quiet = true ∨ w.timer.state ≠ .armed ∨ now < w.timer.expiry
  · have ht : w.timer.expire now = (false, w.timer) := if_pos hx
    simp only [step, next, ht]
    exact h.itimer hc
  · have ht : w.timer.expire now = (true, _) := if_neg hx
    simp only [not_or, not_not, Nat.not_lt] at hx
    obtain ⟨-, ha, hle⟩ := hx
    have hd : w.timer.state ≠ .disarmed := by rw [ha]; decide
    simp only [step, next, ht, if_true]
    refine ⟨⟨h.words.expiry, h.words.interval, h.words.overrun, h.words.last, fun _ => h.words.armed hd, fun hs => ?_⟩, hc.2,
      le_rfl, fun hs => ?_, by simp, fun _ hl => ⟨now, [], rfl, le_rfl, Nat.le_add_right_of_le hle, by simp⟩, nofun, h.sum,
      fun hl _ => h.counted hl.1 hd⟩
    · dsimp only at hs
      split_ifs at hs with hi
      exact Nat.pos_of_ne_zero hi
    · dsimp only at hs
      split_ifs at hs

lemma Inv.preview (h : w.Inv) {now : ℕ} (hc : w.clock ≤ now ∧ now < 2 ^ 64) : (w.step (.preview now)).Inv := by
  have hseen : ∀ time ∈ now :: w.seen, time ≤ now := List.forall_mem_cons.mpr ⟨le_rfl, fun time ht => (h.seen time ht).trans hc.1⟩
  have ht : (w.timer.preview now).2 = { w.timer with previewed := now } := by
    unfold IntervalTimer.preview
    dsimp only
    split_ifs <;> rfl
  simp only [step, next, ht]
  refine ⟨⟨h.words.expiry, h.words.interval, h.words.overrun, h.words.last, h.words.armed, h.words.periodic⟩, hc.2, le_rfl,
    h.unfired, hseen, fun hs hl => ?_, fun hs value hv => ?_, h.sum, fun hl => h.counted hl.1⟩
  · obtain ⟨latest, older, hlatest, -, hle, -⟩ := h.signalled hs hl.1
    have := h.seen latest (hlatest ▸ List.mem_cons_self)
    exact ⟨now, w.seen, rfl, le_rfl, by dsimp only; omega, fun time ht => ⟨hseen time ht, .inl (hseen time ht)⟩⟩
  · dsimp only at hs
    simp only [hs, if_true, Option.mem_some_iff, IntervalTimer.preview, ne_eq, not_true, if_false] at hv
    exact hv.symm

lemma dequeued_eq (hs : w.timer.state = .signalled) : w.timer.dequeued = { w.timer.countForward w.timer.previewed with
    overrunLast := (w.timer.countForward w.timer.previewed).overrun, overrun := -1, state := .armed } := by
  rw [IntervalTimer.dequeued, if_neg (not_not.mpr hs)]

lemma Inv.forward (h : w.Inv) (hs : w.timer.state = .signalled) :
    w.timer.state ≠ .disarmed ∧ 0 < w.timer.expiry ∧ 0 < w.timer.interval ∧ w.timer.previewed < 2 ^ 64 :=
  have hd : w.timer.state ≠ .disarmed := by rw [hs]; decide
  ⟨hd, h.words.armed hd, h.words.periodic hs, h.previewed.trans_lt h.clock⟩

lemma Inv.dequeued (h : w.Inv) : (w.step .dequeued).Inv := by
  by_cases hs : w.timer.state = .signalled
  · obtain ⟨hd, hp, hi, hn⟩ := h.forward hs
    have hw := h.words.countForward hp hi hn
    have hcount := h.countForward hd hi hn
    have heq := countForward_eq h.words hp hi hn
    have hsum := h.sum
    simp only [step, next, if_pos hs, dequeued_eq hs]
    rw [heq] at hw hcount ⊢
    have ho := hw.overrun
    refine ⟨⟨hw.expiry, hw.interval, inRange_none, ho, fun _ => hw.armed hd, nofun⟩, h.clock, h.previewed, fun _ => rfl, h.seen,
      nofun, nofun, ?_, fun hl _ _ => ?_⟩
    · have := ho.1
      dsimp only at this ⊢
      omega
    · obtain ⟨n, hn, hsum⟩ := hcount hl.1 hl.2.2
      refine ⟨n, hn, ?_⟩
      dsimp only at hsum ⊢
      omega
  · simp only [step, next, if_neg hs]
    exact { h with signalled := fun hs' => absurd hs' hs, counted := fun hl => h.counted hl.1 }

lemma Run.inv {quiet : Bool} (h : Run quiet w) : w.Inv := by
  induction h with
  | reset => exact ⟨⟨Nat.zero_le _, Nat.zero_le _, inRange_none, inRange_zero, fun hd => absurd rfl hd, nofun⟩,
      Nat.two_pow_pos 64, le_rfl, nofun, nofun, nofun, nofun, le_rfl, fun _ hd => absurd rfl hd⟩
  | call call _ hc ih =>
    cases call with
    | set now setting absolute => exact ih.set setting absolute (hc now rfl)
    | get now => exact ih.get (hc now rfl)
    | itimer now => exact ih.itimer (hc now rfl)
    | expire now => exact ih.expire (hc now rfl)
    | preview now => exact ih.preview (hc now rfl)
    | dequeued => exact ih.dequeued

/-- A dequeue leads past every time seen since the expiry, and past no grid point beyond the latest of them. -/
lemma Inv.dequeued_exact (h : w.Inv) (hs : w.timer.state = .signalled) (hl : (w.step .dequeued).low) :
    ∃ latest older, w.seen = latest :: older ∧ (∀ time ∈ w.seen, time ≤ latest ∧ time < (w.step .dequeued).timer.expiry) ∧
      ∀ k : ℕ, (k : ℤ) < (w.step .dequeued).sum ↔ w.first + k * w.timer.interval ≤ latest := by
  obtain ⟨hd, hp, hi, hn⟩ := h.forward hs
  obtain ⟨latest, older, hlatest, hprev, hle, hseen⟩ := h.signalled hs hl.1
  have hpast := passed hp hi hn
  have hlow := hl.2.2
  obtain ⟨n, hgrid, hsum⟩ := h.dequeued.counted hl (by simp [step, next, hs, dequeued_eq]) (by
    simpa [step, next, hs, dequeued_eq, countForward_eq h.words hp hi hn] using hi)
  simp only [step, next, if_pos hs, dequeued_eq hs, countForward_eq h.words hp hi hn] at hlow hgrid hsum ⊢
  have hexpiry : w.timer.expiry + w.timer.skipped w.timer.previewed * w.timer.interval = w.first + n * w.timer.interval := by
    omega
  have hpassed (time) (ht : time ∈ w.seen) : time < w.first + n * w.timer.interval := by
    have := (hseen time ht).2
    omega
  have hleast : w.first + n * w.timer.interval ≤ latest + w.timer.interval := by omega
  refine ⟨latest, older, hlatest, fun time ht => ⟨(hseen time ht).1, ?_⟩, fun k => ⟨fun hk => ?_, fun hk => ?_⟩⟩
  · have := hpassed time ht
    omega
  · have := Nat.mul_le_mul_right w.timer.interval (show k + 1 ≤ n by omega)
    rw [Nat.succ_mul] at this
    omega
  · by_contra hc
    have := Nat.mul_le_mul_right w.timer.interval (show n ≤ k by omega)
    have := hpassed latest (hlatest ▸ List.mem_cons_self)
    omega

theorem intervals_counted_once {quiet : Bool} (h : Run quiet w) :
    (∀ now, (w.timer.expire now).1 = true → w.timer.expiry ≤ now ∧ w.fired = false) ∧
    (w.low → w.timer.state ≠ .disarmed → 0 < w.timer.interval → ∃ k, w.timer.expiry = w.first + k * w.timer.interval) ∧
    (w.timer.state = .signalled →
      ((w.step .dequeued).low → ∃ latest older, w.seen = latest :: older ∧
        (∀ time ∈ w.seen, time ≤ latest ∧ time < (w.step .dequeued).timer.expiry) ∧
        ∀ k : ℕ, (k : ℤ) < (w.step .dequeued).sum ↔ w.first + k * w.timer.interval ≤ latest) ∧
      ∀ value ∈ w.reported, IntervalTimer.clamp (w.step .dequeued).timer.overrunLast = value) ∧
    (∀ now < 2 ^ 64, w.timer.state ≠ .disarmed → 0 < w.timer.interval → w.timer.countForward now = { w.timer with
      expiry := min (w.timer.expiry + w.timer.skipped now * w.timer.interval) timerHorizon
      overrun := min (w.timer.overrun + w.timer.skipped now) (2 ^ 63 - 1) } ∧
      w.timer.skipped now = if now < w.timer.expiry then 0 else (now - w.timer.expiry) / w.timer.interval + 1) ∧
    (∀ now setting absolute, setting.value ≠ 0 → (w.timer.set now setting absolute).interval = min setting.interval timerHorizon ∧
      (w.timer.set now setting absolute).expiry = min (if absolute then setting.value else now + setting.value) timerHorizon) ∧
    ∀ overrun, IntervalTimer.clamp overrun = max 0 (min overrun timerOverrunLimit) := by
  have hinv := h.inv
  refine ⟨fun now hx => ?_, fun hl hs hi => ?_, fun hs => ⟨hinv.dequeued_exact hs, fun value hv => ?_⟩, fun now hn hs hi => ?_,
    fun now setting absolute hv => ?_, fun overrun => ?_⟩
  · by_cases hc : w.timer.quiet = true ∨ w.timer.state ≠ .armed ∨ now < w.timer.expiry
    · rw [IntervalTimer.expire, if_pos hc] at hx
      cases hx
    · simp only [not_or, not_not, Nat.not_lt] at hc
      exact ⟨hc.2.2, hinv.unfired hc.2.1⟩
  · obtain ⟨n, hn, -⟩ := hinv.counted hl hs hi
    exact ⟨n, hn⟩
  · obtain ⟨-, hp, hi, hn⟩ := hinv.forward hs
    rw [hinv.reported hs value hv, add_eq hinv.words.overrun]
    simp only [step, next, if_pos hs, dequeued_eq hs, countForward_eq hinv.words hp hi hn]
  · exact ⟨countForward_eq hinv.words (hinv.words.armed hs) hi hn, skipped_eq (hinv.words.armed hs) hn⟩
  · rw [IntervalTimer.set, if_neg hv]
    dsimp only
    rw [saturate_eq]
    constructor <;> split_ifs <;> omega
  · unfold IntervalTimer.clamp timerOverrunLimit
    split_ifs <;> omega

theorem intervals_counted_once_run :
    let w := (step { timer := {} } (.set 0 ⟨10, 10⟩ false)).step (.expire 35)
    w.timer.state = .signalled ∧ w.seen = [35] ∧ ∀ k : ℕ, (k : ℤ) < (w.step .dequeued).sum ↔ 10 + k * 10 ≤ 35 := by
  intro w
  have hrun : Run false w := .call (.expire 35) (.call (.set 0 ⟨10, 10⟩ false) .reset (by decide)) (by decide)
  have hlow : (w.step .dequeued).low := ⟨⟨⟨trivial, by decide, by decide⟩, by decide, by decide⟩, by decide, by decide⟩
  obtain ⟨latest, older, hseen, -, hsum⟩ := ((intervals_counted_once hrun).2.2.1 rfl).1 hlow
  cases hseen
  exact ⟨rfl, rfl, hsum⟩

end Watch

end ObfuscationKernel.Time
