import ObfuscationKernel.Core.Status
import Mathlib.Tactic.Ring

/-! Conversions between counter ticks and nanoseconds, in 64-bit words. -/

namespace ObfuscationKernel.Time

open ObfuscationKernel.Core

def nanosecondsPerSecond : UInt64 := 1000000000

/-- The largest factor of a nanosecond count, and the highest frequency whose remainders scale without wrapping. -/
def scaleLimit : UInt64 := (-1 : UInt64) / nanosecondsPerSecond

/-- The clock over a source of constant frequency; `initializeClock` alone sets the flag, and refuses frequency zero. -/
structure CalibratedClock where
  hz : UInt64
  origin : UInt64 := 0
  initialized : Bool := false
  known : initialized = true → hz ≠ 0 := by decide

namespace CalibratedClock

def initializeClock (clock : CalibratedClock) (counter : UInt64) : Result CalibratedClock :=
  if h : clock.hz = 0 then .error (.invalidArgument "clock source frequency unknown")
  else .ok ⟨clock.hz, counter, true, fun _ => h⟩

def monotonicNs (clock : CalibratedClock) (counter : UInt64) : Result UInt64 :=
  if !clock.initialized then .error (.notInitialized "calibrated clock not initialised") else
  let ticks := counter - clock.origin
  let seconds := ticks / clock.hz
  let remainder := ticks % clock.hz
  if seconds > scaleLimit then .error (.overflow "monotonic nanoseconds exhausted") else
  let whole := seconds * nanosecondsPerSecond
  if clock.hz > scaleLimit then .error (.unsupported "clock frequency above 18 GHz needs wide arithmetic")
  else .ok (whole + remainder * nanosecondsPerSecond / clock.hz)

def deadlineTicks (clock : CalibratedClock) (counter relativeNs : UInt64) : Result UInt64 :=
  if !clock.initialized then .error (.notInitialized "calibrated clock not initialised") else
  let seconds := relativeNs / nanosecondsPerSecond
  let rem := relativeNs % nanosecondsPerSecond
  if clock.hz ≠ 0 ∧ seconds > (-1 : UInt64) / clock.hz then .error (.overflow "deadline exceeds counter range") else
  let ticks := seconds * clock.hz + rem * clock.hz / nanosecondsPerSecond
  .ok (counter + ticks)

end CalibratedClock

def ticksToNanoseconds (ticks frequency : UInt64) : UInt64 :=
  if frequency = 0 then 0 else
  let seconds := ticks / frequency
  let fraction := ticks % frequency
  if seconds > scaleLimit then -1 else
  let part := if frequency ≤ scaleLimit then fraction * nanosecondsPerSecond / frequency
    else fraction / (frequency / nanosecondsPerSecond)
  if seconds * nanosecondsPerSecond > -1 - part then -1 else seconds * nanosecondsPerSecond + part

/-- The scaled count as a mathematical integer. -/
def scaled (n m d : ℕ) : ℕ := n * m / d

lemma scaled_split (n m : ℕ) {d : ℕ} (hd : 0 < d) : scaled n m d = n / d * m + n % d * m / d := by
  have h : n * m = n % d * m + d * (n / d * m) := by
    nth_rewrite 1 [← Nat.mod_add_div n d]
    ring
  rw [scaled, h, Nat.add_mul_div_left _ _ hd, Nat.add_comm]

lemma scaled_mono {n n' : ℕ} (m d : ℕ) (h : n ≤ n') : scaled n m d ≤ scaled n' m d :=
  Nat.div_le_div_right (Nat.mul_le_mul_right m h)

lemma part_lt {r d : ℕ} (h : r < d) : r * 1000000000 / d < 1000000000 :=
  Nat.div_lt_of_lt_mul (Nat.mul_lt_mul_of_pos_right h (by decide))

lemma toNat_pos {hz : UInt64} (h : hz ≠ 0) : 0 < hz.toNat := Nat.pos_of_ne_zero fun h0 => h (UInt64.toNat_inj.mp h0)

lemma toNat_scaleLimit : scaleLimit.toNat = 18446744073 := by decide

/-- Seconds and fraction are each scaled without wrapping; only their sum can wrap. -/
lemma toNat_parts {ticks hz : UInt64} (h0 : hz ≠ 0) (hl : hz ≤ scaleLimit) (hs : ticks / hz ≤ scaleLimit) :
    (ticks / hz * nanosecondsPerSecond).toNat = ticks.toNat / hz.toNat * 1000000000 ∧
      (ticks % hz * nanosecondsPerSecond / hz).toNat = ticks.toNat % hz.toNat * 1000000000 / hz.toNat := by
  have hn : nanosecondsPerSecond.toNat = 1000000000 := rfl
  rw [UInt64.le_iff_toNat_le, toNat_scaleLimit] at hl hs
  have hr := Nat.mod_lt ticks.toNat (toNat_pos h0)
  rw [UInt64.toNat_div] at hs
  rw [UInt64.toNat_mul, UInt64.toNat_div, UInt64.toNat_div, UInt64.toNat_mul, UInt64.toNat_mod, hn]
  rw [Nat.mod_eq_of_lt (show ticks.toNat / hz.toNat * 1000000000 < 2 ^ 64 by omega),
    Nat.mod_eq_of_lt (show ticks.toNat % hz.toNat * 1000000000 < 2 ^ 64 by omega)]
  exact ⟨rfl, rfl⟩

lemma monotonicNs_toNat {clock : CalibratedClock} {counter value : UInt64} (h : clock.monotonicNs counter = .ok value) :
    value.toNat = scaled (counter - clock.origin).toNat 1000000000 clock.hz.toNat % 2 ^ 64 := by
  unfold CalibratedClock.monotonicNs at h
  dsimp only at h
  split_ifs at h with hi hs hz
  cases h
  have h0 := clock.known (by simpa using hi)
  obtain ⟨hwhole, hpart⟩ := toNat_parts h0 (UInt64.not_lt.mp hz) (UInt64.not_lt.mp hs)
  rw [scaled_split _ _ (toNat_pos h0), UInt64.toNat_add, hwhole, hpart]

/-- The offset is exact unless the scaled remainder or the sum wraps: a remainder that wraps loses whole ticks. -/
lemma deadlineTicks_exact_iff {clock : CalibratedClock} {counter relativeNs value : UInt64}
    (h : clock.deadlineTicks counter relativeNs = .ok value) :
    (value - counter).toNat = scaled relativeNs.toNat clock.hz.toNat 1000000000 ↔
      relativeNs.toNat % 1000000000 * clock.hz.toNat < 2 ^ 64 ∧ scaled relativeNs.toNat clock.hz.toNat 1000000000 < 2 ^ 64 := by
  unfold CalibratedClock.deadlineTicks at h
  dsimp only at h
  split_ifs at h
  cases h
  have hn : nanosecondsPerSecond.toNat = 1000000000 := rfl
  rw [scaled_split _ _ (by decide), UInt64.add_comm, UInt64.add_sub_cancel, UInt64.toNat_add, UInt64.toNat_mul,
    UInt64.toNat_div, UInt64.toNat_div, UInt64.toNat_mul, UInt64.toNat_mod, hn]
  generalize relativeNs.toNat / 1000000000 * clock.hz.toNat = whole
  generalize relativeNs.toNat % 1000000000 * clock.hz.toNat = part
  constructor <;> omega

lemma ticksToNanoseconds_exact {ticks frequency : UInt64} (h0 : frequency ≠ 0) (hl : frequency ≤ scaleLimit) :
    (ticksToNanoseconds ticks frequency).toNat =
      min (scaled ticks.toNat 1000000000 frequency.toNat) (2 ^ 64 - 1) := by
  have hmax : (-1 : UInt64).toNat = 2 ^ 64 - 1 := by decide
  unfold ticksToNanoseconds
  rw [if_neg h0, scaled_split _ _ (toNat_pos h0)]
  dsimp only
  rw [if_pos hl]
  split
  · next hs =>
    rw [gt_iff_lt, UInt64.lt_iff_toNat_lt, toNat_scaleLimit, UInt64.toNat_div] at hs
    have hle : 2 ^ 64 - 1 ≤ ticks.toNat / frequency.toNat * 1000000000 := by omega
    rw [hmax, Nat.min_eq_right (hle.trans (Nat.le_add_right _ _))]
  next hs =>
  obtain ⟨hwhole, hpart⟩ := toNat_parts h0 hl (UInt64.not_lt.mp hs)
  have hlt := part_lt (Nat.mod_lt ticks.toNat (toNat_pos h0))
  have hsub : (-1 - ticks % frequency * nanosecondsPerSecond / frequency).toNat =
      2 ^ 64 - 1 - ticks.toNat % frequency.toNat * 1000000000 / frequency.toNat := by
    rw [UInt64.toNat_sub_of_le, hpart, hmax]
    rw [UInt64.le_iff_toNat_le, hpart, hmax]
    omega
  split
  · next hw =>
    rw [gt_iff_lt, UInt64.lt_iff_toNat_lt, hsub, hwhole] at hw
    rw [hmax]
    omega
  next hw =>
  rw [gt_iff_lt, UInt64.not_lt, UInt64.le_iff_toNat_le, hsub, hwhole] at hw
  rw [UInt64.toNat_add, hwhole, hpart]
  omega

/-- Above the limit the fraction is divided by the frequency in whole gigahertz, and nothing saturates. -/
lemma ticksToNanoseconds_fast {ticks frequency : UInt64} (hl : ¬frequency ≤ scaleLimit) :
    (ticksToNanoseconds ticks frequency).toNat = ticks.toNat / frequency.toNat * 1000000000 +
      ticks.toNat % frequency.toNat / (frequency.toNat / 1000000000) := by
  have hmax : (-1 : UInt64).toNat = 2 ^ 64 - 1 := by decide
  have hn : nanosecondsPerSecond.toNat = 1000000000 := rfl
  have hf : 18446744073 < frequency.toNat := by
    rwa [UInt64.le_iff_toNat_le, toNat_scaleLimit, Nat.not_le] at hl
  have ht := ticks.toNat_lt
  have hs : ticks.toNat / frequency.toNat < 1000000000 := Nat.div_lt_of_lt_mul (by omega)
  have hr : ticks.toNat % frequency.toNat / (frequency.toNat / 1000000000) < 2000000000 := by
    refine Nat.div_lt_of_lt_mul ((Nat.mod_lt _ (by omega)).trans_le ?_)
    omega
  unfold ticksToNanoseconds
  rw [if_neg (by rintro rfl; exact absurd hf (by decide))]
  dsimp only
  have hpart : (ticks % frequency / (frequency / nanosecondsPerSecond)).toNat =
      ticks.toNat % frequency.toNat / (frequency.toNat / 1000000000) := by
    rw [UInt64.toNat_div, UInt64.toNat_mod, UInt64.toNat_div, hn]
  have hwhole : (ticks / frequency * nanosecondsPerSecond).toNat = ticks.toNat / frequency.toNat * 1000000000 := by
    rw [UInt64.toNat_mul, UInt64.toNat_div, hn]
    exact Nat.mod_eq_of_lt (by omega)
  have hle : ticks % frequency / (frequency / nanosecondsPerSecond) ≤ -1 := by
    rw [UInt64.le_iff_toNat_le, hpart, hmax]
    omega
  rw [if_neg hl, if_neg, if_neg, UInt64.toNat_add, hwhole, hpart]
  · omega
  · rw [gt_iff_lt, UInt64.lt_iff_toNat_lt, UInt64.toNat_sub_of_le _ _ hle, hwhole, hpart, hmax]
    omega
  · rw [gt_iff_lt, UInt64.lt_iff_toNat_lt, toNat_scaleLimit, UInt64.toNat_div]
    omega

/-- Dividing by `f / m` for a factor `m / f` is exact as long as the remainder makes up for what `f % m` takes away. -/
lemma div_div_eq_scaled_iff {r f m : ℕ} (hm : 0 < m) (hq : 0 < f / m) :
    r / (f / m) = r * m / f ↔ r / (f / m) * (f % m) ≤ r % (f / m) * m := by
  have hr := Nat.div_add_mod r (f / m)
  have hf := Nat.div_add_mod f m
  have hlt := Nat.mod_lt r hq
  have hpos : 0 < f := Nat.pos_of_ne_zero fun h => by simp [h] at hq
  generalize f / m = q at *
  generalize r / q = a at *
  generalize r % q = b at *
  generalize f % m = c at *
  subst hr
  subst hf
  have hb : b * m + m ≤ m * q := by
    calc b * m + m = (b + 1) * m := by ring
      _ ≤ q * m := Nat.mul_le_mul_right m hlt
      _ = m * q := by ring
  rw [eq_comm, Nat.div_eq_iff hpos]
  have h1 : (q * a + b) * m = a * (m * q) + b * m := by ring
  have h2 : a * (m * q + c) = a * (m * q) + a * c := by ring
  rw [h1, h2]
  omega

theorem conversions_exact (clock : CalibratedClock) :
    (∀ counter value, clock.monotonicNs counter = .ok value →
      (value.toNat = scaled (counter - clock.origin).toNat 1000000000 clock.hz.toNat ↔
        scaled (counter - clock.origin).toNat 1000000000 clock.hz.toNat < 2 ^ 64) ∧
      (scaled (counter - clock.origin).toNat 1000000000 clock.hz.toNat < 2 ^ 64 → ∀ earlier reading,
        clock.monotonicNs earlier = .ok reading →
        (earlier - clock.origin).toNat ≤ (counter - clock.origin).toNat → reading ≤ value)) ∧
    (∀ counter relativeNs value, clock.deadlineTicks counter relativeNs = .ok value →
      ((value - counter).toNat = scaled relativeNs.toNat clock.hz.toNat 1000000000 ↔
        relativeNs.toNat % 1000000000 * clock.hz.toNat < 2 ^ 64 ∧
          scaled relativeNs.toNat clock.hz.toNat 1000000000 < 2 ^ 64)) ∧
    ∀ ticks frequency : UInt64, frequency ≠ 0 →
      let q := frequency.toNat / 1000000000
      let r := ticks.toNat % frequency.toNat
      ((ticksToNanoseconds ticks frequency).toNat = min (scaled ticks.toNat 1000000000 frequency.toNat) (2 ^ 64 - 1) ↔
        frequency ≤ scaleLimit ∨ r / q * (frequency.toNat % 1000000000) ≤ r % q * 1000000000) := by
  refine ⟨fun counter value h => ?_, fun _ _ _ h => deadlineTicks_exact_iff h, fun ticks frequency h0 => ?_⟩
  · rw [monotonicNs_toNat h]
    refine ⟨Nat.mod_eq_iff_lt (by decide), fun hfit earlier reading he hle => ?_⟩
    have hle := scaled_mono 1000000000 clock.hz.toNat hle
    rw [UInt64.le_iff_toNat_le, monotonicNs_toNat he, monotonicNs_toNat h, Nat.mod_eq_of_lt hfit]
    exact (Nat.mod_le _ _).trans hle
  by_cases hl : frequency ≤ scaleLimit
  · exact iff_of_true (ticksToNanoseconds_exact h0 hl) (.inl hl)
  have hf : 18446744073 < frequency.toNat := by
    rwa [UInt64.le_iff_toNat_le, toNat_scaleLimit, Nat.not_le] at hl
  have hs : ticks.toNat / frequency.toNat < 1000000000 := Nat.div_lt_of_lt_mul (by have := ticks.toNat_lt; omega)
  have hr := part_lt (Nat.mod_lt ticks.toNat (toNat_pos h0))
  dsimp only
  rw [or_iff_right hl, ticksToNanoseconds_fast hl, scaled_split _ _ (toNat_pos h0), Nat.min_eq_left (by omega),
    Nat.add_left_cancel_iff]
  exact div_div_eq_scaled_iff (by decide) (by omega)

theorem conversions_exact_sample : (ticksToNanoseconds 19500000030 19500000001).toNat = 1000000001 ∧
    ∃ value, (⟨3000000, 5, true, by decide⟩ : CalibratedClock).deadlineTicks 7 2500000001 = .ok value ∧
      (value - 7).toNat = 7500000 := by
  obtain ⟨-, hdeadline, hticks⟩ := conversions_exact ⟨3000000, 5, true, by decide⟩
  refine ⟨((hticks 19500000030 19500000001 (by decide)).mpr (.inr (by decide +kernel))).trans (by decide +kernel), _, rfl, ?_⟩
  exact ((hdeadline 7 2500000001 _ rfl).mpr (by decide +kernel)).trans (by decide +kernel)

/-- At 100 Hz the reading falls back below an earlier one, at 2⁶³ Hz a two-nanosecond deadline is now, and just above the
limit a fraction of a second gives more than a second. -/
theorem conversions_wrap :
    (let clock : CalibratedClock := ⟨100, 0, true, by decide⟩
     clock.monotonicNs 1844674407370 = .ok 18446744073700000000 ∧ clock.monotonicNs 1844674407380 = .ok 90448384 ∧
       scaled 1844674407380 1000000000 100 = 18446744073800000000) ∧
    (let clock : CalibratedClock := ⟨9223372036854775808, 0, true, by decide⟩
     clock.deadlineTicks 0 2 = .ok 0 ∧ scaled 2 9223372036854775808 1000000000 = 18446744073) ∧
    ticksToNanoseconds 18446744073 18446744074 = 1024819115 ∧ scaled 18446744073 1000000000 18446744074 = 999999999 := by
  decide +kernel

end ObfuscationKernel.Time
