import Mathlib.Data.List.Induction
import Mathlib.Data.List.Pairwise
import Mathlib.Data.List.Sort
import Mathlib.Tactic.Ring

/-! The log-linear latency histogram and the order statistics its percentiles stand for. -/

namespace ObfuscationKernel.Time

open List

namespace LatencyHistogram

def subBuckets : ℕ := 8
def maximumExponent : ℕ := 31
def bucketCount : ℕ := subBuckets + (maximumExponent - 2) * subBuckets

/-- The exponent's loop: down from the given one while the value has no bit there. -/
def exponentFrom (value : ℕ) : ℕ → ℕ
  | 0 => 0
  | exponent + 1 => if value >>> (exponent + 1) = 0 then exponentFrom value exponent else exponent + 1

def index (nanoseconds : ℕ) : ℕ :=
  if nanoseconds < subBuckets then nanoseconds
  else if nanoseconds > 0xffffffff then bucketCount - 1
  else
    let exponent := exponentFrom nanoseconds 31
    let mantissa := (nanoseconds >>> (exponent - 3)) &&& (subBuckets - 1)
    subBuckets + (exponent - 3) * subBuckets + mantissa

def upperBound (bucket : ℕ) : ℕ :=
  if bucket < subBuckets then bucket
  else if bucket ≥ bucketCount - 1 then 2 ^ 64 - 1
  else
    let exponent := (bucket - subBuckets) / subBuckets + 3
    let mantissa := (bucket - subBuckets) % subBuckets
    ((subBuckets + mantissa + 1) <<< (exponent - 3)) - 1

end LatencyHistogram

structure LatencyHistogram where
  buckets : ℕ → ℕ := fun _ => 0
  count : ℕ := 0
  minimum : ℕ := 0
  maximum : ℕ := 0
  total : ℕ := 0

namespace LatencyHistogram

def record (h : LatencyHistogram) (nanoseconds : ℕ) : LatencyHistogram where
  buckets := Function.update h.buckets (index nanoseconds) ((h.buckets (index nanoseconds) + 1) % 2 ^ 32)
  minimum := if h.count = 0 ∨ nanoseconds < h.minimum then nanoseconds else h.minimum
  maximum := if nanoseconds > h.maximum then nanoseconds else h.maximum
  total := if nanoseconds > 2 ^ 64 - 1 - h.total then 2 ^ 64 - 1 else h.total + nanoseconds
  count := h.count + 1

def clamp (h : LatencyHistogram) (bound : ℕ) : ℕ :=
  if bound < h.minimum then h.minimum else if bound > h.maximum then h.maximum else bound

def scan (h : LatencyHistogram) (rank seen : ℕ) : List ℕ → ℕ
  | [] => h.maximum
  | bucket :: rest =>
    let seen := seen + h.buckets bucket
    if seen ≠ 0 ∧ seen ≥ rank then h.clamp (upperBound bucket) else scan h rank seen rest

def rank (count perMille : ℕ) : ℕ := (count * perMille + 999) / 1000

def percentile (h : LatencyHistogram) (perMille : ℕ) : ℕ :=
  if h.count = 0 then 0 else h.scan (rank h.count perMille) 0 (List.range bucketCount)

def recorded (samples : List ℕ) : LatencyHistogram := samples.foldl record {}

lemma exponentFrom_spec {value e : ℕ} (h0 : 0 < value) (h : value < 2 ^ (e + 1)) :
    2 ^ exponentFrom value e ≤ value ∧ value < 2 ^ (exponentFrom value e + 1) ∧ exponentFrom value e ≤ e := by
  induction e with
  | zero => exact ⟨h0, h, le_rfl⟩
  | succ e ih =>
    unfold exponentFrom
    split
    · next hz =>
      rw [Nat.shiftRight_eq_div_pow, Nat.div_eq_zero_iff_lt (Nat.two_pow_pos _)] at hz
      obtain ⟨h1, h2, h3⟩ := ih hz
      exact ⟨h1, h2, h3.trans (Nat.le_succ e)⟩
    · next hz =>
      rw [Nat.shiftRight_eq_div_pow, Nat.div_eq_zero_iff_lt (Nat.two_pow_pos _), Nat.not_lt] at hz
      exact ⟨hz, h, le_rfl⟩

/-- Below 2³² a value lies in `[q·2ᵏ, (q + 1)·2ᵏ)` with `8 ≤ q < 16`, or `k = 0`, and its bucket is `8k + q`. -/
lemma index_spec {n : ℕ} (h32 : n < 2 ^ 32) :
    ∃ k q, k ≤ 28 ∧ q < 16 ∧ (k = 0 ∨ 8 ≤ q) ∧ q * 2 ^ k ≤ n ∧ n < (q + 1) * 2 ^ k ∧ index n = 8 * k + q := by
  rcases Nat.lt_or_ge n 8 with h8 | h8
  · exact ⟨0, n, by omega, by omega, .inl rfl, by omega, by omega, (if_pos h8).trans (by omega)⟩
  obtain ⟨hlo, hhi, he⟩ := exponentFrom_spec (e := 31) (by omega : 0 < n) h32
  have h3 : 3 ≤ exponentFrom n 31 := by
    by_contra hc
    have := Nat.pow_le_pow_right (n := 2) (by decide) (show exponentFrom n 31 + 1 ≤ 3 by omega)
    omega
  obtain ⟨k, hk⟩ := Nat.exists_eq_add_of_le' h3
  rw [hk] at hlo hhi he
  have hpos := Nat.two_pow_pos k
  rw [pow_add] at hlo
  rw [show k + 3 + 1 = k + 4 from rfl, pow_add] at hhi
  have hq8 : 8 ≤ n / 2 ^ k := (Nat.le_div_iff_mul_le hpos).mpr (by omega)
  have hq16 : n / 2 ^ k < 16 := Nat.div_lt_of_lt_mul (by omega)
  refine ⟨k, n / 2 ^ k, by omega, hq16, .inr hq8, Nat.div_mul_le_self n _, Nat.lt_mul_of_div_lt (Nat.lt_succ_self _) hpos, ?_⟩
  unfold index subBuckets
  rw [if_neg (by omega), if_neg (by omega), hk]
  dsimp only
  rw [Nat.add_sub_cancel, Nat.shiftRight_eq_div_pow, show 8 - 1 = 2 ^ 3 - 1 from rfl, Nat.and_two_pow_sub_one_eq_mod]
  omega

lemma index_large {n : ℕ} (h : 2 ^ 32 ≤ n) : index n = 239 := by
  unfold index
  rw [if_neg (by unfold subBuckets; omega), if_pos (by omega)]
  rfl

lemma index_lt (n : ℕ) : index n < bucketCount := by
  show index n < 240
  rcases Nat.lt_or_ge n (2 ^ 32) with h32 | h32
  · obtain ⟨k, q, hk, hq, -, -, -, h⟩ := index_spec h32
    omega
  · rw [index_large h32]
    decide

lemma index_mono : Monotone index := by
  intro x y hxy
  rcases Nat.lt_or_ge y (2 ^ 32) with h32 | h32
  · obtain ⟨k, q, -, hq, hk, hlo, -, h⟩ := index_spec (hxy.trans_lt h32)
    obtain ⟨k', q', -, hq', hk', -, hhi', h'⟩ := index_spec h32
    rw [h, h']
    rcases Nat.lt_trichotomy k k' with hlt | rfl | hlt
    · omega
    · have := Nat.lt_of_mul_lt_mul_right (hlo.trans_lt (hxy.trans_lt hhi'))
      omega
    -- a larger exponent for the smaller value would put it above the other
    · have h16 : 16 * 2 ^ k' ≤ q * 2 ^ k := by
        calc 16 * 2 ^ k' = 8 * 2 ^ (k' + 1) := by ring
          _ ≤ q * 2 ^ k := Nat.mul_le_mul (by omega) (Nat.pow_le_pow_right (by decide) hlt)
      have := Nat.mul_le_mul_right (2 ^ k') (show q' + 1 ≤ 16 by omega)
      omega
  · rw [index_large h32]
    exact Nat.le_of_lt_succ (index_lt x)

/-- The bound of a value's bucket exceeds it by at most an eighth, up to the bucket that every larger value shares. -/
lemma upperBound_index {n : ℕ} (h : n < 15 * 2 ^ 28) :
    n ≤ upperBound (index n) ∧ upperBound (index n) ≤ n + n / 8 ∧ (n < 8 → upperBound (index n) = n) := by
  obtain ⟨k, q, hk, hq, hkq, hlo, hhi, hi⟩ := index_spec (h.trans (by decide))
  have hlast : 8 * k + q < 239 := by
    rcases hk.lt_or_eq with hk | rfl <;> omega
  have hu : upperBound (index n) = (q + 1) * 2 ^ k - 1 := by
    rw [hi]
    unfold upperBound bucketCount maximumExponent subBuckets
    split
    · rw [show k = 0 by omega, show 8 * 0 + q = q by omega, pow_zero, mul_one, Nat.add_sub_cancel]
    rw [if_neg (by omega)]
    dsimp only
    rw [Nat.shiftLeft_eq, show (8 * k + q - 8) / 8 + 3 - 3 = k by omega, show 8 + (8 * k + q - 8) % 8 + 1 = q + 1 by omega]
  rw [hu, Nat.succ_mul]
  rw [Nat.succ_mul] at hhi
  rcases hkq with rfl | h8
  · omega
  · have := (Nat.mul_le_mul_right (2 ^ k) h8).trans hlo
    omega

lemma upperBound_mono {a b : ℕ} (hab : a ≤ b) (hb : b < bucketCount) : upperBound a ≤ upperBound b := by
  have hstep : ∀ b < 239, upperBound b ≤ upperBound (b + 1) := by decide +kernel
  induction b, hab using Nat.le_induction with
  | base => exact le_rfl
  | succ b _ ih => exact (ih (Nat.lt_of_succ_lt hb)).trans (hstep b (Nat.lt_of_succ_lt_succ hb))

section

variable {h : LatencyHistogram} {samples : List ℕ}

/-- What a histogram holds of the samples recorded in it. -/
structure Holds (h : LatencyHistogram) (samples : List ℕ) : Prop where
  count : h.count = samples.length
  buckets : ∀ bucket, h.buckets bucket = samples.countP fun n => decide (index n = bucket)
  bounds : ∀ n ∈ samples, h.minimum ≤ n ∧ n ≤ h.maximum
  reached : h.minimum ∈ samples ∧ h.maximum ∈ samples ∨ samples = [] ∧ h.maximum = 0

lemma Holds.record (hh : h.Holds samples) (hlen : samples.length + 1 < 2 ^ 32) (n : ℕ) :
    (h.record n).Holds (n :: samples) where
  count := congrArg Nat.succ hh.count
  buckets bucket := by
    have hle := (hh.buckets (index n)).trans_le countP_le_length
    show Function.update h.buckets (index n) ((h.buckets (index n) + 1) % 2 ^ 32) bucket = _
    by_cases hb : bucket = index n
    · rw [hb, countP_cons_of_pos (by simp), Function.update_self, ← hh.buckets]
      exact Nat.mod_eq_of_lt (by omega)
    · rw [countP_cons_of_neg (by simpa using Ne.symm hb), Function.update_of_ne hb]
      exact hh.buckets bucket
  bounds m hm := by
    unfold LatencyHistogram.record
    dsimp only
    rcases mem_cons.mp hm with rfl | hm
    · constructor <;> split_ifs <;> omega
    · have := hh.bounds m hm
      have := length_pos_of_mem hm
      have := hh.count
      constructor <;> split_ifs <;> omega
  reached := by
    unfold LatencyHistogram.record
    dsimp only
    rcases hh.reached with ⟨hmin, hmax⟩ | ⟨rfl, hmax⟩
    · refine .inl ⟨?_, ?_⟩ <;> split_ifs <;> simp [hmin, hmax]
    · have h0 : h.count = 0 := hh.count
      refine .inl ⟨by simp [h0], ?_⟩
      rw [hmax, mem_singleton]
      split_ifs <;> omega

lemma Holds.perm {other : List ℕ} (hh : h.Holds samples) (hp : samples ~ other) : h.Holds other where
  count := hh.count.trans hp.length_eq
  buckets bucket := (hh.buckets bucket).trans (hp.countP_eq _)
  bounds n hn := hh.bounds n (hp.mem_iff.mpr hn)
  reached := by
    rw [← hp.mem_iff, ← hp.mem_iff]
    exact hh.reached.imp_right fun hr => ⟨(hr.1 ▸ hp).symm.eq_nil, hr.2⟩

lemma recorded_holds (hlen : samples.length < 2 ^ 32) : (recorded samples).Holds samples := by
  induction samples using List.reverseRecOn with
  | nil => exact ⟨rfl, fun _ => rfl, nofun, .inr ⟨rfl, rfl⟩⟩
  | append_singleton samples n ih =>
    rw [length_append, length_singleton] at hlen
    rw [recorded, foldl_concat]
    exact ((ih (by omega)).record hlen n).perm (perm_append_singleton n samples).symm

lemma clamp_mono {a b : ℕ} (hle : h.minimum ≤ h.maximum) (hab : a ≤ b) : h.clamp a ≤ h.clamp b := by
  unfold clamp
  split_ifs <;> omega

def below (samples : List ℕ) (bucket : ℕ) : ℕ := samples.countP fun n => decide (index n < bucket)

lemma below_succ (samples : List ℕ) (bucket : ℕ) :
    below samples (bucket + 1) = below samples bucket + samples.countP fun n => decide (index n = bucket) := by
  unfold below
  induction samples with
  | nil => rfl
  | cons n samples ih =>
    rw [countP_cons, countP_cons, countP_cons, ih]
    simp only [decide_eq_true_eq]
    split_ifs <;> omega

/-- In sorted order the sample of index `r` is counted below a bucket exactly when its own bucket is. -/
lemma lt_below (hs : samples.Pairwise (· ≤ ·)) {r : ℕ} (hr : r < samples.length) (bucket : ℕ) :
    r < below samples bucket ↔ index samples[r] < bucket := by
  have hsplit : samples = samples.take r ++ samples[r] :: samples.drop (r + 1) := by
    rw [getElem_cons_drop, take_append_drop]
  have hlen : (samples.take r).length = r := length_take_of_le hr.le
  have hcount := congrArg (below · bucket) hsplit
  dsimp only [below] at hcount
  rw [countP_append, countP_cons] at hcount
  rw [hsplit, pairwise_append, pairwise_cons] at hs
  obtain ⟨-, ⟨hpost, -⟩, hpre⟩ := hs
  rw [below, hcount]
  by_cases hb : index samples[r] < bucket
  · rw [countP_eq_length.mpr fun n hn => decide_eq_true ((index_mono (hpre n hn _ mem_cons_self)).trans_lt hb), hlen]
    simp only [hb, decide_true, if_true, iff_true]
    omega
  · rw [countP_eq_zero.mpr fun n hn hc => hb ((index_mono (hpost n hn)).trans_lt (of_decide_eq_true hc))]
    have := (countP_le_length (p := fun n => decide (index n < bucket))).trans_eq hlen
    simp only [hb, decide_false, Bool.false_eq_true, if_false, iff_false]
    omega

/-- The scan stops at the bucket of the sample its rank names. -/
lemma Holds.scan_range (hh : h.Holds samples) (hs : samples.Pairwise (· ≤ ·)) {r : ℕ} (hr : r < samples.length) {b n : ℕ}
    (hb : b ≤ index samples[r]) (hn : index samples[r] < b + n) :
    h.scan (r + 1) (below samples b) (range' b n) = h.clamp (upperBound (index samples[r])) := by
  induction n generalizing b with
  | zero => omega
  | succ n ih =>
    rw [range'_succ, scan, hh.buckets, ← below_succ]
    have hiff := lt_below hs hr (b + 1)
    split_ifs with hc
    · rw [show index samples[r] = b by omega]
    · exact ih (by omega) (by omega)

lemma Holds.percentile (hh : h.Holds samples) (hs : samples.Pairwise (· ≤ ·)) {perMille : ℕ}
    (hpos : 0 < rank samples.length perMille) (hr : rank samples.length perMille - 1 < samples.length) :
    h.percentile perMille = h.clamp (upperBound (index samples[rank samples.length perMille - 1])) := by
  have hz : below samples 0 = 0 := countP_eq_zero.mpr (by simp)
  have hscan := hh.scan_range hs hr (Nat.zero_le _) ((index_lt _).trans_eq (Nat.zero_add _).symm)
  rw [hz, ← range_eq_range', Nat.sub_add_cancel hpos] at hscan
  unfold LatencyHistogram.percentile
  rw [if_neg (by have := hh.count; omega), hh.count]
  exact hscan

lemma rank_pos (hne : samples ≠ []) {p : ℕ} (h1 : 1 ≤ p) : 0 < rank samples.length p :=
  Nat.div_pos (by have := Nat.mul_pos (length_pos_iff.mpr hne) h1; omega) (by decide)

lemma rank_le (samples : List ℕ) {p : ℕ} (h2 : p ≤ 1000) : rank samples.length p ≤ samples.length := by
  have := Nat.mul_le_mul_left samples.length h2
  unfold rank
  omega

theorem percentile_exact (hne : samples ≠ []) (hlen : samples.length < 2 ^ 32) {p : ℕ} (h1 : 1 ≤ p) (h2 : p ≤ 1000)
    (hrec : recorded samples = h) : ∃ s, (samples.insertionSort (· ≤ ·))[rank samples.length p - 1]? = some s ∧
      (s < 2 ^ 32 → (s ≤ h.percentile p ∧ h.percentile p ≤ s + s / 8 ∧ (s < 8 → h.percentile p = s) ↔
        s < 15 * 2 ^ 28 ∨ ∀ n ∈ samples, n ≤ s + s / 8)) ∧
      (∀ q, p ≤ q → q ≤ 1000 → h.percentile p ≤ h.percentile q) ∧
      h.minimum ≤ h.percentile p ∧ h.percentile p ≤ h.maximum ∧
      h.minimum ∈ samples ∧ h.maximum ∈ samples ∧ ∀ n ∈ samples, h.minimum ≤ n ∧ n ≤ h.maximum := by
  have hh : h.Holds (samples.insertionSort (· ≤ ·)) :=
    hrec ▸ (recorded_holds hlen).perm (perm_insertionSort (· ≤ ·) samples).symm
  have hs : (samples.insertionSort (· ≤ ·)).Pairwise (· ≤ ·) := pairwise_insertionSort (· ≤ ·) samples
  simp only [← mem_insertionSort (· ≤ ·) (l := samples)]
  rw [← length_insertionSort (· ≤ ·) samples]
  have hne' : samples.insertionSort (· ≤ ·) ≠ [] := by
    rwa [ne_eq, ← length_eq_zero_iff, length_insertionSort, length_eq_zero_iff]
  generalize samples.insertionSort (· ≤ ·) = l at *
  obtain ⟨hmin, hmax⟩ := hh.reached.resolve_right fun hc => hne' hc.1
  have hr (q) (hp : p ≤ q) (hq : q ≤ 1000) : 0 < rank l.length q ∧ rank l.length q - 1 < l.length := by
    have := rank_pos hne' (h1.trans hp)
    have := rank_le l hq
    omega
  obtain ⟨hpos, hlt⟩ := hr p le_rfl h2
  have hp := hh.percentile hs hpos hlt
  have hbs := hh.bounds _ (getElem_mem hlt)
  have hrange : h.minimum ≤ h.percentile p ∧ h.percentile p ≤ h.maximum := by
    rw [hp, clamp]
    split_ifs <;> omega
  refine ⟨_, getElem?_eq_getElem hlt, fun h32 => ?_, fun q hpq hq => ?_, hrange.1, hrange.2, hmin, hmax, hh.bounds⟩
  · generalize l[rank l.length p - 1] = s at *
    rcases Nat.lt_or_ge s (15 * 2 ^ 28) with hlow | hhigh
    · refine iff_of_true ?_ (.inl hlow)
      have := upperBound_index hlow
      rw [hp, clamp]
      split_ifs <;> omega
    -- in the last bucket the percentile is the maximum
    have hlast : index s = 239 := by
      have h239 : index (15 * 2 ^ 28) = 239 := by decide
      have hge := index_mono hhigh
      have hlt : index s < 240 := index_lt s
      omega
    have hu : upperBound 239 = 2 ^ 64 - 1 := by decide
    rw [hp, clamp, hlast, hu]
    refine ⟨fun hle => .inr fun n hn => ?_, fun hall => ?_⟩
    · have := (hh.bounds n hn).2
      split_ifs at hle <;> omega
    · have := hall.resolve_left hhigh.not_gt _ hmax
      split_ifs <;> omega
  · obtain ⟨hpos', hlt'⟩ := hr q hpq hq
    have hmono : rank l.length p ≤ rank l.length q :=
      Nat.div_le_div_right (Nat.add_le_add_right (Nat.mul_le_mul_left _ hpq) _)
    have hss : l[rank l.length p - 1] ≤ l[rank l.length q - 1] :=
      hs.rel_get_of_le (a := ⟨_, hlt⟩) (b := ⟨_, hlt'⟩) (Nat.sub_le_sub_right hmono 1)
    rw [hp, hh.percentile hs hpos' hlt']
    exact clamp_mono (hbs.1.trans hbs.2) (upperBound_mono (index_mono hss) (index_lt _))

theorem percentile_exact_last : (recorded [2 ^ 32, 5, 1000, 15 * 2 ^ 28]).percentile 750 ≤ 15 * 2 ^ 28 + 15 * 2 ^ 28 / 8 := by
  obtain ⟨s, hs, hexact, -⟩ := percentile_exact (p := 750) (by decide : [2 ^ 32, 5, 1000, 15 * 2 ^ 28] ≠ []) (by decide) (by decide)
    (by decide) rfl
  have h5 : ([2 ^ 32, 5, 1000, 15 * 2 ^ 28].insertionSort (· ≤ ·))[rank 4 750 - 1]? = some (15 * 2 ^ 28) := by decide
  cases h5.symm.trans hs
  exact ((hexact (by decide)).mpr (.inr (by decide))).2.1

/-- The last bucket holds the samples from 15·2²⁸ on, so its bound is the largest of all of them. -/
theorem percentile_last_bucket :
    ([15 * 2 ^ 28, 2 ^ 40].insertionSort (· ≤ ·))[rank 2 500 - 1]? = some (15 * 2 ^ 28) ∧
      (recorded [15 * 2 ^ 28, 2 ^ 40]).percentile 500 = 2 ^ 40 := by
  decide +kernel

end

end LatencyHistogram

end ObfuscationKernel.Time
