import ObfuscationKernel.Memory.Frames
import ObfuscationKernel.Library.Slots

/-! What the pure parts of the frame allocator compute: bits, counts, addresses and free runs. -/

namespace ObfuscationKernel.Memory

open ObfuscationKernel.Core Library List

section Bits

lemma getLsbD_mask {w j : ℕ} (hw : w < 64) : ((1#64 <<< w) - 1).getLsbD j = decide (j < w) := by
  have hpow : 2 ^ w < 2 ^ 64 := Nat.pow_lt_pow_right (by decide) hw
  have hnat : ((1#64 <<< w) - 1).toNat = 2 ^ w - 1 := by
    have h1 : (1#64 <<< w).toNat = 2 ^ w := by
      rw [BitVec.toNat_shiftLeft, BitVec.toNat_ofNat, Nat.shiftLeft_eq]
      simpa using hpow
    have hpos : 1 ≤ 2 ^ w := Nat.one_le_two_pow
    rw [BitVec.toNat_sub_of_le (by rw [BitVec.le_def, h1]; simpa using hpos), h1]
    rfl
  rw [← BitVec.testBit_toNat, hnat, Nat.testBit_two_pow_sub_one]

lemma halve_spec {c : BitVec 64} {w : ℕ} (hw : w < 64) (h : ∃ j < 2 * w, c.getLsbD j = true) :
    (c &&& ((1#64 <<< w) - 1) = 0 → ∃ j < w, (c >>> w).getLsbD j = true) ∧
    (c &&& ((1#64 <<< w) - 1) ≠ 0 → ∃ j < w, c.getLsbD j = true) := by
  obtain ⟨j, hj, hc⟩ := h
  constructor
  · intro h0
    have hjw : w ≤ j := by
      by_contra hlt
      have hbit := congrArg (fun b => b.getLsbD j) h0
      rw [BitVec.getLsbD_and, getLsbD_mask hw, hc, decide_eq_true (by omega)] at hbit
      simp at hbit
    exact ⟨j - w, by omega, by rw [BitVec.getLsbD_ushiftRight, show w + (j - w) = j by omega]; exact hc⟩
  intro hne
  by_contra hall
  push Not at hall
  apply hne
  refine BitVec.eq_of_getLsbD_eq fun i hi => ?_
  rw [BitVec.getLsbD_and, getLsbD_mask hw]
  by_cases hiw : i < w
  · simp [hall i hiw]
  · simp [hiw]

lemma lowestClearBit_spec {bits : BitVec 64} (h : bits ≠ ~~~0#64) :
    lowestClearBit bits < 64 ∧ bits.getLsbD (lowestClearBit bits) = false := by
  have hstart : ∃ j < 64, (~~~bits).getLsbD j = true := by
    by_contra hall
    push Not at hall
    apply h
    refine BitVec.eq_of_getLsbD_eq fun i hi => ?_
    have := hall i hi
    simp only [BitVec.getLsbD_not, hi, decide_true, Bool.true_and] at this ⊢
    simpa using this
  have hstep (c : BitVec 64 × ℕ) (w : ℕ) (hw : w < 64) (hc : ∃ j < 2 * w, c.1.getLsbD j = true)
      (hb : ∀ j, c.1.getLsbD j = (~~~bits).getLsbD (c.2 + j)) :
      let c' := if c.1 &&& ((1#64 <<< w) - 1) = 0 then (c.1 >>> w, c.2 + w) else c
      (∃ j < w, c'.1.getLsbD j = true) ∧ ∀ j, c'.1.getLsbD j = (~~~bits).getLsbD (c'.2 + j) := by
    split
    · next h0 => exact ⟨(halve_spec hw hc).1 h0, fun j => by rw [BitVec.getLsbD_ushiftRight, hb, Nat.add_assoc]⟩
    · next h0 => exact ⟨(halve_spec hw hc).2 h0, hb⟩
  obtain ⟨h1, b1⟩ := hstep (~~~bits, 0) 32 (by decide) hstart (by simp)
  obtain ⟨h2, b2⟩ := hstep _ 16 (by decide) h1 b1
  obtain ⟨h3, b3⟩ := hstep _ 8 (by decide) h2 b2
  obtain ⟨h4, b4⟩ := hstep _ 4 (by decide) h3 b3
  obtain ⟨h5, b5⟩ := hstep _ 2 (by decide) h4 b4
  obtain ⟨h6, b6⟩ := hstep _ 1 (by decide) h5 b5
  obtain ⟨j, hj, h6⟩ := h6
  obtain rfl : j = 0 := by omega
  rw [b6] at h6
  have hlow := h6
  simp only [BitVec.getLsbD_not, Bool.and_eq_true, decide_eq_true_eq, Bool.not_eq_true'] at hlow
  exact hlow

end Bits

section Counts

lemma countP_range_insert {p q : ℕ → Bool} {n i : ℕ} (hi : i < n) (hp : p i = false) (hq : q i = true)
    (h : ∀ j, j ≠ i → q j = p j) : (range n).countP q = (range n).countP p + 1 := by
  obtain rfl : q = Function.update p i true := Function.eq_update_iff.mpr ⟨hq, h⟩
  simpa [hp] using Slots.countP_update id p i true nodup_range (mem_range.mpr hi)

end Counts

section Ranges

variable {runs : List Run} {start index k k' : ℕ}

def framesBefore (runs : List Run) (k : ℕ) : ℕ := ((runs.take k).map Run.count).sum

lemma framesBefore_succ (hk : k < runs.length) : framesBefore runs (k + 1) = framesBefore runs k + runs[k].count := by
  rw [framesBefore, take_succ_eq_append_getElem hk, map_append, sum_append]
  simp [framesBefore]

lemma framesBefore_mono (runs : List Run) (h : k ≤ k') : framesBefore runs k ≤ framesBefore runs k' := by
  induction k', h using Nat.le_induction with
  | base => exact le_rfl
  | succ m _ ih =>
  refine ih.trans ?_
  by_cases hm : m < runs.length
  · rw [framesBefore_succ hm]
    omega
  · simp [framesBefore, take_of_length_le (show runs.length ≤ m by omega),
      take_of_length_le (show runs.length ≤ m + 1 by omega)]

lemma length_rangesOf (runs : List Run) (start : ℕ) : (rangesOf runs start).length = runs.length := by
  induction runs generalizing start with
  | nil => rfl
  | cons r rs ih => simp [rangesOf, ih]

lemma getD_rangesOf (hk : k < runs.length) (d : FrameRange) :
    (rangesOf runs start).getD k d = ⟨runs[k].base, start + framesBefore runs k, runs[k].count⟩ := by
  induction runs generalizing start k with
  | nil => simp at hk
  | cons r rs ih =>
  cases k with
  | zero => simp [rangesOf, framesBefore]
  | succ k =>
    rw [rangesOf, getD_cons_succ, ih (by simpa using hk)]
    simp [framesBefore, Nat.add_assoc]

lemma exists_run (h : index < (runs.map Run.count).sum) :
    ∃ k, ∃ hk : k < runs.length, framesBefore runs k ≤ index ∧ index < framesBefore runs k + runs[k].count := by
  induction runs generalizing index with
  | nil => simp at h
  | cons r rs ih =>
  by_cases hlt : index < r.count
  · exact ⟨0, by simp, by simp [framesBefore], by simpa [framesBefore] using hlt⟩
  have hrest : index - r.count < (rs.map Run.count).sum := by
    simp only [map_cons, sum_cons] at h
    omega
  obtain ⟨k, hk, h1, h2⟩ := ih hrest
  refine ⟨k + 1, by simpa using hk, ?_, ?_⟩
  · simp only [framesBefore, take_succ_cons, map_cons, sum_cons] at h1 ⊢
    omega
  · simp only [framesBefore, take_succ_cons, map_cons, sum_cons, getElem_cons_succ] at h2 ⊢
    omega

end Ranges

namespace FrameAllocator

variable {a : FrameAllocator} {i j k index : ℕ} {runs : List Run}

lemma used_mark (v : Bool) : (a.mark i v).used j = if j = i then v else a.used j := by
  have hm : i % 64 < 64 := Nat.mod_lt _ (by decide)
  have hm' : j % 64 < 64 := Nat.mod_lt _ (by decide)
  simp only [used, mark, Function.update_apply]
  by_cases hw : j / 64 = i / 64
  · have hji : j = i ↔ j % 64 = i % 64 := by
      constructor
      · rintro rfl
        rfl
      · intro h
        rw [← Nat.div_add_mod j 64, ← Nat.div_add_mod i 64, h, hw]
    have hbit : (1#64 <<< (i % 64)).getLsbD (j % 64) = decide (j % 64 = i % 64) := by
      rcases lt_trichotomy (j % 64) (i % 64) with h | h | h
      · simp [h, h.ne]
      · simp [h, hm]
      · simp [hm', h.ne', show ¬ j % 64 < i % 64 by omega, show ¬ j % 64 - i % 64 = 0 by omega]
    rw [if_pos hw]
    cases v
    · simp only [Bool.false_eq_true, if_false, BitVec.getLsbD_and, BitVec.getLsbD_not, hbit, hm', decide_true, hw, hji]
      by_cases h : j % 64 = i % 64 <;> simp [h]
    · simp only [if_true, BitVec.getLsbD_or, hbit, hw, hji]
      by_cases h : j % 64 = i % 64 <;> simp [h]
  · rw [if_neg hw, if_neg fun h => hw (by rw [h])]

structure Layout (a : FrameAllocator) (runs : List Run) : Prop where
  ranges : a.ranges = rangesOf runs 0
  total : a.frameCount = (runs.map Run.count).sum
  pages : 0 < a.pageSize
  runs : Runs a.pageSize addressLimit runs

lemma Layout.rangeAt (h : a.Layout runs) (hk : k < runs.length) :
    a.rangeAt k = ⟨runs[k].base, framesBefore runs k, runs[k].count⟩ := by
  rw [FrameAllocator.rangeAt, h.ranges, getD_rangesOf hk, Nat.zero_add]

lemma Layout.addressFor (h : a.Layout runs) (hk : k < runs.length) (hl : framesBefore runs k ≤ index)
    (hu : index < framesBefore runs k + runs[k].count) :
    a.addressFor index = runs[k].base + (index - framesBefore runs k) * a.pageSize := by
  unfold FrameAllocator.addressFor
  rw [bisect_complete (k := k)]
  · simp only [h.rangeAt hk]
  · rw [h.ranges, length_rangesOf]
    exact hk
  · simp only [h.rangeAt hk]
    rw [if_neg (by omega), if_neg (by omega)]
  · intro i hi
    simp only [h.rangeAt (hi.trans hk)]
    have hb := framesBefore_mono runs (show i + 1 ≤ k from hi)
    rw [framesBefore_succ (hi.trans hk)] at hb
    rw [if_neg (by omega), if_pos (by omega)]
  intro i hi hn
  rw [h.ranges, length_rangesOf] at hn
  have hb := framesBefore_mono runs (show k + 1 ≤ i from hi)
  rw [framesBefore_succ hk] at hb
  simp only [h.rangeAt hn]
  rw [if_pos (by omega)]

lemma Layout.addressFor_add_le (h : a.Layout runs) (hij : i < j) (hj : j < a.frameCount) :
    a.addressFor i + a.pageSize ≤ a.addressFor j := by
  obtain ⟨k, hk, hl, hu⟩ := exists_run (h.total ▸ hij.trans hj)
  obtain ⟨m, hm, hl', hu'⟩ := exists_run (h.total ▸ hj)
  rw [h.addressFor hk hl hu, h.addressFor hm hl' hu']
  rcases lt_trichotomy k m with hkm | rfl | hkm
  · have hord := pairwise_iff_getElem.mp h.runs.ordered k m hk hm hkm
    have hmul : (i - framesBefore runs k + 1) * a.pageSize ≤ runs[k].count * a.pageSize := Nat.mul_le_mul_right _ (by omega)
    rw [Nat.succ_mul] at hmul
    omega
  · have hmul : (i - framesBefore runs k + 1) * a.pageSize ≤ (j - framesBefore runs k) * a.pageSize :=
      Nat.mul_le_mul_right _ (by omega)
    rw [Nat.succ_mul] at hmul
    omega
  have hb := framesBefore_mono runs (show m + 1 ≤ k from hkm)
  rw [framesBefore_succ hm] at hb
  omega

lemma Layout.addressFor_inj (h : a.Layout runs) (hi : i < a.frameCount) (hj : j < a.frameCount)
    (he : a.addressFor i = a.addressFor j) : i = j := by
  have hp := h.pages
  rcases lt_trichotomy i j with hlt | heq | hlt
  · have := h.addressFor_add_le hlt hj
    omega
  · exact heq
  · have := h.addressFor_add_le hlt hi
    omega

lemma Layout.addressFor_page (h : a.Layout runs) (hi : i < a.frameCount) :
    a.pageSize ∣ a.addressFor i ∧ a.addressFor i + a.pageSize ≤ addressLimit := by
  obtain ⟨k, hk, hl, hu⟩ := exists_run (h.total ▸ hi)
  rw [h.addressFor hk hl hu]
  have hb := h.runs.bounded _ (getElem_mem hk)
  have hmul : (i - framesBefore runs k + 1) * a.pageSize ≤ runs[k].count * a.pageSize := Nat.mul_le_mul_right _ (by omega)
  rw [Nat.succ_mul] at hmul
  exact ⟨Dvd.dvd.add (h.runs.aligned _ (getElem_mem hk)).1 (Nat.dvd_mul_left _ _), by omega⟩

lemma scanRange_spec {count alignment left run first : ℕ} {range : FrameRange} (hl : left ≤ range.count)
    (hr : run ≤ range.count - left)
    (hfree : ∀ o, range.count - left - run ≤ o → o < range.count - left → a.used (range.firstIndex + o) = false)
    (h : a.scanRange count alignment range left run = some first) :
    range.firstIndex ≤ first ∧ first + count ≤ range.firstIndex + range.count ∧ ∀ i < count, a.used (first + i) = false := by
  induction left generalizing run with
  | zero => simp [scanRange] at h
  | succ left ih =>
  rw [scanRange] at h
  have hfree' : ∀ o, range.count - left - (if a.used (range.firstIndex + (range.count - (left + 1))) then 0 else run + 1) ≤ o →
      o < range.count - left → a.used (range.firstIndex + o) = false := by
    intro o ho ho'
    split at ho
    · omega
    next hu =>
    rcases Nat.lt_or_ge o (range.count - (left + 1)) with hlt | hge
    · exact hfree o (by omega) hlt
    · rw [show o = range.count - (left + 1) by omega]
      simpa using hu
  have hrun : (if a.used (range.firstIndex + (range.count - (left + 1))) then 0 else run + 1) ≤ range.count - left := by
    split <;> omega
  generalize (if a.used (range.firstIndex + (range.count - (left + 1))) then 0 else run + 1) = r at h hfree' hrun
  split at h
  · exact ih (by omega) hrun hfree' h
  next hn =>
  cases h
  refine ⟨by omega, by omega, fun i hi => ?_⟩
  rw [show range.firstIndex + (range.count - (left + 1)) + 1 - count + i =
    range.firstIndex + (range.count - left - count + i) by omega]
  exact hfree' _ (by omega) (by omega)

end FrameAllocator

end ObfuscationKernel.Memory
