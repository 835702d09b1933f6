import Mathlib.Data.BitVec
import Mathlib.Tactic

/-! Serial-number arithmetic: comparisons on a circle of `2 ^ w` numbers, read
through natural-number distances from a fixed base. -/

namespace ObfuscationKernel.Library.Serial

variable {w : ℕ}

def before (a b : BitVec w) : Bool := a != b && decide ((b - a).toNat < 2 ^ (w - 1))

def after (a b : BitVec w) : Bool := before b a

def between (value first last : BitVec w) : Bool :=
  decide ((last - first).toNat < 2 ^ (w - 1)) && decide ((value - first).toNat ≤ (last - first).toNat)

def offset (base : BitVec w) (i : ℕ) : BitVec w := base + BitVec.ofNat w i

@[simp] lemma offset_zero (base : BitVec w) : offset base 0 = base := by
  simp [offset]

lemma offset_add (base : BitVec w) (i j : ℕ) : offset (offset base i) j = offset base (i + j) := by
  simp only [offset, BitVec.add_assoc, BitVec.ofNat_add]

lemma add_ofNat (base : BitVec w) (i j : ℕ) : offset base i + BitVec.ofNat w j = offset base (i + j) :=
  offset_add base i j

lemma add_one (base : BitVec w) (i : ℕ) : offset base i + 1 = offset base (i + 1) :=
  offset_add base i 1

lemma offset_sub (base : BitVec w) {i j : ℕ} (h : i ≤ j) : offset base j - offset base i = BitVec.ofNat w (j - i) := by
  obtain ⟨k, rfl⟩ := Nat.exists_eq_add_of_le h
  rw [← offset_add, Nat.add_sub_cancel_left]
  simp only [offset]
  abel

lemma distance (base : BitVec w) {i j : ℕ} (h : i ≤ j) (hw : j - i < 2 ^ w) :
    (offset base j - offset base i).toNat = j - i := by
  rw [offset_sub base h, BitVec.toNat_ofNat, Nat.mod_eq_of_lt hw]

lemma distance_back (base : BitVec w) {i j : ℕ} (h : i < j) (hw : j - i < 2 ^ w) :
    (offset base i - offset base j).toNat = 2 ^ w - (j - i) := by
  have hn : offset base i - offset base j = -(BitVec.ofNat w (j - i)) := by
    rw [← offset_sub base h.le]
    abel
  rw [hn, BitVec.toNat_neg, BitVec.toNat_ofNat, Nat.mod_eq_of_lt hw, Nat.mod_eq_of_lt]
  omega

lemma offset_inj (base : BitVec w) {i j : ℕ} (h : i ≤ j) (hw : j - i < 2 ^ w) : offset base i = offset base j ↔ i = j := by
  constructor
  · intro he
    have hd := distance base h hw
    rw [he, BitVec.sub_self, BitVec.toNat_zero] at hd
    omega
  · rintro rfl
    rfl

lemma offset_beq (base : BitVec w) {i j : ℕ} (h : i ≤ j) (hw : j - i < 2 ^ w) :
    (offset base i == offset base j) = (i == j) := by
  rw [Bool.eq_iff_iff, beq_iff_eq, beq_iff_eq, offset_inj base h hw]

lemma half_add_half (hw : 0 < w) : 2 ^ (w - 1) + 2 ^ (w - 1) = 2 ^ w := by
  obtain ⟨v, rfl⟩ := Nat.exists_eq_succ_of_ne_zero hw.ne'
  rw [Nat.succ_eq_add_one, Nat.add_sub_cancel, pow_succ]
  omega

lemma before_offset (base : BitVec w) {i j : ℕ} (hi : i < j + 2 ^ (w - 1))
    (hj : j < i + 2 ^ (w - 1)) : before (offset base i) (offset base j) = decide (i < j) := by
  rcases Nat.eq_zero_or_pos w with rfl | hw
  · have he : i = j := by simp at hi hj; omega
    simp [before, he]
  have hh := half_add_half hw
  rcases lt_trichotomy i j with h | rfl | h
  · have hd := distance base h.le (by omega)
    have hn : offset base i ≠ offset base j := by
      rw [Ne, offset_inj base h.le (by omega)]
      omega
    simp only [before, hd, bne_iff_ne, ne_eq, hn, not_false_eq_true, h, decide_true,
      Bool.and_eq_true, decide_eq_true_eq, true_and]
    omega
  · simp [before]
  have hd := distance_back base h (by omega)
  have hl : ¬ i < j := by omega
  simp only [before, hd, hl, decide_false, Bool.and_eq_false_iff, decide_eq_false_iff_not]
  exact Or.inr (by omega)

lemma after_offset (base : BitVec w) {i j : ℕ} (hi : i < j + 2 ^ (w - 1))
    (hj : j < i + 2 ^ (w - 1)) : after (offset base i) (offset base j) = decide (j < i) :=
  before_offset base hj hi

lemma offset_distance (base a : BitVec w) : offset base (a - base).toNat = a := by
  rw [offset, BitVec.ofNat_toNat, BitVec.setWidth_eq]
  abel

lemma after_iff (a b : BitVec w) : after a b = true ↔ 0 < (a - b).toNat ∧ (a - b).toNat < 2 ^ (w - 1) := by
  have hz : b ≠ a ↔ 0 < (a - b).toNat := by
    rw [Nat.pos_iff_ne_zero, not_iff_not]
    constructor
    · rintro rfl
      simp
    intro h
    have hd := offset_distance b a
    rwa [h, offset_zero] at hd
  simp only [after, before, Bool.and_eq_true, bne_iff_ne, hz, decide_eq_true_eq]

lemma toInt_sub_of_lt {a b : BitVec w} (h : 2 * (a - b).toNat < 2 ^ w) : (a - b).toInt = (a - b).toNat :=
  BitVec.toInt_eq_toNat_of_lt h

lemma toInt_sub_of_before {a b : BitVec w} (h : before a b = true) : (a - b).toInt = -((b - a).toNat : ℤ) := by
  obtain ⟨hp, hl⟩ := (after_iff b a).mp h
  rcases Nat.eq_zero_or_pos w with rfl | hw
  · exact absurd hp (by simp [BitVec.of_length_zero])
  have hh := half_add_half hw
  have hn : (a - b).toNat = 2 ^ w - (b - a).toNat := by
    rw [show a - b = -(b - a) by abel, BitVec.toNat_neg, Nat.mod_eq_of_lt (by omega)]
  rw [BitVec.toInt_eq_toNat_cond, if_neg (by omega), hn]
  omega

lemma toInt_offset_sub (base : BitVec w) {i j : ℕ} (hi : i < j + 2 ^ (w - 1)) (hj : j ≤ i + 2 ^ (w - 1))
    (hw : 0 < w) : (offset base i - offset base j).toInt = (i : ℤ) - j := by
  have hh := half_add_half hw
  have hpos := Nat.two_pow_pos (w - 1)
  rcases le_or_gt j i with h | h
  · have hd := distance base h (by omega)
    rw [toInt_sub_of_lt (by omega), hd]
    omega
  have hd := distance_back base h (by omega)
  rw [BitVec.toInt_eq_toNat_cond, if_neg (by omega), hd]
  omega

end ObfuscationKernel.Library.Serial
