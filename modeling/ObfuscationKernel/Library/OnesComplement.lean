import Mathlib.Tactic

/-! One's complement sums of 16-bit words: folding the carry in keeps the value up to multiples of `0xffff`, and
adding the complement of a sum gives `0xffff`. -/

namespace ObfuscationKernel.Library.OnesComplement

def words : List UInt8 → ℕ
  | [] => 0
  | [a] => a.toNat * 256
  | a :: b :: rest => a.toNat * 256 + b.toNat + words rest

def fold (n : ℕ) : ℕ := n % 65536 + n / 65536

def residue (n : ℕ) : ℕ := if n = 0 then 0 else (n - 1) % 65535 + 1

variable {a b : List UInt8} {n m : ℕ}

lemma words_append (h : a.length % 2 = 0) : words (a ++ b) = words a + words b := by
  induction a using words.induct with
  | case1 => simp [words]
  | case2 x => simp at h
  | case3 x y rest ih =>
  simp only [List.length_cons] at h
  simp only [List.cons_append, words, ih (by omega)]
  omega

lemma residue_of_le (h : n ≤ 65535) : residue n = n := by
  unfold residue
  split
  · omega
  · rw [Nat.mod_eq_of_lt (by omega)]
    omega

lemma residue_le (n : ℕ) : residue n ≤ 65535 := by
  unfold residue
  split
  · omega
  · have := Nat.mod_lt (n - 1) (show 0 < 65535 by decide)
    omega

lemma residue_fold (n m : ℕ) : residue (fold n + m) = residue (n + m) := by
  unfold residue fold
  split_ifs <;> omega

lemma fold_le (h : n < 4 * 65536) : fold n ≤ 65538 := by
  unfold fold
  omega

lemma residue_complement (n : ℕ) : residue (n + (65535 - residue n)) = 65535 := by
  unfold residue
  split_ifs <;> omega

end ObfuscationKernel.Library.OnesComplement
