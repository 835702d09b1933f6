import Mathlib.Tactic

/-! Bisection over the positions of a sorted sequence. -/

namespace ObfuscationKernel.Library

/-- The bisection of `[low, high)` under `side`, which tells on which side of a position the target lies.
`fuel` bounds the number of halvings. -/
def bisectIn (side : ℕ → Ordering) : ℕ → ℕ → ℕ → Option ℕ
  | 0, _, _ => none
  | fuel + 1, low, high =>
    if low < high then
      let middle := low + (high - low) / 2
      match side middle with
      | .lt => bisectIn side fuel low middle
      | .gt => bisectIn side fuel (middle + 1) high
      | .eq => some middle
    else none

def bisect (side : ℕ → Ordering) (n : ℕ) : Option ℕ := bisectIn side (n + 1) 0 n

variable {side : ℕ → Ordering} {fuel low high n k m : ℕ}

lemma bisectIn_sound (h : bisectIn side fuel low high = some m) : low ≤ m ∧ m < high ∧ side m = .eq := by
  induction fuel generalizing low high with
  | zero => simp [bisectIn] at h
  | succ fuel ih =>
  rw [bisectIn] at h
  split at h
  · dsimp only at h
    split at h
    · obtain ⟨h1, h2, h3⟩ := ih h
      exact ⟨h1, by omega, h3⟩
    · obtain ⟨h1, h2, h3⟩ := ih h
      exact ⟨by omega, h2, h3⟩
    next hs =>
    cases h
    exact ⟨by omega, by omega, hs⟩
  · cases h

lemma bisectIn_complete (hf : high - low < fuel) (hl : low ≤ k) (hh : k < high) (he : side k = .eq)
    (hlt : ∀ i < k, side i = .gt) (hgt : ∀ i, k < i → i < high → side i = .lt) : bisectIn side fuel low high = some k := by
  induction fuel generalizing low high with
  | zero => omega
  | succ fuel ih =>
  rw [bisectIn, if_pos (by omega)]
  dsimp only
  rcases lt_trichotomy (low + (high - low) / 2) k with h | h | h
  · rw [hlt _ h]
    exact ih (by omega) (by omega) hh hgt
  · rw [h, he]
  · rw [hgt _ h (by omega)]
    exact ih (by omega) hl h fun i hi hi' => hgt i hi (by omega)

lemma bisect_sound (h : bisect side n = some m) : m < n ∧ side m = .eq :=
  (bisectIn_sound h).2

lemma bisect_complete (hk : k < n) (he : side k = .eq) (hlt : ∀ i < k, side i = .gt)
    (hgt : ∀ i, k < i → i < n → side i = .lt) : bisect side n = some k :=
  bisectIn_complete (by omega) (Nat.zero_le _) hk he hlt hgt

end ObfuscationKernel.Library
