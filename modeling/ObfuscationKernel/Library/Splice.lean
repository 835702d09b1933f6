import Mathlib.Data.List.Basic

/-! Lists whose elements of one kind are replaced, one after the other, by lists of elements of the other kind at the end. -/

namespace ObfuscationKernel.Library

open List

variable {α : Type} (t : α → Bool) (g : α → List α)

def spliced (xs : List α) : List α := xs.filter (fun x => !t x) ++ (xs.filter t).flatMap g

/-- The list stays within the capacity when its first `n` elements of the kind are replaced, for every `n`. -/
def SpliceRoom (capacity : ℕ) (xs : List α) : Prop :=
  ∀ n ≤ xs.countP t, xs.length - n + (((xs.filter t).take n).flatMap g).length ≤ capacity

variable {t g} {xs : List α} {capacity : ℕ}

lemma spliced_of_none (h : ∀ x ∈ xs, ¬ t x = true) : spliced t g xs = xs ∧ (xs.length ≤ capacity → SpliceRoom t g capacity xs) := by
  refine ⟨?_, fun hlen n hn => ?_⟩
  · rw [spliced, filter_eq_nil_iff.mpr h, filter_eq_self.mpr fun x hx => by simpa using h x hx, flatMap_nil, append_nil]
  · rw [countP_eq_zero.mpr h, Nat.le_zero] at hn
    simpa [hn] using hlen

/-- One step of the replacement changes neither the list that it leads to nor whether there is room. -/
lemma spliced_step {before after : List α} {x : α} (hx : t x = true) (hbefore : ∀ y ∈ before, t y = false)
    (hg : ∀ y ∈ g x, t y = false) (hlen : (before ++ x :: after).length ≤ capacity) :
    (before ++ x :: after).countP t = (before ++ after ++ g x).countP t + 1 ∧
      spliced t g (before ++ x :: after) = spliced t g (before ++ after ++ g x) ∧
      (SpliceRoom t g capacity (before ++ x :: after) ↔ SpliceRoom t g capacity (before ++ after ++ g x)) := by
  have hb0 : before.filter t = [] := filter_eq_nil_iff.mpr fun y hy => by simp [hbefore y hy]
  have hg0 : (g x).filter t = [] := filter_eq_nil_iff.mpr fun y hy => by simp [hg y hy]
  have hg1 : (g x).filter (fun y => !t y) = g x := filter_eq_self.mpr fun y hy => by simp [hg y hy]
  have h1 : (before ++ x :: after).filter t = x :: after.filter t := by
    rw [filter_append, filter_cons_of_pos hx, hb0, nil_append]
  have h2 : (before ++ after ++ g x).filter t = after.filter t := by
    rw [filter_append, filter_append, hb0, nil_append, hg0, append_nil]
  have hcount : (before ++ x :: after).countP t = (before ++ after ++ g x).countP t + 1 := by
    rw [countP_eq_length_filter, countP_eq_length_filter, h1, h2, length_cons]
  refine ⟨hcount, ?_, ?_⟩
  · rw [spliced, spliced, h1, h2, flatMap_cons, filter_append, filter_append, filter_append, hg1,
      filter_cons_of_neg (by simp [hx])]
    simp only [append_assoc]
  have hle : (before ++ after ++ g x).countP t ≤ after.length := by
    rw [countP_eq_length_filter, h2]
    exact length_filter_le _ _
  unfold SpliceRoom
  rw [hcount, h1, h2]
  simp only [length_append, length_cons] at hlen ⊢
  refine ⟨fun h n hn => ?_, fun h n hn => ?_⟩
  · have := h (n + 1) (by omega)
    rw [take_succ_cons, flatMap_cons, length_append] at this
    omega
  cases n with
  | zero => simpa using hlen
  | succ n =>
    have := h n (by omega)
    rw [take_succ_cons, flatMap_cons, length_append]
    omega

lemma SpliceRoom.length (h : SpliceRoom t g capacity xs) : (spliced t g xs).length ≤ capacity := by
  have hlast := h _ (Nat.le_refl _)
  rw [countP_eq_length_filter, take_length] at hlast
  have := length_eq_length_filter_add (l := xs) t
  rw [spliced, length_append]
  omega

end ObfuscationKernel.Library
