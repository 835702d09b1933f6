import Mathlib.Data.List.FinRange
import Mathlib.Tactic

/-! Counting over a finite family of slots, of which one changes at a time, and picking the
slot with the least key. -/

namespace ObfuscationKernel.Library.Slots

open Function List

variable {n : ℕ} {α : Type} {P Q : α → Bool} {f g : Fin n → α}

def count (P : α → Bool) (f : Fin n → α) : ℕ := (List.finRange n).countP fun i => P (f i)

lemma count_congr (h : ∀ i, P (f i) = Q (g i)) : count P f = count Q g :=
  countP_congr fun i _ => by rw [h i]

lemma count_le (h : ∀ i, P (f i) = true → Q (g i) = true) : count P f ≤ count Q g :=
  countP_mono_left fun i _ => h i

lemma count_pos_iff : 0 < count P f ↔ ∃ i, P (f i) = true := by
  simp [count, countP_pos_iff]

lemma count_eq_zero_iff : count P f = 0 ↔ ∀ i, P (f i) = false := by
  simp [count, countP_eq_zero]

lemma countP_update {ι : Type} [DecidableEq ι] (P : α → Bool) (f : ι → α) (i : ι) (x : α) {l : List ι} (hl : l.Nodup)
    (hi : i ∈ l) : l.countP (fun k => P (update f i x k)) + (P (f i)).toNat = l.countP (fun k => P (f k)) + (P x).toNat := by
  have hout {m : List ι} (hm : i ∉ m) : m.countP (fun k => P (update f i x k)) = m.countP fun k => P (f k) := by
    refine countP_congr fun k hk => ?_
    rw [update_of_ne (ne_of_mem_of_not_mem hk hm)]
  obtain ⟨s, t, rfl⟩ := append_of_mem hi
  obtain ⟨_, ht, hd⟩ := nodup_append.mp hl
  have hs : i ∉ s := fun h => hd i h i (.head _) rfl
  have ht' := (nodup_cons.mp ht).1
  simp only [countP_append, countP_cons, hout hs, hout ht', update_self]
  cases P (f i) <;> cases P x <;> simp <;> omega

lemma count_update (P : α → Bool) (f : Fin n → α) (i : Fin n) (x : α) :
    count P (update f i x) + (P (f i)).toNat = count P f + (P x).toNat :=
  countP_update P f i x (nodup_finRange n) (mem_finRange i)

lemma count_update_of_eq {i : Fin n} {x : α} (h : P x = P (f i)) : count P (update f i x) = count P f := by
  have hc := count_update P f i x
  rw [h] at hc
  omega

variable {ι : Type} {good : ι → Bool} {key : ι → ℕ} {bound : ℕ} {slots : List ι} {i : ι}

def pick (good : ι → Bool) (key : ι → ℕ) (bound : ℕ) (slots : List ι) : Option ι × ℕ :=
  slots.foldl (fun best i => if good i && decide (key i ≤ best.2) then (some i, key i) else best) (none, bound)

lemma pick_concat (slots : List ι) (k : ι) : pick good key bound (slots ++ [k]) =
    if good k && decide (key k ≤ (pick good key bound slots).2) then (some k, key k) else pick good key bound slots := by
  simp [pick]

lemma pick_sound (slots : List ι) : (pick good key bound slots).2 ≤ bound ∧
      ((pick good key bound slots).1 = none → (pick good key bound slots).2 = bound) ∧
      ∀ i, (pick good key bound slots).1 = some i → good i = true ∧ (pick good key bound slots).2 = key i := by
  induction slots using reverseRecOn with
  | nil => simp [pick]
  | append_singleton slots k ih =>
  rw [pick_concat]
  split
  · next h =>
    simp only [Bool.and_eq_true, decide_eq_true_eq] at h
    exact ⟨h.2.trans ih.1, by simp, fun i hi => by cases hi; exact ⟨h.1, rfl⟩⟩
  · exact ih

lemma pick_none (h : (pick good key bound slots).1 = none) (hi : i ∈ slots) (hg : good i = true) : bound < key i := by
  induction slots using reverseRecOn with
  | nil => simp at hi
  | append_singleton slots k ih =>
  rw [pick_concat] at h
  split at h
  · cases h
  next hk =>
  rcases mem_append.mp hi with hi | hi
  · exact ih h hi
  rw [mem_singleton.mp hi] at hg ⊢
  rw [(pick_sound slots).2.1 h] at hk
  simpa [hg] using hk

def least (good : ι → Bool) (key : ι → ℕ) (slots : List ι) : Option ι :=
  slots.foldl (fun found i => if good i && found.all (fun j => decide (key i < key j)) then some i else found) none

lemma least_concat (slots : List ι) (k : ι) : least good key (slots ++ [k]) =
    if good k && (least good key slots).all (fun j => decide (key k < key j)) then some k else least good key slots := by
  simp [least]

lemma least_none (h : least good key slots = none) (hi : i ∈ slots) : good i = false := by
  induction slots using reverseRecOn with
  | nil => simp at hi
  | append_singleton slots k ih =>
  rw [least_concat] at h
  split at h
  · cases h
  next hk =>
  rcases mem_append.mp hi with hi | hi
  · exact ih h hi
  · rw [mem_singleton.mp hi]
    simpa [h] using hk

lemma least_some {j : ι} (h : least good key slots = some j) :
    good j = true ∧ ∀ i ∈ slots, good i = true → key j ≤ key i := by
  induction slots using reverseRecOn generalizing j with
  | nil => simp [least] at h
  | append_singleton slots k ih =>
  rw [least_concat] at h
  split at h
  · next hk =>
    cases h
    simp only [Bool.and_eq_true] at hk
    refine ⟨hk.1, fun i hi hg => ?_⟩
    rcases mem_append.mp hi with hi | hi
    · cases hl : least good key slots with
      | none => simp [least_none hl hi] at hg
      | some m =>
      have hlt : key k < key m := by simpa [hl] using hk.2
      have := (ih hl).2 i hi hg
      omega
    · rw [mem_singleton.mp hi]
  next hk =>
  refine ⟨(ih h).1, fun i hi hg => ?_⟩
  rcases mem_append.mp hi with hi | hi
  · exact (ih h).2 i hi hg
  · rw [mem_singleton.mp hi] at hg ⊢
    simpa [h, hg] using hk

end ObfuscationKernel.Library.Slots
