import Mathlib.Data.Vector.Basic
import Mathlib.Tactic

/-! Ring buffers addressed by unbounded positions: position `p` lives in cell `p % n`. -/

namespace ObfuscationKernel.Library

structure Ring (α : Type) (n : ℕ) where
  cells : Vector α n
  deriving DecidableEq, Repr

namespace Ring

variable {α : Type} {n : ℕ}

def fill (n : ℕ) (x : α) : Ring α n := ⟨Vector.replicate n x⟩

def put (b : Ring α n) (p : ℕ) (x : α) : Ring α n := ⟨b.cells.setIfInBounds (p % n) x⟩

def store (b : Ring α n) (p : ℕ) : List α → Ring α n
  | [] => b
  | x :: xs => store (b.put p x) (p + 1) xs

lemma put_congr (b : Ring α n) {p q : ℕ} (h : p % n = q % n) (x : α) : b.put p x = b.put q x := by
  simp only [put, h]

lemma store_congr (b : Ring α n) {p q : ℕ} (h : p % n = q % n) (xs : List α) : b.store p xs = b.store q xs := by
  induction xs generalizing b p q with
  | nil => rfl
  | cons x xs ih =>
    rw [store, store, put_congr b h]
    exact ih _ (Nat.ModEq.add_right 1 h)

variable [Inhabited α]

def get (b : Ring α n) (p : ℕ) : α := b.cells[p % n]?.getD default

def slice (b : Ring α n) (p k : ℕ) : List α := (List.range k).map fun i => b.get (p + i)

lemma get_congr (b : Ring α n) {p q : ℕ} (h : p % n = q % n) : b.get p = b.get q := by
  simp only [get, h]

lemma get_put_same (hn : 0 < n) (b : Ring α n) (p : ℕ) (x : α) : (b.put p x).get p = x := by
  simp [get, put, Nat.mod_lt p hn]

lemma get_put_other (b : Ring α n) {p q : ℕ} (h : p % n ≠ q % n) (x : α) : (b.put p x).get q = b.get q := by
  simp [get, put, h]

lemma mod_ne {p q : ℕ} (h : p < q) (hn : q < p + n) : p % n ≠ q % n := by
  intro he
  have hd := (Nat.modEq_iff_dvd' h.le).mp he
  have hz := Nat.eq_zero_of_dvd_of_lt hd (by omega)
  omega

lemma get_store_outside (b : Ring α n) (p : ℕ) (xs : List α) {q : ℕ}
    (h : q < p ∧ p + xs.length ≤ q + n ∨ p + xs.length ≤ q ∧ q < p + n) :
    (b.store p xs).get q = b.get q := by
  induction xs generalizing b p with
  | nil => rfl
  | cons x xs ih =>
  simp only [List.length_cons] at h
  rw [store, ih (b.put p x) (p + 1) (by omega)]
  apply get_put_other
  rcases h with h | h
  · exact (mod_ne h.1 (by omega)).symm
  · exact mod_ne (by omega) (by omega)

lemma get_store_inside (hn : 0 < n) (b : Ring α n) (p : ℕ) (xs : List α) (hx : xs.length ≤ n)
    {i : ℕ} (hi : i < xs.length) : (b.store p xs).get (p + i) = xs[i] := by
  induction xs generalizing b p i with
  | nil => simp at hi
  | cons x xs ih =>
  simp only [List.length_cons] at hx hi
  rw [store]
  cases i with
  | zero =>
    rw [get_store_outside _ _ _ (Or.inl ⟨by omega, by omega⟩), Nat.add_zero, get_put_same hn]
    rfl
  | succ i =>
  have hs := ih (b.put p x) (p + 1) (by omega) (i := i) (by omega)
  rw [show p + (i + 1) = p + 1 + i by omega, hs]
  rfl

@[simp] lemma length_slice (b : Ring α n) (p k : ℕ) : (b.slice p k).length = k := by
  simp [slice]

@[simp] lemma getElem_slice (b : Ring α n) (p k : ℕ) {i : ℕ} (h : i < (b.slice p k).length) :
    (b.slice p k)[i] = b.get (p + i) := by
  simp [slice]

/-- The ring keeps the last `size` elements of the stream `w`, the oldest of them at `head`. -/
structure Keeps (b : Ring α n) (w : List α) (head size : ℕ) : Prop where
  size_le : size ≤ n
  size_le_length : size ≤ w.length
  head_mod : head % n = (w.length - size) % n
  get_eq : ∀ p (h : p < w.length), w.length - size ≤ p → b.get p = w[p]

namespace Keeps

variable {b : Ring α n} {w : List α} {head size : ℕ}

lemma none (b : Ring α n) : b.Keeps [] 0 0 where
  size_le := n.zero_le
  size_le_length := le_rfl
  head_mod := rfl
  get_eq := by simp

lemma add_mod (h : b.Keeps w head size) (i : ℕ) : (head + i) % n = (w.length - size + i) % n :=
  Nat.ModEq.add_right i h.head_mod

lemma append (h : b.Keeps w head size) (hn : 0 < n) (xs : List α) (hx : xs.length ≤ n - size) :
    (b.store (head + size) xs).Keeps (w ++ xs) head (size + xs.length) := by
  have hs := h.size_le
  have hl := h.size_le_length
  have he : b.store (head + size) xs = b.store w.length xs :=
    store_congr b (by rw [h.add_mod, Nat.sub_add_cancel hl]) xs
  refine ⟨by omega, by simp; omega, ?_, ?_⟩
  · rw [h.head_mod, List.length_append]
    congr 1
    omega
  intro p hp hb
  simp only [List.length_append] at hp hb
  rw [he, List.getElem_append]
  split
  · next hw =>
    rw [get_store_outside b _ _ (by omega)]
    exact h.get_eq p hw (by omega)
  next hw =>
  have hi : p - w.length < xs.length := by omega
  have hg := get_store_inside hn b w.length xs (by omega) hi
  rwa [Nat.add_sub_cancel' (by omega)] at hg

lemma release (h : b.Keeps w head size) {r : ℕ} (hr : r ≤ size) : b.Keeps w ((head + r) % n) (size - r) := by
  have hl := h.size_le_length
  refine ⟨(Nat.sub_le _ _).trans h.size_le, by omega, ?_, fun p hp hb => h.get_eq p hp (by omega)⟩
  rw [Nat.mod_mod, h.add_mod]
  congr 1
  omega

lemma slice_eq (h : b.Keeps w head size) {i k : ℕ} (hk : i + k ≤ size) :
    b.slice (head + i) k = (w.drop (w.length - size + i)).take k := by
  have hl := h.size_le_length
  apply List.ext_getElem
  · simp only [length_slice, List.length_take, List.length_drop]
    omega
  intro j hj hj'
  rw [getElem_slice, List.getElem_take, List.getElem_drop, add_assoc, ← h.get_eq _ _ (by omega)]
  apply get_congr
  rw [h.add_mod]
  congr 1
  omega

end Keeps

end Ring

end ObfuscationKernel.Library
