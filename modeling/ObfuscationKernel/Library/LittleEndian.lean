import Mathlib.Data.Nat.ModEq
import Mathlib.Data.List.Basic

/-! Numbers of a fixed number of bytes inside a list of bytes, the least significant byte first. -/

namespace ObfuscationKernel.Library

open List

def le (bytes : List UInt8) (first : ℕ) : ℕ → ℕ
  | 0 => 0
  | n + 1 => (bytes.getD first 0).toNat + 256 * le bytes (first + 1) n

def storeLe (bytes : List UInt8) (first value : ℕ) : ℕ → List UInt8
  | 0 => bytes
  | n + 1 => (storeLe bytes (first + 1) (value / 256) n).set first (UInt8.ofNat value)

variable {bytes other : List UInt8} {first value n i : ℕ}

@[simp] lemma length_storeLe : (storeLe bytes first value n).length = bytes.length := by
  induction n generalizing first value with
  | zero => rfl
  | succ n ih => rw [storeLe, length_set, ih]

lemma storeLe_outside (h : i < first ∨ first + n ≤ i) : (storeLe bytes first value n)[i]? = bytes[i]? := by
  induction n generalizing first value with
  | zero => rfl
  | succ n ih => rw [storeLe, getElem?_set_ne (by omega), ih (by omega)]

lemma le_congr (h : ∀ i, first ≤ i → i < first + n → bytes[i]? = other[i]?) : le bytes first n = le other first n := by
  induction n generalizing first with
  | zero => rfl
  | succ n ih =>
    rw [le, le, getD_eq_getElem?_getD, h first le_rfl (by omega), ← getD_eq_getElem?_getD]
    rw [ih fun i h1 h2 => h i (by omega) (by omega)]

lemma le_storeLe (h : first + n ≤ bytes.length) : le (storeLe bytes first value n) first n = value % 256 ^ n := by
  induction n generalizing first value with
  | zero => rw [le, pow_zero, Nat.mod_one]
  | succ n ih =>
    have hrest : le ((storeLe bytes (first + 1) (value / 256) n).set first (UInt8.ofNat value)) (first + 1) n =
        le (storeLe bytes (first + 1) (value / 256) n) (first + 1) n :=
      le_congr fun i h1 _ => getElem?_set_ne (by omega)
    rw [storeLe, le, hrest, ih (by omega), pow_succ', Nat.mod_mul]
    simp [show first < bytes.length by omega]

end ObfuscationKernel.Library
