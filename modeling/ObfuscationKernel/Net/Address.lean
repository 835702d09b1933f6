import Mathlib.Tactic

/-! Internet addresses and their prefixes, byte by byte. -/

namespace ObfuscationKernel.Net

inductive Family
  | ipv4 | ipv6
  deriving DecidableEq, Repr

def Family.size : Family → ℕ
  | ipv4 => 4
  | ipv6 => 16

abbrev Ipv4 := Fin 4 → UInt8
abbrev Ipv6 := Fin 16 → UInt8

instance neZeroFour : NeZero 4 := ⟨by decide⟩

instance neZeroSixteen : NeZero 16 := ⟨by decide⟩

variable {n : ℕ}

def multicast (address : Ipv6) : Bool := address 0 == 0xff

def unspecified (address : Fin n → UInt8) : Bool := decide (address = fun _ => 0)

def mask (bits : ℕ) : UInt8 := UInt8.ofNat (0xff <<< (8 - bits))

def maskPrefix (address : Fin n → UInt8) (length : ℕ) : Fin n → UInt8 := fun i =>
  let bit := i.val * 8
  if bit ≥ length then 0
  else if length - bit < 8 then address i &&& mask (length - bit)
  else address i

end ObfuscationKernel.Net
