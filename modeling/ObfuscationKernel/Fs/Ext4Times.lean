import ObfuscationKernel.Core.Status
import ObfuscationKernel.Library.LittleEndian

/-! The codec of the timestamps in an ext4 inode. -/

namespace ObfuscationKernel.Fs.Ext4

open ObfuscationKernel.Core Library List

inductive TimestampSource
  | unavailable | readonlyExt4 | maintainedExt4 | kernelFixed
  deriving DecidableEq

structure EpochTimestamp where
  seconds : ℤ
  nanoseconds : ℕ
  source : TimestampSource
  deriving DecidableEq

inductive Stamp
  | access | modification | change

namespace Stamp

def bit : Stamp → BitVec 32
  | access => 1
  | modification => 2
  | change => 4

def base : Stamp → ℕ
  | access => 8
  | modification => 16
  | change => 12

def extra : Stamp → ℕ
  | access => 140
  | modification => 136
  | change => 132

def layout : List Stamp := [access, modification, change]

end Stamp

def extraSize (inode : List UInt8) : ℕ := if inode.length = 256 then le inode 128 2 else 0

def declared (inode : List UInt8) (stamp : Stamp) : Bool := decide (stamp.extra + 4 ≤ 128 + extraSize inode)

def signed (word : ℕ) : ℤ := if word < 2 ^ 31 then word else word - 2 ^ 32

def decode (inode : List UInt8) (stamp : Stamp) : Result EpochTimestamp :=
  let seconds := signed (le inode stamp.base 4)
  let extension := if declared inode stamp then le inode stamp.extra 4 else 0
  let nanos := extension >>> 2
  if nanos ≥ 1000000000 then .error (.ioError "invalid ext4 timestamp nanoseconds")
  else .ok ⟨seconds + ((extension &&& 3) <<< 32 : ℕ), nanos, .readonlyExt4⟩

def decodeExt4Times (inode : List UInt8) : Result (Stamp → EpochTimestamp) :=
  if inode.length ≠ 128 ∧ inode.length ≠ 256 then .error (.invalidArgument "unsupported ext4 timestamp inode size")
  else if extraSize inode > inode.length - 128 ∨ extraSize inode &&& 3 ≠ 0 then
    .error (.ioError "invalid ext4 extra inode extent")
  else
    match decode inode .access, decode inode .modification, decode inode .change with
    | .error status, _, _ => .error status
    | _, .error status, _ => .error status
    | _, _, .error status => .error status
    | .ok access, .ok modification, .ok change => .ok fun
      | .access => access
      | .modification => modification
      | .change => change

def Stamp.store (inode : List UInt8) (word extension : ℕ) (stamp : Stamp) (bytes : List UInt8) : List UInt8 :=
  let bytes := storeLe bytes stamp.base word 4
  if declared inode stamp then storeLe bytes stamp.extra extension 4 else bytes

def storeTimes (inode : List UInt8) (fields : BitVec 32) (word extension : ℕ) (stamps : List Stamp) : List UInt8 → List UInt8 :=
  stamps.foldl fun bytes stamp => if fields &&& stamp.bit ≠ 0 then stamp.store inode word extension bytes else bytes

def lowWord (seconds : ℤ) : ℕ := (seconds % 2 ^ 32).toNat

def difference (seconds : ℤ) : ℕ := ((seconds - signed (lowWord seconds)) % 2 ^ 64).toNat

section

variable (inode : List UInt8) (fields : BitVec 32) (seconds : ℤ) (nanoseconds : ℕ)

def stored : List UInt8 :=
  storeTimes inode fields (lowWord seconds) (nanoseconds <<< 2 ||| difference seconds >>> 32) Stamp.layout inode

def encodeExt4Times : Result Unit × List UInt8 :=
  if inode.length ≠ 128 ∧ inode.length ≠ 256 then
    (.error (.invalidArgument "unsupported ext4 timestamp inode size"), inode)
  else if fields = 0 ∨ fields &&& ~~~7 ≠ 0 then (.error (.invalidArgument "invalid ext4 timestamp field mask"), inode)
  else if nanoseconds ≥ 1000000000 then (.error (.invalidArgument "invalid ext4 timestamp nanoseconds"), inode)
  else if extraSize inode > inode.length - 128 ∨ extraSize inode &&& 3 ≠ 0 then
    (.error (.ioError "invalid ext4 extra inode extent"), inode)
  else if seconds < -2147483648 ∨ seconds > 15032385535 then
    (.error (.overflow "ext4 timestamp seconds exceed extended range"), inode)
  else if Stamp.layout.any fun stamp => fields &&& stamp.bit ≠ 0 ∧ !declared inode stamp ∧
      (seconds < -2147483648 ∨ seconds > 2147483647) then
    (.error (.overflow "ext4 timestamp seconds require a declared extra word"), inode)
  else if difference seconds % 2 ^ 32 ≠ 0 ∨ difference seconds >>> 32 > 3 then
    (.error (.overflow "ext4 timestamp epoch cannot be represented"), inode)
  else (.ok (), stored inode fields seconds nanoseconds)

def WellFormed : Prop :=
  (inode.length = 128 ∨ inode.length = 256) ∧ extraSize inode ≤ inode.length - 128 ∧ 4 ∣ extraSize inode

/-- With the extra word the seconds have 34 bits, without it 32; both ranges begin at `-2 ^ 31`. -/
def Representable (stamp : Stamp) : Prop :=
  -2 ^ 31 ≤ seconds ∧ seconds + 2 ^ 31 < if declared inode stamp then 2 ^ 34 else 2 ^ 32

structure Accepted : Prop where
  image : WellFormed inode
  selection : fields ≠ 0 ∧ fields &&& ~~~7 = 0
  nanoseconds : nanoseconds < 1000000000
  representable : ∀ stamp : Stamp, fields &&& stamp.bit ≠ 0 → Representable inode seconds stamp

end

def Stamp.Within (stamp : Stamp) (i : ℕ) : Prop :=
  stamp.base ≤ i ∧ i < stamp.base + 4 ∨ stamp.extra ≤ i ∧ i < stamp.extra + 4

def Covers (inode : List UInt8) (stamp : Stamp) (i : ℕ) : Prop :=
  stamp.Within i ∧ (128 ≤ i → declared inode stamp)

variable {inode bytes : List UInt8} {fields : BitVec 32} {seconds : ℤ} {nanoseconds word extension i : ℕ} {stamp other : Stamp}
  {stamps : List Stamp}

lemma Stamp.Within.eq (h : stamp.Within i) (h' : other.Within i) : stamp = other := by
  cases stamp <;> cases other <;> first | rfl | (simp only [Within, base, extra] at h h'; omega)

lemma exists_selected (h0 : fields ≠ 0) (h7 : fields &&& ~~~7 = 0) : ∃ stamp : Stamp, fields &&& stamp.bit ≠ 0 := by
  by_contra! hnone
  have hall : fields &&& (Stamp.bit .access ||| Stamp.bit .modification ||| Stamp.bit .change ||| ~~~7) = 0 := by
    simp only [BitVec.and_or_distrib_left, hnone, h7]
    rfl
  refine h0 ?_
  rwa [show (Stamp.bit .access ||| Stamp.bit .modification ||| Stamp.bit .change ||| ~~~7) = BitVec.allOnes 32 by decide,
    BitVec.and_allOnes] at hall

lemma Stamp.low (stamp : Stamp) : stamp.base + 4 ≤ 128 ∧ 132 ≤ stamp.extra := by
  cases stamp <;> decide

lemma Stamp.store_outside (h : ¬ Covers inode stamp i) : (stamp.store inode word extension bytes)[i]? = bytes[i]? := by
  have hlow := stamp.low
  simp only [Covers, Within, not_and] at h
  unfold store
  split
  · next hd => rw [storeLe_outside (by grind), storeLe_outside (by grind)]
  · rw [storeLe_outside (by grind)]

lemma length_storeTimes : (storeTimes inode fields word extension stamps bytes).length = bytes.length := by
  induction stamps generalizing bytes with
  | nil => rfl
  | cons stamp stamps ih =>
    rw [storeTimes, foldl_cons, ← storeTimes, ih]
    unfold Stamp.store
    split_ifs <;> simp

lemma storeTimes_outside (h : ∀ stamp ∈ stamps, fields &&& stamp.bit ≠ 0 → ¬ Covers inode stamp i) :
    (storeTimes inode fields word extension stamps bytes)[i]? = bytes[i]? := by
  induction stamps generalizing bytes with
  | nil => rfl
  | cons stamp stamps ih =>
    rw [storeTimes, foldl_cons, ← storeTimes, ih fun other ho => h other (mem_cons_of_mem _ ho)]
    split
    · next hs => exact Stamp.store_outside (h stamp mem_cons_self hs)
    · rfl

lemma extraSize_storeTimes : extraSize (storeTimes inode fields word extension stamps inode) = extraSize inode := by
  unfold extraSize
  rw [length_storeTimes]
  refine if_congr Iff.rfl (le_congr fun i h1 h2 => storeTimes_outside fun stamp _ _ hc => ?_) rfl
  have hlow := stamp.low
  have hw := hc.1
  unfold Stamp.Within at hw
  omega

section

variable (hs : fields &&& stamp.bit ≠ 0)

include hs

lemma storeTimes_selected (inode : List UInt8) (word extension : ℕ) : ∃ before : List UInt8, before.length = inode.length ∧
    ∀ i, stamp.Within i →
      (storeTimes inode fields word extension Stamp.layout inode)[i]? = (stamp.store inode word extension before)[i]? := by
  obtain ⟨first, last, hsplit, hlast⟩ : ∃ first last, Stamp.layout = first ++ stamp :: last ∧ stamp ∉ last := by
    cases stamp
    · exact ⟨[], [.modification, .change], rfl, by simp⟩
    · exact ⟨[.access], [.change], rfl, by simp⟩
    · exact ⟨[.access, .modification], [], rfl, by simp⟩
  refine ⟨storeTimes inode fields word extension first inode, length_storeTimes, fun i hi => ?_⟩
  rw [hsplit, storeTimes, foldl_append, foldl_cons, ← storeTimes, ← storeTimes, if_pos hs]
  exact storeTimes_outside fun other ho _ hc => hlast (hi.eq hc.1 ▸ ho)

lemma le_base (hw : WellFormed inode) :
    le (storeTimes inode fields word extension Stamp.layout inode) stamp.base 4 = word % 2 ^ 32 := by
  obtain ⟨before, hlen, hb⟩ := storeTimes_selected hs inode word extension
  have hlow := stamp.low
  have hsize := hw.1
  have hfirst (i : ℕ) (h1 : stamp.base ≤ i) (h2 : i < stamp.base + 4) :
      (stamp.store inode word extension before)[i]? = (storeLe before stamp.base word 4)[i]? := by
    unfold Stamp.store
    split
    · exact storeLe_outside (by omega)
    · rfl
  rw [le_congr fun i h1 h2 => (hb i (.inl ⟨h1, h2⟩)).trans (hfirst i h1 h2), le_storeLe (by omega)]
  rfl

lemma le_extra (hw : WellFormed inode) (hd : declared inode stamp = true) :
    le (storeTimes inode fields word extension Stamp.layout inode) stamp.extra 4 = extension % 2 ^ 32 := by
  obtain ⟨before, hlen, hb⟩ := storeTimes_selected hs inode word extension
  have hfit := of_decide_eq_true hd
  have hextra := hw.2.1
  have hsize := hw.1
  rw [le_congr fun i h1 h2 => (hb i (.inr ⟨h1, h2⟩)).trans (by rw [Stamp.store, if_pos hd]),
    le_storeLe (by rw [length_storeLe]; omega)]
  rfl

end

lemma epoch (h1 : -2 ^ 31 ≤ seconds) (h2 : seconds + 2 ^ 31 < 2 ^ 34) :
    lowWord seconds < 2 ^ 32 ∧ difference seconds % 2 ^ 32 = 0 ∧ difference seconds >>> 32 ≤ 3 ∧
      signed (lowWord seconds) + (difference seconds >>> 32 * 2 ^ 32 : ℕ) = seconds ∧
      (seconds + 2 ^ 31 < 2 ^ 32 → difference seconds >>> 32 = 0) := by
  simp only [difference, lowWord, signed, Nat.shiftRight_eq_div_pow]
  omega

lemma decode_selected (h : Accepted inode fields seconds nanoseconds) (hs : fields &&& stamp.bit ≠ 0) :
    decode (stored inode fields seconds nanoseconds) stamp =
      .ok ⟨seconds, if declared inode stamp then nanoseconds else 0, .readonlyExt4⟩ := by
  obtain ⟨h1, h2⟩ := h.representable stamp hs
  have hn := h.nanoseconds
  obtain ⟨h32, -, h3, hsum, hzero⟩ := epoch h1 (h2.trans_le (by split <;> decide))
  have hd : declared (stored inode fields seconds nanoseconds) stamp = declared inode stamp := by
    rw [declared, stored, extraSize_storeTimes, declared]
  unfold decode
  rw [hd, stored, le_base hs h.image, Nat.mod_eq_of_lt h32]
  by_cases hdecl : declared inode stamp = true
  · have hext : nanoseconds <<< 2 ||| difference seconds >>> 32 = nanoseconds * 4 + difference seconds >>> 32 := by
      rw [← Nat.shiftLeft_add_eq_or_of_lt (by omega : difference seconds >>> 32 < 2 ^ 2), Nat.shiftLeft_eq]
    simp only [hdecl, if_true, le_extra hs h.image hdecl, hext]
    generalize difference seconds >>> 32 = high at *
    rw [Nat.mod_eq_of_lt (by omega), show (3 : ℕ) = 2 ^ 2 - 1 from rfl, Nat.and_two_pow_sub_one_eq_mod, Nat.shiftRight_eq_div_pow,
      Nat.shiftLeft_eq, show (nanoseconds * 4 + high) / 2 ^ 2 = nanoseconds by omega,
      show (nanoseconds * 4 + high) % 2 ^ 2 = high by omega, if_neg (by omega), hsum]
  · rw [if_neg hdecl] at h2
    have hlow : signed (lowWord seconds) = seconds := by simpa [hzero h2] using hsum
    simp [hdecl, hlow]

lemma decode_unselected (hs : ¬ fields &&& stamp.bit ≠ 0) :
    decode (stored inode fields seconds nanoseconds) stamp = decode inode stamp := by
  have hkeep (i : ℕ) (hi : stamp.Within i) : (stored inode fields seconds nanoseconds)[i]? = inode[i]? :=
    storeTimes_outside fun other _ ho hc => hs (hi.eq hc.1 ▸ ho)
  unfold decode declared
  rw [le_congr fun i h1 h2 => hkeep i (.inl ⟨h1, h2⟩), le_congr fun i h1 h2 => hkeep i (.inr ⟨h1, h2⟩), stored,
    extraSize_storeTimes]

lemma and_three {n : ℕ} : n &&& 3 = 0 ↔ 4 ∣ n := by
  rw [show (3 : ℕ) = 2 ^ 2 - 1 from rfl, Nat.and_two_pow_sub_one_eq_mod, Nat.dvd_iff_mod_eq_zero]

lemma decodeExt4Times_ok (hw : WellFormed inode) {times : Stamp → EpochTimestamp} :
    decodeExt4Times inode = .ok times ↔ ∀ stamp, decode inode stamp = .ok (times stamp) := by
  obtain ⟨hsize, hextra, hfour⟩ := hw
  have hand := and_three.mpr hfour
  rw [decodeExt4Times, if_neg (by omega), if_neg (by omega)]
  constructor
  · intro h stamp
    split at h
    · cases h
    · cases h
    · cases h
    · cases h
      cases stamp <;> assumption
  · intro h
    rw [h .access, h .modification, h .change]
    refine congrArg Except.ok (funext fun stamp => ?_)
    cases stamp <;> rfl

section

variable (inode : List UInt8) (fields : BitVec 32) (seconds : ℤ) (nanoseconds : ℕ)

lemma encode_cases : (¬ Accepted inode fields seconds nanoseconds ∧
      ∃ status, encodeExt4Times inode fields seconds nanoseconds = (.error status, inode)) ∨
    Accepted inode fields seconds nanoseconds ∧
      encodeExt4Times inode fields seconds nanoseconds = (.ok (), stored inode fields seconds nanoseconds) := by
  unfold encodeExt4Times
  split_ifs with hsize hmask hnano hextra hrange hword hepoch
  · exact .inl ⟨fun h => by have := h.image.1; omega, _, rfl⟩
  · exact .inl ⟨fun h => hmask.elim h.selection.1 fun hm => hm h.selection.2, _, rfl⟩
  · exact .inl ⟨fun h => absurd h.nanoseconds (by omega), _, rfl⟩
  · refine .inl ⟨fun h => hextra.elim (fun hlt => ?_) fun h3 => h3 (and_three.mpr h.image.2.2), _, rfl⟩
    exact absurd h.image.2.1 hlt.not_ge
  · refine .inl ⟨fun h => ?_, _, rfl⟩
    obtain ⟨stamp, hs⟩ := exists_selected h.selection.1 h.selection.2
    obtain ⟨h1, h2⟩ := h.representable stamp hs
    split at h2 <;> omega
  · refine .inl ⟨fun h => ?_, _, rfl⟩
    obtain ⟨stamp, -, hs⟩ := any_eq_true.mp hword
    simp only [decide_eq_true_eq, Bool.not_eq_true'] at hs
    obtain ⟨h1, h2⟩ := h.representable stamp hs.1
    rw [hs.2.1, if_neg nofun] at h2
    omega
  · obtain ⟨-, hd, h3, -⟩ := @epoch seconds (by omega) (by omega)
    omega
  refine .inr ⟨⟨⟨by omega, by omega, and_three.mp (by omega)⟩, by simpa [not_or] using hmask, by omega,
    fun stamp hs => ⟨by omega, ?_⟩⟩, rfl⟩
  split
  · omega
  next hd =>
  by_contra hlt
  refine hword (any_eq_true.mpr ⟨stamp, by cases stamp <;> simp [Stamp.layout], ?_⟩)
  simp only [decide_eq_true_eq]
  exact ⟨hs, by simpa using hd, by omega⟩

/-- Encoding accepts what the image can represent and stores exactly that: decoding gives the selected timestamps as they were
encoded and the others as they were stored, if those decode at all. -/
theorem times_round_trip {result : Result Unit} {later : List UInt8}
    (h : encodeExt4Times inode fields seconds nanoseconds = (result, later)) :
    (result = .ok () ↔ Accepted inode fields seconds nanoseconds) ∧ (result ≠ .ok () → later = inode) ∧
    (result = .ok () →
      (∀ stamp : Stamp, fields &&& stamp.bit ≠ 0 →
        decode later stamp = .ok ⟨seconds, if declared inode stamp then nanoseconds else 0, .readonlyExt4⟩) ∧
      (∀ stamp : Stamp, ¬ fields &&& stamp.bit ≠ 0 → decode later stamp = decode inode stamp) ∧
      (∀ times, decodeExt4Times later = .ok times ↔ ∀ stamp, decode later stamp = .ok (times stamp)) ∧
      later.length = inode.length ∧
      ∀ i, (∀ stamp : Stamp, fields &&& stamp.bit ≠ 0 → ¬ Covers inode stamp i) → later[i]? = inode[i]?) := by
  rcases encode_cases inode fields seconds nanoseconds with ⟨hno, status, he⟩ | ⟨hyes, he⟩ <;> cases h.symm.trans he
  · simp only [reduceCtorEq, false_iff, not_false_eq_true, ne_eq, forall_true_left, false_implies, and_true]
    exact hno
  · simp only [hyes, ne_eq, not_true_eq_false, false_implies, true_and, forall_true_left]
    refine ⟨fun stamp hs => decode_selected hyes hs, fun stamp hs => decode_unselected hs, fun times => decodeExt4Times_ok ?_,
      length_storeTimes, fun i hi => storeTimes_outside fun stamp _ => hi stamp⟩
    obtain ⟨hsize, hextra, hfour⟩ := hyes.image
    rw [WellFormed, stored, length_storeTimes, extraSize_storeTimes]
    exact ⟨hsize, hextra, hfour⟩

end

def image (modification : UInt8) : List UInt8 :=
  replicate 128 0 ++ [32, 0] ++ replicate 6 0 ++ replicate 4 modification ++ replicate 116 0

theorem times_round_trip_image :
    decode (encodeExt4Times (image 0) 1 4294967296 7).2 .access = .ok ⟨4294967296, 7, .readonlyExt4⟩ := by
  have hd : declared (image 0) .access = true := by decide +kernel
  have h := ((times_round_trip (image 0) 1 4294967296 7 (Prod.eta _).symm).2.2 (by decide +kernel)).1 .access (by decide)
  rwa [hd, if_pos rfl] at h

/-- A timestamp that was not selected holds too many nanoseconds. -/
theorem encoded_not_decoded : (encodeExt4Times (image 255) 1 0 0).1 = .ok () ∧
    ∀ times, decodeExt4Times (encodeExt4Times (image 255) 1 0 0).2 ≠ .ok times := by
  have hbad : decode (encodeExt4Times (image 255) 1 0 0).2 .modification =
      .error (.ioError "invalid ext4 timestamp nanoseconds") := by decide +kernel
  refine ⟨by decide +kernel, fun times h => ?_⟩
  have hw : WellFormed (encodeExt4Times (image 255) 1 0 0).2 := by
    unfold WellFormed
    decide +kernel
  rw [(decodeExt4Times_ok hw).mp h .modification] at hbad
  cases hbad

end ObfuscationKernel.Fs.Ext4
