import ObfuscationKernel.Net.Codec

/-! What a codec builds, its parser reads back. -/

namespace ObfuscationKernel.Net.Codec

open ObfuscationKernel.Core Wire Library OnesComplement List

section Sums

variable {a b bytes : List UInt8} {n v k : ℕ}

lemma residue_sumWords (v : ℕ) (bytes : List UInt8) : residue (sumWords v bytes) = residue (v + words bytes) := by
  induction v, bytes using sumWords.induct with
  | case1 v => simp [sumWords, words]
  | case2 v a => exact residue_fold _ 0
  | case3 v a b rest ih => rw [sumWords, ih, residue_fold, words, Nat.add_assoc]

lemma sumWords_le (h : v ≤ 131071) : sumWords v bytes ≤ 131071 := by
  induction v, bytes using sumWords.induct with
  | case1 v => exact h
  | case2 v a =>
    have := a.toNat_lt
    exact (fold_le (by omega)).trans (by decide)
  | case3 v a b rest ih =>
  have := a.toNat_lt
  have := b.toNat_lt
  exact ih ((fold_le (by omega)).trans (by decide))

lemma sum_eq (bytes : List UInt8) (hn : n < 2 ^ 32) : sum bytes n = residue (n + words bytes) := by
  have hf : fold n ≤ 131071 := by
    unfold fold
    omega
  have hs : sumWords (fold n) bytes ≤ 131071 := sumWords_le hf
  have hr : residue (sumWords (fold n) bytes) = residue (n + words bytes) := by rw [residue_sumWords, residue_fold]
  rw [← hr]
  unfold sum
  generalize sumWords (fold n) bytes = v at hs
  have hsettle : ∀ v, residue (if v / 65536 ≠ 0 then fold v else v) = residue v := by
    intro v
    split
    · exact residue_fold v 0
    · rfl
  simp only [Function.iterate_succ, Function.iterate_zero, Function.comp_apply, id]
  rw [← hsettle v, ← hsettle (if v / 65536 ≠ 0 then fold v else v), residue_of_le]
  unfold fold
  split_ifs <;> omega

lemma ofNat_bytes16 (v : ℕ) : (UInt8.ofNat (v / 256)).toNat * 256 + (UInt8.ofNat v).toNat = v % 65536 := by
  simp only [UInt8.toNat_ofNat']
  omega

lemma words_bytes16 (h : v < 65536) : words (bytes16 v ++ b) = v + words b := by
  show (UInt8.ofNat (v / 256)).toNat * 256 + (UInt8.ofNat v).toNat + words b = v + words b
  rw [ofNat_bytes16, Nat.mod_eq_of_lt h]

lemma sum_checksum (ha : a.length % 2 = 0) (hn : n < 2 ^ 32) {v : ℕ}
    (hv : v = 65535 - sum (a ++ (bytes16 0 ++ b)) n ∨ v = 65535 ∧ sum (a ++ (bytes16 0 ++ b)) n = 65535) :
    sum (a ++ (bytes16 v ++ b)) n = 65535 := by
  have hs := sum_eq (a ++ (bytes16 0 ++ b)) hn
  have hw : v < 65536 := by omega
  rw [words_append ha, words_bytes16 (by decide)] at hs
  rw [sum_eq _ hn, words_append ha, words_bytes16 hw]
  have hx : n + (words a + (v + words b)) = n + (words a + (0 + words b)) + v := by omega
  rw [hx]
  rcases hv with rfl | ⟨rfl, he⟩
  · rw [hs]
    exact residue_complement _
  rw [hs] at he
  unfold residue at *
  split_ifs at *
  omega

lemma byte_add (bytes : List UInt8) (k i : ℕ) : byte bytes (k + i) = byte (bytes.drop k) i := by simp [byte]

lemma be16_drop (h : bytes.drop k = bytes16 v ++ b) : be16 bytes k = v % 65536 := by
  show (byte bytes (k + 0)).toNat * 256 + (byte bytes (k + 1)).toNat = _
  rw [byte_add, byte_add, h]
  exact ofNat_bytes16 v

lemma be16_at (h : bytes.drop k = bytes16 v ++ b) (hv : v < 65536) : be16 bytes k = v :=
  (be16_drop h).trans (Nat.mod_eq_of_lt hv)

lemma be32_at (h : bytes.drop k = bytes32 v ++ b) (hv : v < 2 ^ 32) : be32 bytes k = v := by
  have h1 : be16 bytes k = v / 65536 % 65536 := be16_drop (h.trans (append_assoc ..))
  have h2 : be16 bytes (k + 2) = v % 65536 := be16_drop (by rw [← drop_drop, h]; rfl)
  rw [be32, h1, h2]
  omega

lemma byte_ofFn {n : ℕ} (s : Fin n → UInt8) (h : bytes.drop k = ofFn s ++ b) : (fun i : Fin n => byte bytes (k + i)) = s := by
  funext i
  rw [byte_add, h]
  simp [byte, getElem?_append_left]

end Sums

section Stores

variable {a b bytes : List UInt8} {k : ℕ}

lemma store_append (a b bytes : List UInt8) (k : ℕ) : store (a ++ b) (a.length + k) bytes = a ++ store b k bytes := by
  simp [store, take_append, drop_append, Nat.add_assoc, take_of_length_le, drop_of_length_le]

lemma store_mid (ha : a.length = k) : store (a ++ b) k bytes = a ++ (bytes ++ b.drop bytes.length) := by
  subst ha
  simp [store]

end Stores

/-- What the transport codecs use of a family: its header is written over the first bytes, and parsing gives back what the
header was built from, for the sources in `Sender`. -/
structure Lawful (F : AddressFamily) (Sender : F.Address → Prop) : Prop where
  header_eq : ∀ out s d p l t i, F.header out s d p l t i = F.header [] s d p l t i ++ out.drop F.headerSize
  header_length : ∀ s d p l t i, (F.header [] s d p l t i).length = F.headerSize
  limit : F.maxPacket - F.headerSize ≤ 65535
  parse : ∀ s d p l t i (payload rest : List UInt8), Sender s → payload.length = l → l ≤ F.maxPacket - F.headerSize →
    (p = 6 ∨ p = 17 ∨ p = F.icmpProtocol) → ∃ ip, F.parse (F.header [] s d p l t i ++ (payload ++ rest)) = .ok ip ∧
      F.source ip = s ∧ F.destination ip = d ∧ F.protocol ip = p ∧ F.payload ip = payload
  pseudo_lt : ∀ s d p l, l ≤ 65535 → F.pseudo s d p l < 2 ^ 32
  icmp_lt : ∀ s d l, l ≤ 65535 → F.icmpInitial s d l < 2 ^ 32

section Families

variable {protocol ttl : UInt8} {length identification : ℕ}

def before4 (protocol : UInt8) (length : ℕ) (ttl : UInt8) (identification : ℕ) : List UInt8 :=
  [0x45, 0] ++ bytes16 (20 + length) ++ bytes16 identification ++ bytes16 0x4000 ++ [ttl, protocol]

def checksum4 (s d : Ipv4) (protocol : UInt8) (length : ℕ) (ttl : UInt8) (identification : ℕ) : ℕ :=
  checksum (before4 protocol length ttl identification ++ (bytes16 0 ++ (List.ofFn s ++ List.ofFn d)))

def head4 (s d : Ipv4) (protocol : UInt8) (length : ℕ) (ttl : UInt8) (identification : ℕ) : List UInt8 :=
  before4 protocol length ttl identification ++
    (bytes16 (checksum4 s d protocol length ttl identification) ++ (List.ofFn s ++ List.ofFn d))

lemma header4_eq (out : List UInt8) (s d : Ipv4) :
    header4 out s d protocol length ttl identification = head4 s d protocol length ttl identification ++ out.drop 20 := by
  simp [header4, head4, checksum4, store, before4, bytes16, replicate, ofFn_succ]

lemma length_head4 (s d : Ipv4) : (head4 s d protocol length ttl identification).length = 20 := by
  simp [head4, before4, bytes16]

lemma sum_head4 (s d : Ipv4) : sum (head4 s d protocol length ttl identification) 0 = 65535 :=
  sum_checksum (by simp [before4, bytes16]) (by decide) (.inl rfl)

lemma ipv4_head4 (s d : Ipv4) {rest payload : List UInt8} (hp : payload.length = length) (hl : length ≤ 65515) :
    ∃ ip, ipv4 (head4 s d protocol length ttl identification ++ (payload ++ rest)) = .ok ip ∧ ip.source = s ∧
      ip.destination = d ∧ ip.protocol = protocol ∧ ip.payload = payload := by
  have hlen : (head4 s d protocol length ttl identification).length = 20 := length_head4 s d
  set bytes := head4 s d protocol length ttl identification ++ (payload ++ rest) with hb
  have htotal : be16 bytes 2 = 20 + length := be16_at rfl (by omega)
  have hflags : be16 bytes 6 = 0x4000 := be16_at rfl (by decide)
  have hfirst : byte bytes 0 = 0x45 := rfl
  have hsum : checksum (bytes.take 20) = 0 := by rw [hb, take_left' hlen, checksum, sum_head4]
  have hpay : (bytes.drop 20).take (20 + length - 20) = payload := by
    rw [hb, drop_left' hlen, Nat.add_sub_cancel_left, take_left' hp]
  have hsize : bytes.length = 20 + (length + rest.length) := by rw [hb, length_append, length_append, hp, hlen]
  unfold ipv4
  simp only [hfirst, htotal, hflags, hsize, show ((0x45 : UInt8) &&& 15).toNat * 4 = 20 from rfl, hsum, hpay]
  rw [if_neg (by omega), if_neg (by decide), if_neg (by simp), if_neg (by simp), if_neg (by simp), if_neg (by decide),
    if_neg (by decide), if_neg (by decide)]
  refine ⟨_, rfl, ?_, ?_, ?_, rfl⟩
  · exact byte_ofFn s rfl
  · exact byte_ofFn d rfl
  · rfl

def head6 (s d : Ipv6) (protocol : UInt8) (length : ℕ) (ttl : UInt8) : List UInt8 :=
  [0x60, 0, 0, 0] ++ (bytes16 length ++ ([protocol, ttl] ++ (List.ofFn s ++ List.ofFn d)))

lemma header6_eq (out : List UInt8) (s d : Ipv6) (i : ℕ) :
    header6 out s d protocol length ttl i = head6 s d protocol length ttl ++ out.drop 40 := by
  simp [header6, head6, store, bytes16, replicate, ofFn_succ]

lemma length_head6 (s d : Ipv6) : (head6 s d protocol length ttl).length = 40 := by
  simp [head6, bytes16]

lemma ipv6_head6 {s : Ipv6} (d : Ipv6) {rest payload : List UInt8} (hs : multicast s = false) (hp : payload.length = length)
    (hl : length ≤ 65535) (hn : protocol = 6 ∨ protocol = 17 ∨ protocol = 58) :
    ∃ ip, ipv6 (head6 s d protocol length ttl ++ (payload ++ rest)) = .ok ip ∧ ip.source = s ∧
      ip.destination = d ∧ ip.protocol = protocol ∧ ip.payload = payload := by
  have hlen : (head6 s d protocol length ttl).length = 40 := length_head6 s d
  set bytes := head6 s d protocol length ttl ++ (payload ++ rest) with hb
  have htotal : be16 bytes 4 = length := be16_at rfl (by omega)
  have hfirst : byte bytes 0 = 0x60 := rfl
  have hnext : byte bytes 6 = protocol := rfl
  have hsource : (fun i : Fin 16 => byte bytes (8 + i)) = s := byte_ofFn s rfl
  have hsize : bytes.length = 40 + (length + rest.length) := by rw [hb, length_append, length_append, hp, hlen]
  have hpay : (bytes.drop 40).take length = payload := by rw [hb, drop_left' hlen, take_left' hp]
  have hext : extensions payload (payload.length + 1) true protocol 0 = .ok (protocol, 0) := by
    rcases hn with rfl | rfl | rfl <;> rfl
  unfold ipv6
  simp only [hfirst, htotal, hsize, hsource, hpay, hnext, hext]
  rw [if_neg (by omega), if_neg (by decide), if_neg (by omega), if_neg (by simp [hs])]
  refine ⟨_, rfl, rfl, ?_, rfl, by simp⟩
  exact byte_ofFn d rfl

lemma pseudoSum4_lt (s d : Ipv4) (protocol : UInt8) (h : length ≤ 65535) : pseudoSum4 s d protocol length < 2 ^ 32 := by
  have hb := UInt8.toNat_lt
  have := hb protocol
  have := hb (s 0)
  have := hb (s 1)
  have := hb (s 2)
  have := hb (s 3)
  have := hb (d 0)
  have := hb (d 1)
  have := hb (d 2)
  have := hb (d 3)
  unfold pseudoSum4 fold
  dsimp only
  omega

lemma pseudoSum6_lt (s d : Ipv6) (protocol : UInt8) (h : length ≤ 65535) : pseudoSum6 s d protocol length < 2 ^ 32 := by
  have hb := UInt8.toNat_lt
  have hf : ∀ (l : List (Fin 8)) (v : ℕ), v < 2 ^ 31 → l.foldl (fun value (i : Fin 8) =>
      fold (value + ((s ⟨2 * i, by omega⟩).toNat * 256 + (s ⟨2 * i + 1, by omega⟩).toNat) +
        ((d ⟨2 * i, by omega⟩).toNat * 256 + (d ⟨2 * i + 1, by omega⟩).toNat))) v < 2 ^ 31 := by
    intro l
    induction l with
    | nil => exact fun v hv => hv
    | cons i l ih =>
    intro v hv
    refine ih _ ?_
    have := hb (s ⟨2 * i, by omega⟩)
    have := hb (s ⟨2 * i + 1, by omega⟩)
    have := hb (d ⟨2 * i, by omega⟩)
    have := hb (d ⟨2 * i + 1, by omega⟩)
    dsimp only [fold]
    omega
  have hp := hb protocol
  have := hf (finRange 8) (protocol.toNat + length / 65536 + length % 65536) (by omega)
  unfold pseudoSum6
  generalize foldl _ _ _ = v at this ⊢
  dsimp only [fold]
  omega

lemma header4_nil (s d : Ipv4) :
    header4 [] s d protocol length ttl identification = head4 s d protocol length ttl identification := by
  rw [header4_eq, drop_nil, append_nil]

lemma header6_nil (s d : Ipv6) (i : ℕ) : header6 [] s d protocol length ttl i = head6 s d protocol length ttl := by
  rw [header6_eq, drop_nil, append_nil]

lemma ipv4_header4 (s d : Ipv4) (p : UInt8) (l : ℕ) (t : UInt8) (i : ℕ) (payload rest : List UInt8)
    (hp : payload.length = l) (hl : l ≤ 65515) : ∃ ip, ipv4 (header4 [] s d p l t i ++ (payload ++ rest)) = .ok ip ∧
      ip.source = s ∧ ip.destination = d ∧ ip.protocol = p ∧ ip.payload = payload := by
  rw [header4_nil]
  exact ipv4_head4 s d hp hl

lemma ipv6_header6 (s d : Ipv6) (p : UInt8) (l : ℕ) (t : UInt8) (i : ℕ) (payload rest : List UInt8)
    (hs : multicast s = false) (hp : payload.length = l) (hl : l ≤ 65535) (hn : p = 6 ∨ p = 17 ∨ p = 58) :
    ∃ ip, ipv6 (header6 [] s d p l t i ++ (payload ++ rest)) = .ok ip ∧
      ip.source = s ∧ ip.destination = d ∧ ip.protocol = p ∧ ip.payload = payload := by
  exact ipv6_head6 d hs hp hl hn

lemma lawful4 : Lawful ipv4Family fun _ => True where
  header_eq out s d _ _ _ _ := (header4_eq out s d).trans (congrArg (· ++ out.drop 20) (header4_nil s d).symm)
  header_length s d _ _ _ _ := (congrArg length (header4_nil s d)).trans (length_head4 s d)
  limit := by simp
  parse s d p l t i payload rest _ hp hl _ := by
    dsimp only [ipv4Family] at hl ⊢
    exact ipv4_header4 s d p l t i payload rest hp hl
  pseudo_lt s d p l _ := pseudoSum4_lt s d p (by omega)
  icmp_lt _ _ _ _ := Nat.two_pow_pos 32

lemma lawful6 : Lawful ipv6Family fun s => multicast s = false where
  header_eq out s d _ _ _ i := (header6_eq out s d i).trans (congrArg (· ++ out.drop 40) (header6_nil s d i).symm)
  header_length s d _ _ _ i := (congrArg length (header6_nil s d i)).trans (length_head6 s d)
  limit := by simp
  parse s d p l t i payload rest hs hp hl hn := by
    dsimp only [ipv6Family] at hl hn ⊢
    exact ipv6_header6 s d p l t i payload rest hs hp hl hn
  pseudo_lt s d p l _ := pseudoSum6_lt s d p (by omega)
  icmp_lt s d l _ := pseudoSum6_lt s d 58 (by omega)

end Families

end ObfuscationKernel.Net.Codec
