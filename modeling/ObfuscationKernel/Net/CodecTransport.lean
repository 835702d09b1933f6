import ObfuscationKernel.Net.CodecRoundTrip

/-! The transport codecs: what they emit, that it parses back, and that the IPv4 overloads are the generic codecs at the
IPv4 family. -/

namespace ObfuscationKernel.Net.Codec

open ObfuscationKernel.Core Wire Library OnesComplement List TcpOptions

section Options

variable {opts : List UInt8} {flags : UInt8} {p z : ℕ}

def padded (opts : List UInt8) : List UInt8 := opts ++ List.replicate ((opts.length + 3) / 4 * 4 - opts.length) 0

lemma length_padded (opts : List UInt8) : (padded opts).length = (opts.length + 3) / 4 * 4 := by
  simp only [padded, length_append, length_replicate]
  omega

lemma byte_left {a b : List UInt8} (h : p < a.length) : byte (a ++ b) p = byte a p := by
  simp [byte, getElem?_append_left h]

lemma optionsLoop_end (h : opts.length ≤ 40) (fuel : ℕ) : optionsLoop fuel ⟨opts, opts.length, flags⟩ = .ok () := by
  cases fuel with
  | zero => rfl
  | succ fuel => simp [optionsLoop, TcpOptions.next, Nat.not_lt.mpr h]

lemma next_padded (hp : p < opts.length) (hz : opts.length + z ≤ 40) {r : Option TcpOption} {c : TcpOptions}
    (h : next ⟨opts, p, flags⟩ = (.ok r, c)) :
    ∃ o q, r = some o ∧ p < q ∧ q ≤ opts.length ∧ c = ⟨opts, q, flags⟩ ∧ ∃ o', ∃ q' ∈ [q, opts.length + z],
      next ⟨opts ++ replicate z 0, p, flags⟩ = (.ok (some o'), ⟨opts ++ replicate z 0, q', flags⟩) := by
  have hl : (opts ++ replicate z (0 : UInt8)).length = opts.length + z := by simp
  unfold TcpOptions.next at h ⊢
  simp only [hl, byte_left hp] at h ⊢
  rw [if_neg (by omega), if_neg (by omega)] at h
  rw [if_neg (by omega), if_neg (by omega)]
  by_cases h0 : byte opts p = 0
  · rw [if_pos h0] at h ⊢
    by_cases ht : (opts.drop p).tail.any (· != 0)
    · rw [if_pos ht] at h
      cases h
    rw [if_neg ht] at h
    cases h
    have ht' : ((opts ++ replicate z 0).drop p).tail.any (· != 0) = false := by
      rw [drop_append_of_le_length hp.le, tail_append_of_ne_nil (by simp [hp]), any_append, Bool.eq_false_of_not_eq_true ht]
      simp
    rw [ht']
    exact ⟨_, _, rfl, hp, le_rfl, rfl, _, opts.length + z, by simp, rfl⟩
  rw [if_neg h0] at h ⊢
  by_cases h1 : byte opts p = 1
  · rw [if_pos h1] at h ⊢
    cases h
    exact ⟨_, _, rfl, Nat.lt_succ_self p, hp, rfl, _, _, by simp, rfl⟩
  rw [if_neg h1] at h ⊢
  by_cases h2 : opts.length - p < 2
  · rw [if_pos h2] at h
    cases h
  rw [if_neg h2] at h
  rw [if_neg (by omega), byte_left (by omega)]
  by_cases h3 : (byte opts (p + 1)).toNat < 2 || (byte opts (p + 1)).toNat > opts.length - p
  · rw [if_pos h3] at h
    cases h
  rw [if_neg h3] at h
  simp only [Bool.or_eq_true, decide_eq_true_eq, not_or, Nat.not_lt] at h3
  rw [if_neg (by simp only [Bool.or_eq_true, decide_eq_true_eq]; omega)]
  split at h
  · cases h
  rename_i h4
  rw [if_neg h4]
  cases h
  exact ⟨_, _, rfl, by omega, by omega, rfl, _, _, by simp, rfl⟩

lemma optionsLoop_padded (hz : opts.length + z ≤ 40) : ∀ {fuel p : ℕ}, p ≤ opts.length → opts.length < p + fuel →
    optionsLoop fuel ⟨opts, p, flags⟩ = .ok () →
    ∀ g, optionsLoop g ⟨opts ++ replicate z 0, p, flags⟩ = .ok () := by
  have hend : ∀ g, optionsLoop g ⟨opts ++ replicate z 0, opts.length + z, flags⟩ = .ok () := by
    intro g
    have hl : (opts ++ replicate z (0 : UInt8)).length = opts.length + z := by simp
    rw [← hl]
    exact optionsLoop_end (hl ▸ hz) g
  intro fuel
  induction fuel with
  | zero => exact fun hp hf => absurd hf (by omega)
  | succ fuel ih =>
  intro p hp hf h g
  cases g with
  | zero => rfl
  | succ g =>
  rcases hp.eq_or_lt with rfl | hp
  · cases z with
    | zero => exact hend (g + 1)
    | succ z =>
    have hb : byte (opts ++ replicate (z + 1) 0) opts.length = 0 := by simp [byte]
    have hl : (opts ++ replicate (z + 1) (0 : UInt8)).length = opts.length + (z + 1) := by simp
    unfold optionsLoop TcpOptions.next
    simp only [hb, hl]
    rw [if_neg (by omega), if_neg (by omega), if_pos trivial, if_neg (by simp)]
    exact hend g
  cases hn : next ⟨opts, p, flags⟩ with
  | mk r c =>
  cases r with
  | error status =>
    rw [optionsLoop, hn] at h
    cases h
  | ok r =>
  obtain ⟨o, q, rfl, hq, hq', rfl, o', q', hm, he⟩ := next_padded hp hz hn
  rw [optionsLoop, hn] at h
  rw [optionsLoop, he]
  rcases mem_pair.mp hm with rfl | rfl
  · exact ih hq' (by omega) h g
  · exact hend g

lemma options_length (h : options opts flags = .ok ()) : opts.length ≤ 40 := by
  by_contra hl
  unfold options optionsLoop TcpOptions.next at h
  simp only [] at h
  rw [if_pos (by omega)] at h
  cases h

lemma options_padded (h : options opts flags = .ok ()) : options (padded opts) flags = .ok () := by
  have := options_length h
  exact optionsLoop_padded (by omega) (Nat.zero_le _) (by omega) h _

end Options

section Datagrams

def udpBytes (sourcePort destinationPort : UInt16) (value : ℕ) (payload : List UInt8) : List UInt8 :=
  (bytes16 sourcePort.toNat ++ (bytes16 destinationPort.toNat ++ bytes16 (8 + payload.length))) ++ (bytes16 value ++ payload)

def tcpBefore (fields : TcpFields) (opts : List UInt8) : List UInt8 :=
  bytes16 fields.sourcePort.toNat ++ (bytes16 fields.destinationPort.toNat ++ (bytes32 fields.sequence.toNat ++
    (bytes32 fields.acknowledgment.toNat ++ ([UInt8.ofNat ((20 + (opts.length + 3) / 4 * 4) / 4) <<< 4, fields.flags] ++
      bytes16 fields.window.toNat))))

def tcpBytes (fields : TcpFields) (opts : List UInt8) (value : ℕ) (payload : List UInt8) : List UInt8 :=
  tcpBefore fields opts ++ (bytes16 value ++ (bytes16 fields.urgentPointer.toNat ++ (padded opts ++ payload)))

def icmpBytes (type code : UInt8) (value : ℕ) (rest : UInt32) (body : List UInt8) : List UInt8 :=
  [type, code] ++ (bytes16 value ++ (bytes32 rest.toNat ++ body))

def udpSum (pseudo : ℕ) (sourcePort destinationPort : UInt16) (payload : List UInt8) : ℕ :=
  let value := 65535 - sum (udpBytes sourcePort destinationPort 0 payload) pseudo
  if value = 0 then 0xffff else value

variable {sp dp : UInt16} {value : ℕ} {fields : TcpFields} {opts payload a b : List UInt8} {h : ℕ}
  {type code : UInt8} {rest : UInt32}

lemma length_udpBytes : (udpBytes sp dp value payload).length = 8 + payload.length := Nat.add_comm payload.length 8

lemma length_tcpBytes : (tcpBytes fields opts value payload).length = 20 + (opts.length + 3) / 4 * 4 + payload.length := by
  simp [tcpBytes, tcpBefore, bytes16, bytes32, length_padded]
  omega

lemma length_icmpBytes : (icmpBytes type code value rest payload).length = 8 + payload.length :=
  Nat.add_comm payload.length 8

lemma sum_udpBytes (sp dp : UInt16) (payload : List UInt8) {pseudo : ℕ} (hp : pseudo < 2 ^ 32) :
    sum (udpBytes sp dp (udpSum pseudo sp dp payload) payload) pseudo = 65535 := by
  refine sum_checksum (by simp [bytes16]) hp ?_
  unfold udpSum
  dsimp only
  split
  · rename_i hv
    refine .inr ⟨rfl, ?_⟩
    have : sum (udpBytes sp dp 0 payload) pseudo ≤ 65535 := by
      rw [sum_eq _ hp]
      exact residue_le _
    unfold udpBytes at hv this
    omega
  · exact .inl rfl

lemma udpSum_range (pseudo : ℕ) (sp dp : UInt16) (payload : List UInt8) :
    0 < udpSum pseudo sp dp payload ∧ udpSum pseudo sp dp payload < 65536 := by
  unfold udpSum
  dsimp only
  split <;> omega

end Datagrams

section Stores

variable {a b bytes payload opts : List UInt8} {h k : ℕ} {sp dp : UInt16} {fields : TcpFields}
  {type code : UInt8} {rest : UInt32}

lemma store_after (ha : a.length = h) : store (a ++ b) (h + k) bytes = a ++ store b k bytes := by
  subst ha
  exact store_append a b bytes k

lemma store_at (ha : a.length = h) : store (a ++ b) h bytes = a ++ store b 0 bytes := store_after (k := 0) ha

lemma stores_udp : store (store (store (store (store b 0 (bytes16 sp.toNat)) 2 (bytes16 dp.toNat)) 4
      (bytes16 (8 + payload.length))) 6 (bytes16 0)) 8 payload =
    udpBytes sp dp 0 payload ++ b.drop (8 + payload.length) := by
  simp [store, bytes16, udpBytes, drop_drop, Nat.add_comm]

variable {value : ℕ}

lemma store_udpSum : store (udpBytes sp dp 0 payload ++ b) 6 (bytes16 value) = udpBytes sp dp value payload ++ b := by
  simp [store, bytes16, udpBytes]

lemma stores_icmp : store (store (store (store (store b 0 [type]) 1 [code]) 2 (bytes16 0)) 4 (bytes32 rest.toNat)) 8 payload =
    icmpBytes type code 0 rest payload ++ b.drop (8 + payload.length) := by
  simp [store, bytes16, bytes32, icmpBytes, drop_drop, Nat.add_comm]

lemma store_icmpSum : store (icmpBytes type code 0 rest payload ++ b) 2 (bytes16 value) =
    icmpBytes type code value rest payload ++ b := by
  simp [store, bytes16, icmpBytes]

def storeTcp (out : List UInt8) (fields : TcpFields) (header : ℕ) (opts payload : List UInt8) : List UInt8 :=
  let out := store (store out 0 (bytes16 fields.sourcePort.toNat)) 2 (bytes16 fields.destinationPort.toNat)
  let out := store (store out 4 (bytes32 fields.sequence.toNat)) 8 (bytes32 fields.acknowledgment.toNat)
  let out := store (store out 12 [UInt8.ofNat (header / 4) <<< 4]) 13 [fields.flags]
  let out := store (store out 14 (bytes16 fields.window.toNat)) 18 (bytes16 fields.urgentPointer.toNat)
  store (store out 20 opts) header payload

lemma storeTcp_eq (fields : TcpFields) (opts payload b : List UInt8) :
    storeTcp (replicate (20 + (opts.length + 3) / 4 * 4) 0 ++ b) fields (20 + (opts.length + 3) / 4 * 4) opts payload =
      tcpBytes fields opts 0 payload ++ b.drop payload.length := by
  have hfixed : storeTcp (replicate (20 + (opts.length + 3) / 4 * 4) 0 ++ b) fields (20 + (opts.length + 3) / 4 * 4) opts
      payload = store (store ((tcpBefore fields opts ++ (bytes16 0 ++ bytes16 fields.urgentPointer.toNat)) ++
        (replicate ((opts.length + 3) / 4 * 4) 0 ++ b)) 20 opts) (20 + (opts.length + 3) / 4 * 4) payload := by
    rw [replicate_add]
    simp [storeTcp, store, tcpBefore, bytes16, bytes32, replicate]
  have h20 : (tcpBefore fields opts ++ (bytes16 0 ++ bytes16 fields.urgentPointer.toNat)).length = 20 := by
    simp [tcpBefore, bytes16, bytes32]
  have hopts : store (replicate ((opts.length + 3) / 4 * 4) 0 ++ b) 0 opts = padded opts ++ b := by
    have hle : opts.length ≤ (opts.length + 3) / 4 * 4 := by omega
    simp [store, padded, drop_append, drop_replicate, hle]
  rw [hfixed, store_at h20, store_after h20, hopts, store_mid (length_padded opts)]
  simp [tcpBytes]

lemma store_tcpSum : store (tcpBytes fields opts 0 payload ++ b) 16 (bytes16 value) =
    tcpBytes fields opts value payload ++ b := by
  have h16 : (tcpBefore fields opts).length = 16 := by simp [tcpBefore, bytes16, bytes32]
  simp only [tcpBytes, append_assoc]
  rw [store_mid h16]
  simp [bytes16]

end Stores

section Emitted

variable {F : AddressFamily} {Sender : F.Address → Prop} {output payload opts : Span} {s d : F.Address}
  {sp dp ident : UInt16} {ttl : UInt8} {fields : TcpFields}

def emitted (head datagram output : List UInt8) : List UInt8 := head ++ (datagram ++ output.drop (head.length + datagram.length))

variable {n size : ℕ}

lemma buildUdp_ok (L : Lawful F Sender) (hn : 8 + payload.bytes.length = n)
    (hs : F.headerSize + 8 + payload.bytes.length = size) (ht : ttl ≠ 0) (hl : n ≤ F.maxPacket - F.headerSize)
    (hw : n ≤ 65535) (hc : size ≤ output.bytes.length) (ha : overlaps payload output.data size = false) :
    buildUdp F output s d sp dp ident ttl payload = (.ok size, emitted (F.header [] s d 17 n ttl ident.toNat)
      (udpBytes sp dp (udpSum (F.pseudo s d 17 n) sp dp payload.bytes) payload.bytes) output.bytes) := by
  have hlen : size - F.headerSize = n := by omega
  have hh := L.header_length s d 17 n ttl ident.toNat
  subst hn hs
  unfold buildUdp
  simp only [hlen]
  rw [if_neg ht, if_neg (by omega), if_neg (by simp [ha]), L.header_eq]
  rw [store_at hh, store_after hh, store_after hh, store_after hh, store_after hh, stores_udp, drop_left' hh,
    take_left' length_udpBytes, store_after hh, store_udpSum, drop_drop]
  simp only [emitted, hh, length_udpBytes]
  rfl

lemma buildIcmp_ok (L : Lawful F Sender) {type code : UInt8} {rest : UInt32} (hn : 8 + payload.bytes.length = n)
    (hs : F.headerSize + 8 + payload.bytes.length = size) (ht : ttl ≠ 0) (hl : n ≤ F.maxPacket - F.headerSize)
    (hw : n ≤ 65535) (hc : size ≤ output.bytes.length) (ha : overlaps payload output.data size = false) :
    buildIcmp F output s d ttl ident type code rest payload = (.ok size,
      emitted (F.header [] s d F.icmpProtocol n ttl ident.toNat)
        (icmpBytes type code (65535 - sum (icmpBytes type code 0 rest payload.bytes) (F.icmpInitial s d n)) rest payload.bytes)
        output.bytes) := by
  have hlen : size - F.headerSize = n := by omega
  have hh := L.header_length s d F.icmpProtocol n ttl ident.toNat
  subst hn hs
  unfold buildIcmp
  simp only [hlen]
  rw [if_neg ht, if_neg (by omega), if_neg (by simp [ha]), L.header_eq]
  rw [store_at hh, store_after hh, store_after hh, store_after hh, store_after hh, stores_icmp, drop_left' hh,
    take_left' length_icmpBytes, store_after hh, store_icmpSum, drop_drop]
  simp only [emitted, hh, length_icmpBytes]

abbrev tcpHeader (opts : List UInt8) : ℕ := 20 + (opts.length + 3) / 4 * 4

lemma buildTcp_ok (L : Lawful F Sender) (hn : tcpHeader opts.bytes + payload.bytes.length = n)
    (hs : F.headerSize + tcpHeader opts.bytes + payload.bytes.length = size) (ht : ttl ≠ 0)
    (ho : options opts.bytes fields.flags = .ok ())
    (hl : payload.bytes.length ≤ F.maxPacket - F.headerSize - tcpHeader opts.bytes) (hc : size ≤ output.bytes.length)
    (ha : overlaps opts output.data size = false) (hb : overlaps payload output.data size = false) :
    buildTcp F output s d ident ttl fields opts payload = (.ok size, emitted (F.header [] s d 6 n ttl ident.toNat)
      (tcpBytes fields opts.bytes (65535 - sum (tcpBytes fields opts.bytes 0 payload.bytes) (F.pseudo s d 6 n)) payload.bytes)
      output.bytes) := by
  have hlen : size - F.headerSize = n := by omega
  have hh := L.header_length s d 6 n ttl ident.toNat
  subst hn hs
  unfold buildTcp
  simp only [ho, hlen]
  rw [if_neg ht, if_neg (Nat.not_lt.mpr hl), if_neg (Nat.not_lt.mpr hc), if_neg (by simp [ha, hb]), L.header_eq]
  have hclear : ∀ b, store b 0 (replicate (tcpHeader opts.bytes) 0) =
      replicate (tcpHeader opts.bytes) 0 ++ b.drop (tcpHeader opts.bytes) := fun b => by simp [store]
  simp only [store_at hh, store_after hh, hclear]
  have hstore := storeTcp_eq fields opts.bytes payload.bytes ((output.bytes.drop F.headerSize).drop (tcpHeader opts.bytes))
  dsimp only [storeTcp] at hstore
  rw [hstore, drop_left' hh, take_left' length_tcpBytes, store_tcpSum, drop_drop, drop_drop]
  simp only [emitted, hh, length_tcpBytes]

end Emitted

section Overloads

lemma store_clear (out : List UInt8) (k : ℕ) : store (store out 0 (replicate (20 + k) 0)) 0 (replicate 20 0) =
    store out 0 (replicate (20 + k) 0) := by
  rw [replicate_add]
  simp [store, replicate]

lemma drop_clear (out : List UInt8) (k : ℕ) : (store out 0 (replicate (20 + k) 0)).drop 20 =
    replicate k 0 ++ out.drop (20 + k) := by
  rw [replicate_add]
  simp [store, replicate]
  omega

lemma header4_clear (out : List UInt8) (s d : Ipv4) (p : UInt8) {l n : ℕ} (hn : 20 + l = n) (t : UInt8) (i k : ℕ) :
    (let output := store out 0 (replicate (20 + k) 0)
      let output := store (store (store output 0 [0x45]) 8 [t]) 9 [p]
      let output := store (store (store output 2 (bytes16 n)) 4 (bytes16 i)) 6 (bytes16 0x4000)
      let output := store (store output 12 (ofFn s)) 16 (ofFn d)
      store output 10 (bytes16 (checksum (output.take 20)))) = store (header4 out s d p l t i) 20 (replicate k 0) := by
  have hh : (head4 s d p l t i).length = 20 := length_head4 s d
  rw [header4_eq out, store_at hh, ← hn]
  trans header4 (store out 0 (replicate (20 + k) 0)) s d p l t i
  · rw [header4, store_clear]
  · rw [header4_eq, drop_clear]
    simp [store]

/-- The overload clears the UDP header and stores no zero checksum; the generic codec stores one. -/
lemma stores_udp4 (out : List UInt8) (s d : Ipv4) (l : ℕ) (t : UInt8) (i sp dp : ℕ) (payload : List UInt8) :
    let head := header4 out s d 17 l t i
    store (store (store (store (store head 20 (replicate 8 0)) 20 (bytes16 sp)) 22 (bytes16 dp)) 24 (bytes16 l)) 28 payload =
      store (store (store (store (store head 20 (bytes16 sp)) 22 (bytes16 dp)) 24 (bytes16 l)) 26 (bytes16 0)) 28 payload := by
  have hh : (head4 s d 17 l t i).length = 20 := length_head4 s d
  simp only [header4_eq, store_at hh, store_after (k := 2) hh, store_after (k := 4) hh, store_after (k := 6) hh,
    store_after (k := 8) hh]
  simp [store, bytes16, replicate]

lemma overlaps_inline (input : Span) (first : ℕ) {length : ℕ} (h : 0 < length) :
    (!input.bytes.isEmpty && (if input.data ≥ first then decide (input.data - first < length)
      else decide (first - input.data < input.bytes.length))) = overlaps input first length := by
  unfold overlaps
  cases input.bytes.isEmpty <;> simp [h.ne']

end Overloads

section Views

variable {F : AddressFamily} {Sender : F.Address → Prop} {ip : F.Packet} {s d : F.Address} {sp dp : UInt16}
  {fields : TcpFields} {opts payload : List UInt8} {type code : UInt8} {rest : UInt32} {v : ℕ}

lemma udp_ok (L : Lawful F Sender) (hn : F.protocol ip = 17) (hs : F.source ip = s) (hd : F.destination ip = d)
    (hp : F.payload ip = udpBytes sp dp
      (udpSum (F.pseudo s d 17 (8 + payload.length)) sp dp payload) payload)
    (hz : dp ≠ 0) (hl : 8 + payload.length ≤ 65535) :
    udp F ip = .ok ⟨sp.toNat, dp.toNat, true, payload⟩ := by
  have hsum := sum_udpBytes sp dp payload (L.pseudo_lt s d 17 (8 + payload.length) hl)
  have hv := udpSum_range (F.pseudo s d 17 (8 + payload.length)) sp dp payload
  generalize udpSum (F.pseudo s d 17 (8 + payload.length)) sp dp payload = value at *
  have h0 : be16 (udpBytes sp dp value payload) 0 = _ := be16_at rfl sp.toNat_lt
  have h2 : be16 (udpBytes sp dp value payload) 2 = _ := be16_at rfl dp.toNat_lt
  have h4 : be16 (udpBytes sp dp value payload) 4 = 8 + payload.length := be16_at rfl (by omega)
  have h6 : be16 (udpBytes sp dp value payload) 6 = _ := be16_at rfl hv.2
  have htake : (udpBytes sp dp value payload).take (8 + payload.length) = udpBytes sp dp value payload := by
    rw [← length_udpBytes, take_length]
  have hport : dp.toNat ≠ 0 := fun h => hz (UInt16.toNat_inj.mp h)
  unfold udp
  simp only [hn, hs, hd, hp, h4, htake, h0, h2, h6, length_udpBytes, hsum]
  rw [if_neg (by simp), if_neg (by omega), if_neg (by simp), if_neg hport, if_neg (by omega), if_neg (by simp)]
  simp [hv.1.ne', udpBytes, bytes16]

lemma icmp_ok (L : Lawful F Sender) (hn : F.protocol ip = F.icmpProtocol) (hs : F.source ip = s) (hd : F.destination ip = d)
    (hp : F.payload ip = icmpBytes type code (65535 - sum (icmpBytes type code 0 rest payload)
      (F.icmpInitial s d (8 + payload.length))) rest payload) (hl : 8 + payload.length ≤ 65535) :
    icmp F ip = .ok ⟨type, code, rest.toNat, F.payload ip, payload⟩ := by
  have hsum : sum (F.payload ip) (F.icmpInitial s d (8 + payload.length)) = 65535 := by
    rw [hp]
    exact sum_checksum (a := [type, code]) (by simp) (L.icmp_lt s d _ hl) (.inl rfl)
  have h4 : be32 (F.payload ip) 4 = rest.toNat := by
    rw [hp]
    exact be32_at rfl rest.toNat_lt
  have hlen : (F.payload ip).length = 8 + payload.length := by rw [hp, length_icmpBytes]
  unfold icmp
  rw [if_neg (by simp [hn]), hlen, if_neg (by omega), hs, hd, hsum, if_neg (by simp), h4]
  rw [hp]
  simp [icmpBytes, bytes16, bytes32, byte]

lemma readFields_tcpBytes : readFields (tcpBytes fields opts v payload) = fields := by
  have h0 : be16 (tcpBytes fields opts v payload) 0 = _ := be16_at rfl fields.sourcePort.toNat_lt
  have h2 : be16 (tcpBytes fields opts v payload) 2 = _ := be16_at rfl fields.destinationPort.toNat_lt
  have h4 : be32 (tcpBytes fields opts v payload) 4 = _ := be32_at rfl fields.sequence.toNat_lt
  have h8 : be32 (tcpBytes fields opts v payload) 8 = _ := be32_at rfl fields.acknowledgment.toNat_lt
  have h14 : be16 (tcpBytes fields opts v payload) 14 = _ := be16_at rfl fields.window.toNat_lt
  have h18 : be16 (tcpBytes fields opts v payload) 18 = _ := be16_at rfl fields.urgentPointer.toNat_lt
  have h13 : byte (tcpBytes fields opts v payload) 13 = fields.flags := rfl
  simp [readFields, h0, h2, h4, h8, h13, h14, h18]

lemma tcp_ok (L : Lawful F Sender) (hn : F.protocol ip = 6) (hs : F.source ip = s) (hd : F.destination ip = d)
    (hp : F.payload ip = tcpBytes fields opts (65535 - sum (tcpBytes fields opts 0 payload)
      (F.pseudo s d 6 (tcpHeader opts + payload.length))) payload)
    (ho : options opts fields.flags = .ok ()) (hl : tcpHeader opts + payload.length ≤ F.maxPacket - F.headerSize) :
    tcp F ip = .ok ⟨fields, padded opts, payload⟩ := by
  have hsize := options_length ho
  have hsum : sum (F.payload ip) (F.pseudo s d 6 (tcpHeader opts + payload.length)) = 65535 := by
    rw [hp]
    exact sum_checksum (a := tcpBefore fields opts) (by simp [tcpBefore, bytes16, bytes32])
      (L.pseudo_lt s d 6 _ (hl.trans L.limit)) (.inl rfl)
  have hlen : (F.payload ip).length = tcpHeader opts + payload.length := by rw [hp, length_tcpBytes]
  have hnibble : ∀ k < 16, ((UInt8.ofNat k <<< 4) >>> 4).toNat = k := by decide
  have h12 : (byte (F.payload ip) 12 >>> 4).toNat * 4 = tcpHeader opts := by
    have hb : byte (F.payload ip) 12 = UInt8.ofNat (tcpHeader opts / 4) <<< 4 := by
      rw [hp]
      rfl
    rw [hb, hnibble _ (by unfold tcpHeader; omega)]
    unfold tcpHeader
    omega
  have h13 : byte (F.payload ip) 13 = fields.flags := by
    rw [hp]
    rfl
  have hread : readFields (F.payload ip) = fields := by rw [hp, readFields_tcpBytes]
  have hdrop : (F.payload ip).drop 20 = padded opts ++ payload := by
    rw [hp]
    rfl
  have hopts : ((F.payload ip).drop 20).take (tcpHeader opts - 20) = padded opts := by
    rw [hdrop, take_left' (by rw [length_padded]; unfold tcpHeader; omega)]
  have hpay : (F.payload ip).drop (tcpHeader opts) = payload := by
    rw [← drop_drop, hdrop, drop_left' (length_padded opts)]
  unfold tcp
  simp only [h12, h13, hread, hopts, hpay, hs, hd, hlen, hsum, options_padded ho]
  rw [if_neg (by simp [hn]), if_neg (by unfold tcpHeader at *; omega), if_neg (by unfold tcpHeader at *; omega), if_neg (by simp)]

end Views

section RoundTrips

variable {F : AddressFamily} {Sender : F.Address → Prop} {output payload opts : Span} {s d : F.Address}
  {sp dp ident : UInt16} {ttl : UInt8} {fields : TcpFields}

def Reads (F : AddressFamily) (built : Result ℕ × List UInt8) (size : ℕ) (s d : F.Address) (view : F.Packet → Prop) : Prop :=
  ∃ out, built = (.ok size, out) ∧ ∀ rest, ∃ ip, F.parse (out.take size ++ rest) = .ok ip ∧ F.source ip = s ∧
    F.destination ip = d ∧ view ip

def Unchanged (built : Result ℕ × List UInt8) (output : Span) : Prop := ∀ status, built.1 = .error status → built.2 = output.bytes

structure RoundTrip (F : AddressFamily) (Sender : F.Address → Prop) : Prop where
  udp : ∀ (output payload : Span) (s d : F.Address) (sourcePort destinationPort identification : UInt16) (ttl : UInt8),
    Sender s → ttl ≠ 0 → destinationPort ≠ 0 → F.headerSize + 8 + payload.bytes.length ≤ F.maxPacket →
    F.headerSize + 8 + payload.bytes.length ≤ output.bytes.length →
    overlaps payload output.data (F.headerSize + 8 + payload.bytes.length) = false →
    Reads F (buildUdp F output s d sourcePort destinationPort identification ttl payload) (F.headerSize + 8 + payload.bytes.length)
      s d fun ip => udp F ip = .ok ⟨sourcePort.toNat, destinationPort.toNat, true, payload.bytes⟩
  tcp : ∀ (output opts payload : Span) (s d : F.Address) (identification : UInt16) (ttl : UInt8) (fields : TcpFields),
    Sender s → ttl ≠ 0 → options opts.bytes fields.flags = .ok () →
    F.headerSize + tcpHeader opts.bytes + payload.bytes.length ≤ F.maxPacket →
    F.headerSize + tcpHeader opts.bytes + payload.bytes.length ≤ output.bytes.length →
    overlaps opts output.data (F.headerSize + tcpHeader opts.bytes + payload.bytes.length) = false →
    overlaps payload output.data (F.headerSize + tcpHeader opts.bytes + payload.bytes.length) = false →
    Reads F (buildTcp F output s d identification ttl fields opts payload)
      (F.headerSize + tcpHeader opts.bytes + payload.bytes.length) s d fun ip =>
        tcp F ip = .ok ⟨fields, padded opts.bytes, payload.bytes⟩
  icmp : ∀ (output body : Span) (s d : F.Address) (ttl : UInt8) (identification : UInt16) (type code : UInt8) (rest : UInt32),
    Sender s → ttl ≠ 0 → F.headerSize + 8 + body.bytes.length ≤ F.maxPacket →
    F.headerSize + 8 + body.bytes.length ≤ output.bytes.length →
    overlaps body output.data (F.headerSize + 8 + body.bytes.length) = false →
    Reads F (buildIcmp F output s d ttl identification type code rest body) (F.headerSize + 8 + body.bytes.length) s d fun ip =>
      icmp F ip = .ok ⟨type, code, rest.toNat, F.payload ip, body.bytes⟩

lemma reads_emitted (L : Lawful F Sender) {built : Result ℕ × List UInt8} {p ttl : UInt8} {l i size : ℕ}
    {datagram bytes : List UInt8} {view : F.Packet → Prop} (hs : Sender s)
    (hb : built = (.ok size, emitted (F.header [] s d p l ttl i) datagram bytes)) (hd : datagram.length = l)
    (hsize : size = F.headerSize + l) (hl : l ≤ F.maxPacket - F.headerSize) (hp : p = 6 ∨ p = 17 ∨ p = F.icmpProtocol)
    (hv : ∀ ip, F.protocol ip = p → F.source ip = s → F.destination ip = d → F.payload ip = datagram → view ip) :
    Reads F built size s d view := by
  refine ⟨_, hb, fun rest => ?_⟩
  have htake : (emitted (F.header [] s d p l ttl i) datagram bytes).take size = F.header [] s d p l ttl i ++ datagram := by
    rw [emitted, ← append_assoc, take_left']
    rw [length_append, L.header_length, hd, hsize]
  rw [htake, append_assoc]
  obtain ⟨ip, hparse, h1, h2, h3, h4⟩ := L.parse s d p l ttl i datagram rest hs hd hl hp
  exact ⟨ip, hparse, h1, h2, hv ip h3 h1 h2 h4⟩

lemma roundTrip (L : Lawful F Sender) : RoundTrip F Sender where
  udp output payload s d sp dp ident ttl hs ht hz hl hc ha := by
    have hmax := L.limit
    exact reads_emitted L hs (buildUdp_ok L rfl rfl ht (by omega) (by omega) hc ha) length_udpBytes (by omega) (by omega) (by simp)
      fun ip hn hs hd hp => udp_ok L hn hs hd hp hz (by omega)
  tcp output opts payload s d ident ttl fields hs ht ho hl hc ha hb := by
    exact reads_emitted L hs (buildTcp_ok L rfl rfl ht ho (by omega) hc ha hb) length_tcpBytes (by omega) (by omega) (by simp)
      fun ip hn hs hd hp => tcp_ok L hn hs hd hp ho (by omega)
  icmp output body s d ttl ident type code rest hs ht hl hc ha := by
    have hmax := L.limit
    exact reads_emitted L hs (buildIcmp_ok L rfl rfl ht (by omega) (by omega) hc ha) length_icmpBytes (by omega) (by omega)
      (by simp)
      fun ip hn hs hd hp => icmp_ok L hn hs hd hp (by omega)

end RoundTrips

section Failures

variable (F : AddressFamily) (output payload opts : Span) (sp dp ident : UInt16) (ttl : UInt8)
  (fields : TcpFields)

lemma buildUdp_unchanged (s d : F.Address) : Unchanged (buildUdp F output s d sp dp ident ttl payload) output := by
  intro status h
  unfold buildUdp at h ⊢
  dsimp only at h ⊢
  split_ifs at h ⊢ <;> rfl

lemma buildUdp4_unchanged (s d : Ipv4) : Unchanged (buildUdp4 output s d sp dp ident ttl payload) output := by
  intro status h
  unfold buildUdp4 at h ⊢
  dsimp only at h ⊢
  split_ifs at h ⊢ <;> rfl

lemma buildIcmp_unchanged (s d : F.Address) (type code : UInt8) (rest : UInt32) :
    Unchanged (buildIcmp F output s d ttl ident type code rest payload) output := by
  intro status h
  unfold buildIcmp at h ⊢
  dsimp only at h ⊢
  split_ifs at h ⊢ <;> rfl

lemma buildTcp_unchanged (s d : F.Address) : Unchanged (buildTcp F output s d ident ttl fields opts payload) output := by
  intro status h
  unfold buildTcp at h ⊢
  cases ho : options opts.bytes fields.flags <;> simp only [ho] at h ⊢ <;> split_ifs at h ⊢ <;> rfl

lemma buildTcp4_unchanged (s d : Ipv4) : Unchanged (buildTcp4 output s d ident ttl fields opts payload) output := by
  intro status h
  unfold buildTcp4 at h ⊢
  cases ho : options opts.bytes fields.flags <;> simp only [ho] at h ⊢ <;> split_ifs at h ⊢ <;> rfl

end Failures

section Agreement

variable (output payload opts : Span) (s d : Ipv4) (sp dp ident : UInt16) (ttl : UInt8)
  (fields : TcpFields)

def codes {α : Type} (result : Result α) : Except StatusCode α := result.mapError Status.code

def Agree (x y : Result ℕ × List UInt8) : Prop := codes x.1 = codes y.1 ∧ x.2 = y.2

lemma codes_ok {α : Type} {result : Result α} {v : α} : codes result = .ok v ↔ result = .ok v := by
  cases result <;> simp [codes, Except.mapError]

lemma buildUdp_agree : Agree (buildUdp ipv4Family output s d sp dp ident ttl payload)
    (buildUdp4 output s d sp dp ident ttl payload) := by
  have hlen : 20 + (28 + payload.bytes.length - 20) = 28 + payload.bytes.length := by omega
  have hhead := header4_clear output.bytes s d 17 hlen ttl ident.toNat 8
  have hstores := stores_udp4 output.bytes s d (28 + payload.bytes.length - 20) ttl ident.toNat sp.toNat dp.toNat payload.bytes
  have hlimit : (payload.bytes.length > 65507 ∨ output.bytes.length < 28 + payload.bytes.length) ↔
      (payload.bytes.length > 65535 - 20 - 8 ∨ payload.bytes.length > 65535 - 8 ∨
        output.bytes.length < 20 + 8 + payload.bytes.length) := by
    omega
  unfold buildUdp buildUdp4
  simp only [hhead, hstores, hlimit, overlaps_inline payload output.data (show 0 < 28 + payload.bytes.length by omega)]
  split_ifs <;> exact ⟨rfl, rfl⟩

lemma buildTcp_agree : Agree (buildTcp ipv4Family output s d ident ttl fields opts payload)
    (buildTcp4 output s d ident ttl fields opts payload) := by
  have hlimit : ipv4Family.maxPacket - ipv4Family.headerSize - tcpHeader opts.bytes = 65515 - tcpHeader opts.bytes := rfl
  have hlen : 20 + (20 + tcpHeader opts.bytes + payload.bytes.length - 20) = 20 + tcpHeader opts.bytes + payload.bytes.length := by
    omega
  have hhead := header4_clear output.bytes s d 6 hlen ttl ident.toNat (tcpHeader opts.bytes)
  unfold buildTcp buildTcp4
  cases options opts.bytes fields.flags with
  | error status =>
    dsimp only
    split_ifs <;> exact ⟨rfl, rfl⟩
  | ok =>
    simp only [hhead, hlimit]
    split_ifs <;> exact ⟨rfl, rfl⟩

lemma udp_agree (ip : Ipv4Packet) : codes (udp ipv4Family ip) = codes (udp4 ip) := by
  unfold udp udp4
  simp only [codes, apply_ite (Except.mapError Status.code), show ¬ (4 = 6) by decide, and_false, if_false]
  rfl

lemma tcp_agree (ip : Ipv4Packet) : codes (tcp ipv4Family ip) = codes (tcp4 ip) := by
  unfold tcp tcp4
  simp only [codes, apply_ite (Except.mapError Status.code)]
  rfl

/-- At the IPv4 family the generic codecs are the IPv4 overloads: the same result codes and lengths and the same output bytes
for all arguments, and the same views of the same packets. -/
theorem ipv4_overloads_agree :
    (∀ (output payload : Span) (s d : Ipv4) (sourcePort destinationPort identification : UInt16) (ttl : UInt8),
      Agree (buildUdp ipv4Family output s d sourcePort destinationPort identification ttl payload)
        (buildUdp4 output s d sourcePort destinationPort identification ttl payload)) ∧
    (∀ (output opts payload : Span) (s d : Ipv4) (identification : UInt16) (ttl : UInt8) (fields : TcpFields),
      Agree (buildTcp ipv4Family output s d identification ttl fields opts payload)
        (buildTcp4 output s d identification ttl fields opts payload)) ∧
    (∀ ip, codes (udp ipv4Family ip) = codes (udp4 ip)) ∧ ∀ ip, codes (tcp ipv4Family ip) = codes (tcp4 ip) :=
  ⟨fun output payload s d sourcePort destinationPort identification ttl =>
      buildUdp_agree output payload s d sourcePort destinationPort identification ttl,
    fun output opts payload s d identification ttl fields =>
      buildTcp_agree output payload opts s d identification ttl fields,
    udp_agree, tcp_agree⟩

structure RoundTrip4 : Prop where
  udp : ∀ (output payload : Span) (s d : Ipv4) (sourcePort destinationPort identification : UInt16) (ttl : UInt8),
    ttl ≠ 0 → destinationPort ≠ 0 → 28 + payload.bytes.length ≤ 65535 → 28 + payload.bytes.length ≤ output.bytes.length →
    overlaps payload output.data (28 + payload.bytes.length) = false →
    Reads ipv4Family (buildUdp4 output s d sourcePort destinationPort identification ttl payload) (28 + payload.bytes.length) s d
      fun ip => udp4 ip = .ok ⟨sourcePort.toNat, destinationPort.toNat, true, payload.bytes⟩
  tcp : ∀ (output opts payload : Span) (s d : Ipv4) (identification : UInt16) (ttl : UInt8) (fields : TcpFields),
    ttl ≠ 0 → options opts.bytes fields.flags = .ok () → 20 + tcpHeader opts.bytes + payload.bytes.length ≤ 65535 →
    20 + tcpHeader opts.bytes + payload.bytes.length ≤ output.bytes.length →
    overlaps opts output.data (20 + tcpHeader opts.bytes + payload.bytes.length) = false →
    overlaps payload output.data (20 + tcpHeader opts.bytes + payload.bytes.length) = false →
    Reads ipv4Family (buildTcp4 output s d identification ttl fields opts payload)
      (20 + tcpHeader opts.bytes + payload.bytes.length) s d fun ip => tcp4 ip = .ok ⟨fields, padded opts.bytes, payload.bytes⟩

lemma Reads.agree {x y : Result ℕ × List UInt8} {size : ℕ} {s d : Ipv4} {α : Type} {f g : Ipv4Packet → Result α} {v : α}
    (h : Reads ipv4Family x size s d fun ip => f ip = .ok v) (hxy : Agree x y) (hfg : ∀ ip, codes (f ip) = codes (g ip)) :
    Reads ipv4Family y size s d fun ip => g ip = .ok v := by
  obtain ⟨out, rfl, hread⟩ := h
  have hy := codes_ok.mp hxy.1.symm
  refine ⟨out, Prod.ext hy hxy.2.symm, fun rest => ?_⟩
  obtain ⟨ip, hparse, hs, hd, hv⟩ := hread rest
  exact ⟨ip, hparse, hs, hd, codes_ok.mp ((hfg ip).symm.trans (codes_ok.mpr hv))⟩

lemma roundTrip4 : RoundTrip4 where
  udp output payload s d sp dp ident ttl ht hz hl hc ha :=
    ((roundTrip lawful4).udp output payload s d sp dp ident ttl trivial ht hz hl hc ha).agree
      (buildUdp_agree output payload s d sp dp ident ttl) udp_agree
  tcp output opts payload s d ident ttl fields ht ho hl hc ha hb :=
    ((roundTrip lawful4).tcp output opts payload s d ident ttl fields trivial ht ho hl hc ha hb).agree
      (buildTcp_agree output payload opts s d ident ttl fields) tcp_agree

section Datagram

variable {output opts payload : Span} {identification : UInt16} {ttl : UInt8} {fields : TcpFields} {source destination : IpAddress}

/-- The fields as the endpoints see them: without the urgent pointer, and with the numbers as they count with them. -/
def TcpFields.wire (fields : TcpFields) : Wire.TcpFields :=
  ⟨fields.sourcePort.toNat, fields.destinationPort.toNat, fields.sequence.toBitVec, fields.acknowledgment.toBitVec, fields.flags,
    fields.window.toNat⟩

/-- What was built fails with the same status as the datagram, or reads back as its segment. -/
def Stands (F : AddressFamily) (built : Result ℕ × List UInt8) (s d : F.Address) (read : F.Packet → Result Tcp)
    (opts : List UInt8) :
    Result (ℕ × Datagram) → Prop
  | .ok (length, datagram) => Reads F built length s d fun ip => ∃ tcp, read ip = .ok tcp ∧
    datagram.tcp = ⟨tcp.fields.wire, opts, tcp.payload⟩ ∧ tcp.options = padded opts
  | .error status => built.1 = .error status

lemma buildTcp_stands {F : AddressFamily} {built : Result ℕ × List UInt8} {s d : F.Address} {read : F.Packet → Result Tcp}
    {size : ℕ}
    (hsize : packetLength source.family opts.bytes.length payload.bytes.length = size)
    (hshort : output.bytes.length < size → built.1 = .error (match source.family with
      | .ipv4 => .overflow "IPv4 TCP packet exceeds output capacity"
      | .ipv6 => .overflow "TCP packet exceeds output capacity"))
    (hread : size ≤ output.bytes.length →
      Reads F built size s d fun ip => read ip = .ok ⟨fields, padded opts.bytes, payload.bytes⟩) :
    Stands F built s d read opts.bytes
      (Wire.buildTcp output.bytes.length source destination fields.wire opts.bytes payload.bytes) := by
  unfold Wire.buildTcp
  rw [hsize]
  dsimp only
  by_cases hlt : output.bytes.length < size
  · rw [if_pos hlt]
    have herror := hshort hlt
    cases hf : source.family <;> rw [hf] at herror <;> exact herror
  · rw [if_neg hlt]
    obtain ⟨out, hout, hip⟩ := hread (not_lt.mp hlt)
    refine ⟨out, hout, fun rest => ?_⟩
    obtain ⟨ip, hparse, hs, hd, hview⟩ := hip rest
    exact ⟨ip, hparse, hs, hd, _, hview, rfl, rfl⟩

variable (ht : ttl ≠ 0) (ho : options opts.bytes fields.flags = .ok ())

include ht ho

/-- A datagram of the endpoints stands for the bytes that the codec of its family builds and reads. -/
theorem buildTcp6_datagram {s d : Ipv6} (hf : source.family = .ipv6) (hs : multicast s = false)
    (hl : 40 + tcpHeader opts.bytes + payload.bytes.length ≤ ipv6Family.maxPacket)
    (ha : overlaps opts output.data (40 + tcpHeader opts.bytes + payload.bytes.length) = false)
    (hb : overlaps payload output.data (40 + tcpHeader opts.bytes + payload.bytes.length) = false) :
    Stands ipv6Family (buildTcp ipv6Family output s d identification ttl fields opts payload) s d (tcp ipv6Family) opts.bytes
      (Wire.buildTcp output.bytes.length source destination fields.wire opts.bytes payload.bytes) := by
  refine buildTcp_stands (by rw [hf]; rfl) (fun hlt => ?_) fun hc =>
    (roundTrip lawful6).tcp output opts payload s d identification ttl fields hs ht ho hl hc ha hb
  simp only [tcpHeader] at hl hlt
  simp only [buildTcp, if_neg ht, ho, hf]
  rw [if_neg (by omega), if_pos hlt]

theorem buildTcp4_datagram {s d : Ipv4} (hf : source.family = .ipv4)
    (hl : 20 + tcpHeader opts.bytes + payload.bytes.length ≤ 65535)
    (ha : overlaps opts output.data (20 + tcpHeader opts.bytes + payload.bytes.length) = false)
    (hb : overlaps payload output.data (20 + tcpHeader opts.bytes + payload.bytes.length) = false) :
    Stands ipv4Family (buildTcp4 output s d identification ttl fields opts payload) s d tcp4 opts.bytes
      (Wire.buildTcp output.bytes.length source destination fields.wire opts.bytes payload.bytes) := by
  refine buildTcp_stands (by rw [hf]; rfl) (fun hlt => ?_) fun hc =>
    roundTrip4.tcp output opts payload s d identification ttl fields ht ho hl hc ha hb
  simp only [tcpHeader] at hl hlt
  simp only [buildTcp4, if_neg ht, ho, hf]
  rw [if_neg (by omega), if_pos hlt]

end Datagram

/-- The codecs of both families and the IPv4 overloads read back what they build, whatever the payload's length, and a build
that fails writes nothing. -/
theorem transport_codecs_round_trip :
    RoundTrip ipv4Family (fun _ => True) ∧ RoundTrip ipv6Family (fun s => multicast s = false) ∧ RoundTrip4 ∧
    (∀ (F : AddressFamily) (output payload opts : Span) (s d : F.Address)
      (sourcePort destinationPort identification : UInt16) (ttl type code : UInt8) (rest : UInt32) (fields : TcpFields),
      Unchanged (buildUdp F output s d sourcePort destinationPort identification ttl payload) output ∧
      Unchanged (buildTcp F output s d identification ttl fields opts payload) output ∧
      Unchanged (buildIcmp F output s d ttl identification type code rest payload) output) ∧
    ∀ (output payload opts : Span) (s d : Ipv4) (sourcePort destinationPort identification : UInt16) (ttl : UInt8)
      (fields : TcpFields),
      Unchanged (buildUdp4 output s d sourcePort destinationPort identification ttl payload) output ∧
      Unchanged (buildTcp4 output s d identification ttl fields opts payload) output := by
  refine ⟨roundTrip lawful4, roundTrip lawful6, roundTrip4, ?_, ?_⟩
  · intro F output payload opts s d sourcePort destinationPort identification ttl type code rest fields
    exact ⟨buildUdp_unchanged F output payload sourcePort destinationPort identification ttl s d,
      buildTcp_unchanged F output payload opts identification ttl fields s d,
      buildIcmp_unchanged F output payload identification ttl s d type code rest⟩
  intro output payload opts s d sourcePort destinationPort identification ttl fields
  exact ⟨buildUdp4_unchanged output payload sourcePort destinationPort identification ttl s d,
    buildTcp4_unchanged output payload opts identification ttl fields s d⟩

/-- A query over IPv6, and a SYN over IPv4 that offers a segment size. -/
theorem transport_codecs_round_trip_probe : (let s : Ipv6 := fun i => if i = 15 then 1 else 0
    Reads ipv6Family (buildUdp ipv6Family ⟨0, List.replicate 64 0⟩ s s 5353 53 7 64 ⟨100, [1, 2, 3]⟩) 51 s s fun ip =>
      udp ipv6Family ip = .ok ⟨5353, 53, true, [1, 2, 3]⟩) ∧
    Reads ipv4Family (buildTcp4 ⟨0, List.replicate 64 0⟩ (fun _ => 10) (fun _ => 11) 7 64 ⟨5, 80, 9, 0, 2, 512, 0⟩
      ⟨100, [2, 4, 5, 180]⟩ ⟨200, []⟩) 44 (fun _ => 10) (fun _ => 11) fun ip =>
        tcp4 ip = .ok ⟨⟨5, 80, 9, 0, 2, 512, 0⟩, [2, 4, 5, 180], []⟩ := by
  obtain ⟨-, h6, h4, -⟩ := transport_codecs_round_trip
  refine ⟨h6.udp ⟨0, List.replicate 64 0⟩ ⟨100, [1, 2, 3]⟩ _ _ 5353 53 7 64 ?_ ?_ ?_ ?_ ?_ ?_,
    h4.tcp ⟨0, List.replicate 64 0⟩ ⟨100, [2, 4, 5, 180]⟩ ⟨200, []⟩ _ _ 7 64 ⟨5, 80, 9, 0, 2, 512, 0⟩ ?_ ?_ ?_ ?_ ?_ ?_⟩ <;>
    decide +kernel

end Agreement

end ObfuscationKernel.Net.Codec
