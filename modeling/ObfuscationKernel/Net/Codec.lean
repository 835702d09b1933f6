import ObfuscationKernel.Net.Wire
import ObfuscationKernel.Library.OnesComplement

/-! The byte codecs of IPv4, IPv6, UDP, TCP and ICMP. Builders write into an output buffer; a span carries the address of
its first byte for the tests of overlap. -/

namespace ObfuscationKernel.Net.Codec

open ObfuscationKernel.Core Wire Library OnesComplement

structure Span where
  data : ℕ
  bytes : List UInt8

def be32 (bytes : List UInt8) (at_ : ℕ) : ℕ := be16 bytes at_ * 65536 + be16 bytes (at_ + 2)

def bytes16 (value : ℕ) : List UInt8 := [UInt8.ofNat (value / 256), UInt8.ofNat value]

def bytes32 (value : ℕ) : List UInt8 := bytes16 (value / 65536) ++ bytes16 value

def store (output : List UInt8) (at_ : ℕ) (bytes : List UInt8) : List UInt8 :=
  output.take at_ ++ bytes ++ output.drop (at_ + bytes.length)

def sumWords : ℕ → List UInt8 → ℕ
  | value, [] => value
  | value, [a] => fold (value + a.toNat * 256)
  | value, a :: b :: rest => sumWords (fold (value + (a.toNat * 256 + b.toNat))) rest

/-- The one's complement sum; the carries of a 32-bit value are gone after two folds. -/
def sum (bytes : List UInt8) (initial : ℕ) : ℕ :=
  (fun value => if value / 65536 ≠ 0 then fold value else value)^[2] (sumWords (fold initial) bytes)

def checksum (bytes : List UInt8) : ℕ := 65535 - sum bytes 0

structure Ipv4Packet where
  source : Ipv4
  destination : Ipv4
  trafficClass : UInt8
  ttl : UInt8
  protocol : UInt8
  identification : ℕ
  dontFragment : Bool
  payload : List UInt8

def ipv4 (packet : List UInt8) : Result Ipv4Packet :=
  if packet.length < 20 then .error (.invalidArgument "truncated IPv4 header")
  else if byte packet 0 >>> 4 ≠ 4 then .error (.unsupported "packet is not IPv4")
  else
    let header := (byte packet 0 &&& 15).toNat * 4
    if header < 20 || header > packet.length then .error (.invalidArgument "invalid IPv4 header length")
    else
      let length := be16 packet 2
      if length < header || length > packet.length then .error (.invalidArgument "invalid IPv4 total length")
      else if checksum (packet.take header) ≠ 0 then .error (.invalidArgument "invalid IPv4 header checksum")
      else
        let fragments := be16 packet 6
        if fragments &&& 0x8000 ≠ 0 then .error (.invalidArgument "IPv4 reserved fragment bit is set")
        else if fragments &&& 0x3fff ≠ 0 then .error (.unsupported "IPv4 fragment reassembly is not yet available")
        else if header ≠ 20 then .error (.unsupported "IPv4 options are not yet available")
        else .ok {
          source := fun i => byte packet (12 + i), destination := fun i => byte packet (16 + i)
          trafficClass := byte packet 1, ttl := byte packet 8, protocol := byte packet 9
          identification := be16 packet 4, dontFragment := fragments &&& 0x4000 != 0
          payload := (packet.drop header).take (length - header) }

def pseudoSum4 (source destination : Ipv4) (protocol : UInt8) (length : ℕ) : ℕ :=
  let value := protocol.toNat + length + ((source 0).toNat * 256 + (source 1).toNat) + ((source 2).toNat * 256 + (source 3).toNat) +
    ((destination 0).toNat * 256 + (destination 1).toNat) + ((destination 2).toNat * 256 + (destination 3).toNat)
  fold value

structure Ipv6Packet where
  source : Ipv6
  destination : Ipv6
  trafficClass : UInt8
  hopLimit : UInt8
  protocol : UInt8
  flowLabel : ℕ
  payload : List UInt8

def optionsFrom (header : List UInt8) : ℕ → ℕ → Result Unit
  | 0, _ => .ok ()
  | fuel + 1, at_ =>
    if at_ ≥ header.length then .ok ()
    else
      let type := byte header at_
      if type = 0 then optionsFrom header fuel (at_ + 1)
      else if header.length - at_ < 2 then .error (.invalidArgument "truncated IPv6 option")
      else
        let length := 2 + (byte header (at_ + 1)).toNat
        if length > header.length - at_ then .error (.invalidArgument "invalid IPv6 option length")
        else if type ≠ 1 && type >>> 6 != 0 then
          .error (.unsupported "IPv6 option requires processing outside this profile")
        else optionsFrom header fuel (at_ + length)

/-- The extension headers: the protocol behind them and where its bytes begin. Each header has at least eight bytes, so a
payload's length bounds their number. -/
def extensions (payload : List UInt8) : ℕ → Bool → UInt8 → ℕ → Result (UInt8 × ℕ)
  | 0, _, next, at_ => .ok (next, at_)
  | fuel + 1, first, next, at_ =>
    if next = 0 && !first then .error (.invalidArgument "IPv6 hop-by-hop header must follow the fixed header")
    else if next ≠ 0 ∧ next ≠ 43 ∧ next ≠ 60 then
      if next = 44 then .error (.unsupported "IPv6 fragment reassembly is not yet available") else .ok (next, at_)
    else if payload.length - at_ < 8 then .error (.invalidArgument "truncated IPv6 extension header")
    else
      let size := ((byte payload (at_ + 1)).toNat + 1) * 8
      if size > payload.length - at_ then .error (.invalidArgument "invalid IPv6 extension header length")
      else
        let header := (payload.drop at_).take size
        if next = 43 then
          if byte header 3 ≠ 0 then .error (.unsupported "IPv6 routing header has segments left")
          else extensions payload fuel false (byte header 0) (at_ + size)
        else
          match optionsFrom header (header.length + 1) 2 with
          | .error status => .error status
          | .ok _ => extensions payload fuel false (byte header 0) (at_ + size)

def ipv6 (packet : List UInt8) : Result Ipv6Packet :=
  if packet.length < 40 then .error (.invalidArgument "truncated IPv6 header")
  else if byte packet 0 >>> 4 ≠ 6 then .error (.unsupported "packet is not IPv6")
  else
    let length := be16 packet 4
    if 40 + length > packet.length then .error (.invalidArgument "invalid IPv6 payload length")
    else
      let source : Ipv6 := fun i => byte packet (8 + i)
      if multicast source then .error (.invalidArgument "IPv6 source address is multicast")
      else
        let payload := (packet.drop 40).take length
        match extensions payload (payload.length + 1) true (byte packet 6) 0 with
        | .error status => .error status
        | .ok (protocol, at_) => .ok {
            source := source, destination := fun i => byte packet (24 + i)
            trafficClass := (byte packet 0 &&& 15) <<< 4 ||| byte packet 1 >>> 4
            hopLimit := byte packet 7, protocol := protocol
            flowLabel := (byte packet 1 &&& 15).toNat * 65536 + be16 packet 2
            payload := payload.drop at_ }

def pseudoSum6 (source destination : Ipv6) (protocol : UInt8) (length : ℕ) : ℕ :=
  let value := (List.finRange 8).foldl (fun value (i : Fin 8) =>
    fold (value + ((source ⟨2 * i, by omega⟩).toNat * 256 + (source ⟨2 * i + 1, by omega⟩).toNat) +
      ((destination ⟨2 * i, by omega⟩).toNat * 256 + (destination ⟨2 * i + 1, by omega⟩).toNat)))
    (protocol.toNat + length / 65536 + length % 65536)
  fold value

structure AddressFamily where
  Address : Type
  Packet : Type
  version : ℕ
  icmpProtocol : UInt8
  headerSize : ℕ
  maxPacket : ℕ
  parse : List UInt8 → Result Packet
  source : Packet → Address
  destination : Packet → Address
  protocol : Packet → UInt8
  payload : Packet → List UInt8
  pseudo : Address → Address → UInt8 → ℕ → ℕ
  icmpInitial : Address → Address → ℕ → ℕ
  header : List UInt8 → Address → Address → UInt8 → ℕ → UInt8 → ℕ → List UInt8

def header4 (output : List UInt8) (source destination : Ipv4) (protocol : UInt8) (length : ℕ) (ttl : UInt8) (identification : ℕ) :
    List UInt8 :=
  let output := store output 0 (List.replicate 20 0)
  let output := store (store (store output 0 [0x45]) 8 [ttl]) 9 [protocol]
  let output := store (store (store output 2 (bytes16 (20 + length))) 4 (bytes16 identification)) 6 (bytes16 0x4000)
  let output := store (store output 12 (List.ofFn source)) 16 (List.ofFn destination)
  store output 10 (bytes16 (checksum (output.take 20)))

def header6 (output : List UInt8) (source destination : Ipv6) (protocol : UInt8) (length : ℕ) (hopLimit : UInt8) (_ : ℕ) :
    List UInt8 :=
  let output := store output 0 (List.replicate 40 0)
  let output := store (store output 0 [0x60]) 4 (bytes16 length)
  let output := store (store output 6 [protocol]) 7 [hopLimit]
  store (store output 8 (List.ofFn source)) 24 (List.ofFn destination)

abbrev ipv4Family : AddressFamily where
  Address := Ipv4
  Packet := Ipv4Packet
  version := 4
  icmpProtocol := 1
  headerSize := 20
  maxPacket := 65535
  parse := ipv4
  source := Ipv4Packet.source
  destination := Ipv4Packet.destination
  protocol := Ipv4Packet.protocol
  payload := Ipv4Packet.payload
  pseudo source destination protocol length := pseudoSum4 source destination protocol (length % 65536)
  icmpInitial _ _ _ := 0
  header := header4

abbrev ipv6Family : AddressFamily where
  Address := Ipv6
  Packet := Ipv6Packet
  version := 6
  icmpProtocol := 58
  headerSize := 40
  maxPacket := 40 + 65535
  parse := ipv6
  source := Ipv6Packet.source
  destination := Ipv6Packet.destination
  protocol := Ipv6Packet.protocol
  payload := Ipv6Packet.payload
  pseudo source destination protocol length := pseudoSum6 source destination protocol (length % 2 ^ 32)
  icmpInitial source destination length := pseudoSum6 source destination 58 (length % 2 ^ 32)
  header := header6

structure Udp where
  sourcePort : ℕ
  destinationPort : ℕ
  checksumPresent : Bool
  payload : List UInt8
  deriving DecidableEq

structure TcpFields where
  sourcePort : UInt16
  destinationPort : UInt16
  sequence : UInt32
  acknowledgment : UInt32
  flags : UInt8
  window : UInt16
  urgentPointer : UInt16
  deriving DecidableEq

structure Tcp where
  fields : TcpFields
  options : List UInt8
  payload : List UInt8
  deriving DecidableEq

structure Icmp where
  type : UInt8
  code : UInt8
  rest : ℕ
  message : List UInt8
  body : List UInt8
  deriving DecidableEq

def overlaps (input : Span) (first length : ℕ) : Bool :=
  if input.bytes.isEmpty || length == 0 then false
  else if input.data ≥ first then decide (input.data - first < length)
  else decide (first - input.data < input.bytes.length)

def optionsLoop : ℕ → TcpOptions → Result Unit
  | 0, _ => .ok ()
  | fuel + 1, cursor =>
    match cursor.next with
    | (.error status, _) => .error status
    | (.ok none, _) => .ok ()
    | (.ok (some _), cursor) => optionsLoop fuel cursor

/-- Every option but the last check moves the cursor, so the length bounds the number of rounds. -/
def options (bytes : List UInt8) (flags : UInt8) : Result Unit := optionsLoop (bytes.length + 2) ⟨bytes, 0, flags⟩

def readFields (segment : List UInt8) : TcpFields :=
  { sourcePort := UInt16.ofNat (be16 segment 0), destinationPort := UInt16.ofNat (be16 segment 2)
    sequence := UInt32.ofNat (be32 segment 4), acknowledgment := UInt32.ofNat (be32 segment 8)
    flags := byte segment 13, window := UInt16.ofNat (be16 segment 14), urgentPointer := UInt16.ofNat (be16 segment 18) }

def udp4 (ip : Ipv4Packet) : Result Udp :=
  if ip.protocol ≠ 17 then .error (.unsupported "IPv4 payload is not UDP")
  else if ip.payload.length < 8 then .error (.invalidArgument "truncated UDP header")
  else
    let length := be16 ip.payload 4
    if length < 8 || length > ip.payload.length then .error (.invalidArgument "invalid UDP length")
    else
      let datagram := ip.payload.take length
      if be16 datagram 2 = 0 then .error (.invalidArgument "UDP destination port zero is reserved")
      else if be16 datagram 6 ≠ 0 ∧ sum datagram (pseudoSum4 ip.source ip.destination 17 (length % 65536)) ≠ 0xffff then
        .error (.invalidArgument "invalid IPv4 UDP pseudo-header checksum")
      else .ok ⟨be16 datagram 0, be16 datagram 2, be16 datagram 6 != 0, datagram.drop 8⟩

def buildUdp4 (output : Span) (source destination : Ipv4) (sourcePort destinationPort identification : UInt16) (ttl : UInt8)
    (payload : Span) : Result ℕ × List UInt8 :=
  let length := 28 + payload.bytes.length
  if ttl = 0 then (.error (.invalidArgument "UDP send TTL must be nonzero"), output.bytes)
  else if payload.bytes.length > 65507 ∨ output.bytes.length < 28 + payload.bytes.length then
    (.error (.overflow "IPv4 UDP packet exceeds output capacity"), output.bytes)
  else if !payload.bytes.isEmpty && (if payload.data ≥ output.data then decide (payload.data - output.data < length)
      else decide (output.data - payload.data < payload.bytes.length)) then
    (.error (.invalidArgument "IPv4 UDP input aliases output"), output.bytes)
  else
    let out := store output.bytes 0 (List.replicate 28 0)
    let out := store (store (store out 0 [0x45]) 8 [ttl]) 9 [17]
    let out := store (store (store out 2 (bytes16 length)) 4 (bytes16 identification.toNat)) 6 (bytes16 0x4000)
    let out := store (store out 12 (List.ofFn source)) 16 (List.ofFn destination)
    let out := store out 10 (bytes16 (checksum (out.take 20)))
    let out := store (store out 20 (bytes16 sourcePort.toNat)) 22 (bytes16 destinationPort.toNat)
    let out := store out 24 (bytes16 (length - 20))
    let out := store out 28 payload.bytes
    let value := 65535 - sum ((out.drop 20).take (length - 20)) (pseudoSum4 source destination 17 ((length - 20) % 65536))
    (.ok length, store out 26 (bytes16 (if value = 0 then 0xffff else value)))

def tcp4 (ip : Ipv4Packet) : Result Tcp :=
  if ip.protocol ≠ 6 then .error (.unsupported "IPv4 payload is not TCP")
  else
    let segment := ip.payload
    if segment.length < 20 ∨ segment.length > 65515 then .error (.invalidArgument "invalid IPv4 TCP segment length")
    else
      let header := (byte segment 12 >>> 4).toNat * 4
      if header < 20 ∨ header > segment.length then .error (.invalidArgument "invalid TCP header length")
      else if sum segment (pseudoSum4 ip.source ip.destination 6 (segment.length % 65536)) ≠ 0xffff then
        .error (.invalidArgument "invalid IPv4 TCP pseudo-header checksum")
      else
        let bytes := (segment.drop 20).take (header - 20)
        match options bytes (byte segment 13) with
        | .error status => .error status
        | .ok _ => .ok ⟨readFields segment, bytes, segment.drop header⟩

def buildTcp4 (output : Span) (source destination : Ipv4) (identification : UInt16) (ttl : UInt8) (fields : TcpFields)
    (opts payload : Span) : Result ℕ × List UInt8 :=
  if ttl = 0 then (.error (.invalidArgument "TCP send TTL must be nonzero"), output.bytes)
  else
    match options opts.bytes fields.flags with
    | .error status => (.error status, output.bytes)
    | .ok _ =>
      let header := 20 + (opts.bytes.length + 3) / 4 * 4
      let length := 20 + header + payload.bytes.length
      if payload.bytes.length > 65515 - header then (.error (.overflow "IPv4 TCP payload exceeds packet limit"), output.bytes)
      else if output.bytes.length < length then (.error (.overflow "IPv4 TCP packet exceeds output capacity"), output.bytes)
      else if overlaps opts output.data length || overlaps payload output.data length then
        (.error (.invalidArgument "IPv4 TCP input aliases output"), output.bytes)
      else
        let out := store output.bytes 0 (List.replicate (20 + header) 0)
        let out := store (store (store out 0 [0x45]) 8 [ttl]) 9 [6]
        let out := store (store (store out 2 (bytes16 length)) 4 (bytes16 identification.toNat)) 6 (bytes16 0x4000)
        let out := store (store out 12 (List.ofFn source)) 16 (List.ofFn destination)
        let out := store out 10 (bytes16 (checksum (out.take 20)))
        let out := store (store out 20 (bytes16 fields.sourcePort.toNat)) 22 (bytes16 fields.destinationPort.toNat)
        let out := store (store out 24 (bytes32 fields.sequence.toNat)) 28 (bytes32 fields.acknowledgment.toNat)
        let out := store (store out 32 [UInt8.ofNat (header / 4) <<< 4]) 33 [fields.flags]
        let out := store (store out 34 (bytes16 fields.window.toNat)) 38 (bytes16 fields.urgentPointer.toNat)
        let out := store (store out 40 opts.bytes) (20 + header) payload.bytes
        let value := 65535 - sum ((out.drop 20).take (length - 20)) (pseudoSum4 source destination 6 ((length - 20) % 65536))
        (.ok length, store out 36 (bytes16 value))

section Generic

variable (F : AddressFamily)

def udp (ip : F.Packet) : Result Udp :=
  if F.protocol ip ≠ 17 then .error (.unsupported "IP payload is not UDP")
  else if (F.payload ip).length < 8 then .error (.invalidArgument "truncated UDP header")
  else
    let length := be16 (F.payload ip) 4
    if length < 8 || length > (F.payload ip).length then .error (.invalidArgument "invalid UDP length")
    else
      let datagram := (F.payload ip).take length
      if be16 datagram 2 = 0 then .error (.invalidArgument "UDP destination port zero is reserved")
      else if be16 datagram 6 = 0 ∧ F.version = 6 then .error (.invalidArgument "IPv6 UDP checksum is mandatory")
      else if be16 datagram 6 ≠ 0 ∧ sum datagram (F.pseudo (F.source ip) (F.destination ip) 17 length) ≠ 0xffff then
        .error (.invalidArgument "invalid UDP pseudo-header checksum")
      else .ok ⟨be16 datagram 0, be16 datagram 2, be16 datagram 6 != 0, datagram.drop 8⟩

def tcp (ip : F.Packet) : Result Tcp :=
  if F.protocol ip ≠ 6 then .error (.unsupported "IP payload is not TCP")
  else
    let segment := F.payload ip
    if segment.length < 20 ∨ segment.length > F.maxPacket - F.headerSize then
      .error (.invalidArgument "invalid TCP segment length")
    else
      let header := (byte segment 12 >>> 4).toNat * 4
      if header < 20 ∨ header > segment.length then .error (.invalidArgument "invalid TCP header length")
      else if sum segment (F.pseudo (F.source ip) (F.destination ip) 6 segment.length) ≠ 0xffff then
        .error (.invalidArgument "invalid TCP pseudo-header checksum")
      else
        let bytes := (segment.drop 20).take (header - 20)
        match options bytes (byte segment 13) with
        | .error status => .error status
        | .ok _ => .ok ⟨readFields segment, bytes, segment.drop header⟩

def icmp (ip : F.Packet) : Result Icmp :=
  if F.protocol ip ≠ F.icmpProtocol then .error (.unsupported "IP payload is not ICMP")
  else if (F.payload ip).length < 8 then .error (.invalidArgument "truncated ICMP header")
  else if sum (F.payload ip) (F.icmpInitial (F.source ip) (F.destination ip) (F.payload ip).length) ≠ 0xffff then
    .error (.invalidArgument "invalid ICMP checksum")
  else .ok ⟨byte (F.payload ip) 0, byte (F.payload ip) 1, be32 (F.payload ip) 4, F.payload ip, (F.payload ip).drop 8⟩

def buildUdp (output : Span) (source destination : F.Address) (sourcePort destinationPort identification : UInt16) (ttl : UInt8)
    (payload : Span) : Result ℕ × List UInt8 :=
  let header := F.headerSize
  let length := header + 8 + payload.bytes.length
  if ttl = 0 then (.error (.invalidArgument "UDP send TTL must be nonzero"), output.bytes)
  else if payload.bytes.length > F.maxPacket - header - 8 ∨ payload.bytes.length > 65535 - 8 ∨ output.bytes.length < length then
    (.error (.overflow "UDP packet exceeds output capacity"), output.bytes)
  else if overlaps payload output.data length then (.error (.invalidArgument "UDP input aliases output"), output.bytes)
  else
    let out := F.header output.bytes source destination 17 (length - header) ttl identification.toNat
    let out := store (store out header (bytes16 sourcePort.toNat)) (header + 2) (bytes16 destinationPort.toNat)
    let out := store (store out (header + 4) (bytes16 (length - header))) (header + 6) (bytes16 0)
    let out := store out (header + 8) payload.bytes
    let value := 65535 - sum ((out.drop header).take (length - header)) (F.pseudo source destination 17 (length - header))
    (.ok length, store out (header + 6) (bytes16 (if value = 0 then 0xffff else value)))

def buildTcp (output : Span) (source destination : F.Address) (identification : UInt16) (ttl : UInt8) (fields : TcpFields)
    (opts payload : Span) : Result ℕ × List UInt8 :=
  let ip := F.headerSize
  if ttl = 0 then (.error (.invalidArgument "TCP send TTL must be nonzero"), output.bytes)
  else
    match options opts.bytes fields.flags with
    | .error status => (.error status, output.bytes)
    | .ok _ =>
      let header := 20 + (opts.bytes.length + 3) / 4 * 4
      let length := ip + header + payload.bytes.length
      if payload.bytes.length > F.maxPacket - ip - header then (.error (.overflow "TCP payload exceeds packet limit"), output.bytes)
      else if output.bytes.length < length then (.error (.overflow "TCP packet exceeds output capacity"), output.bytes)
      else if overlaps opts output.data length || overlaps payload output.data length then
        (.error (.invalidArgument "TCP input aliases output"), output.bytes)
      else
        let out := F.header output.bytes source destination 6 (length - ip) ttl identification.toNat
        let out := store out ip (List.replicate header 0)
        let out := store (store out ip (bytes16 fields.sourcePort.toNat)) (ip + 2) (bytes16 fields.destinationPort.toNat)
        let out := store (store out (ip + 4) (bytes32 fields.sequence.toNat)) (ip + 8) (bytes32 fields.acknowledgment.toNat)
        let out := store (store out (ip + 12) [UInt8.ofNat (header / 4) <<< 4]) (ip + 13) [fields.flags]
        let out := store (store out (ip + 14) (bytes16 fields.window.toNat)) (ip + 18) (bytes16 fields.urgentPointer.toNat)
        let out := store (store out (ip + 20) opts.bytes) (ip + header) payload.bytes
        let value := 65535 - sum ((out.drop ip).take (length - ip)) (F.pseudo source destination 6 (length - ip))
        (.ok length, store out (ip + 16) (bytes16 value))

def buildIcmp (output : Span) (source destination : F.Address) (ttl : UInt8) (identification : UInt16) (type code : UInt8)
    (rest : UInt32) (body : Span) : Result ℕ × List UInt8 :=
  let header := F.headerSize
  let length := header + 8 + body.bytes.length
  if ttl = 0 then (.error (.invalidArgument "ICMP send TTL must be nonzero"), output.bytes)
  else if body.bytes.length > F.maxPacket - header - 8 ∨ body.bytes.length > 65535 - 8 ∨ output.bytes.length < length then
    (.error (.overflow "ICMP packet exceeds output capacity"), output.bytes)
  else if overlaps body output.data length then (.error (.invalidArgument "ICMP input aliases output"), output.bytes)
  else
    let out := F.header output.bytes source destination F.icmpProtocol (length - header) ttl identification.toNat
    let out := store (store (store out header [type]) (header + 1) [code]) (header + 2) (bytes16 0)
    let out := store (store out (header + 4) (bytes32 rest.toNat)) (header + 8) body.bytes
    let value := 65535 - sum ((out.drop header).take (length - header)) (F.icmpInitial source destination (length - header))
    (.ok length, store out (header + 2) (bytes16 value))

end Generic

end ObfuscationKernel.Net.Codec
