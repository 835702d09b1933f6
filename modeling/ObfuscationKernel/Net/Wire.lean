import ObfuscationKernel.Core.Status
import ObfuscationKernel.Net.Address
import Mathlib.Data.Vector.Basic
import Mathlib.Tactic

/-! Internet addresses and parsed TCP segments. A datagram stands for the bytes the
IPv4 and IPv6 codecs exchange: the two addresses, the TCP fields, options and payload. -/

namespace ObfuscationKernel.Net

open ObfuscationKernel.Core

structure IpAddress where
  family : Family := .ipv4
  bytes : Vector UInt8 16 := Vector.replicate 16 0
  deriving DecidableEq, Repr

namespace IpAddress

def v4 (a b c d : UInt8) : IpAddress := ⟨.ipv4, #v[a, b, c, d, 0, 0, 0, 0, 0, 0, 0, 0, 0, 0, 0, 0]⟩

def loopback (a : Vector UInt8 16) : Bool := a == (Vector.replicate 16 0).set 15 1

def ipv4Mapped (a : Vector UInt8 16) : Bool :=
  a.toList.take 10 == List.replicate 10 0 && a[10] == 0xff && a[11] == 0xff

def unicast (a : IpAddress) : Bool :=
  if a.family = .ipv4 then a.bytes[0] != 0 && decide (a.bytes[0] < 224)
  else !unspecified a.bytes.get && !multicast a.bytes.get && !loopback a.bytes && !ipv4Mapped a.bytes

end IpAddress

structure Endpoint where
  address : IpAddress := {}
  port : ℕ := 0
  deriving DecidableEq, Repr

def Endpoint.valid (ep : Endpoint) : Bool := ep.port != 0 && ep.address.unicast

namespace Wire

abbrev tcpFin : UInt8 := 0x01
abbrev tcpSyn : UInt8 := 0x02
abbrev tcpRst : UInt8 := 0x04
abbrev tcpPsh : UInt8 := 0x08
abbrev tcpAck : UInt8 := 0x10
abbrev tcpUrg : UInt8 := 0x20

structure TcpFields where
  sourcePort : ℕ := 0
  destinationPort : ℕ := 0
  sequence : BitVec 32 := 0
  acknowledgment : BitVec 32 := 0
  flags : UInt8 := 0
  window : ℕ := 0
  deriving DecidableEq, Repr

def TcpFields.has (f : TcpFields) (mask : UInt8) : Bool := f.flags &&& mask != 0

structure Tcp where
  fields : TcpFields := {}
  options : List UInt8 := []
  payload : List UInt8 := []
  deriving DecidableEq, Repr

structure Datagram where
  source : IpAddress
  destination : IpAddress
  tcp : Tcp
  deriving DecidableEq, Repr

structure TcpOption where
  kind : UInt8
  data : List UInt8
  deriving DecidableEq, Repr

structure TcpOptions where
  options : List UInt8
  position : ℕ := 0
  flags : UInt8
  deriving DecidableEq, Repr

def byte (bytes : List UInt8) (at_ : ℕ) : UInt8 := bytes.getD at_ 0

def be16 (bytes : List UInt8) (at_ : ℕ) : ℕ := (byte bytes at_).toNat * 256 + (byte bytes (at_ + 1)).toNat

def TcpOptions.next (cursor : TcpOptions) : Result (Option TcpOption) × TcpOptions :=
  let rest := cursor.options.drop cursor.position
  if cursor.options.length > 40 then
    (.error (.invalidArgument "TCP options exceed the base header limit"), cursor)
  else if cursor.position = cursor.options.length then (.ok none, cursor)
  else
    let kind := byte cursor.options cursor.position
    if kind = 0 then
      if rest.tail.any (· != 0) then (.error (.invalidArgument "TCP EOL padding is not zero"), cursor)
      else (.ok (some ⟨kind, []⟩), { cursor with position := cursor.options.length })
    else if kind = 1 then
      (.ok (some ⟨kind, []⟩), { cursor with position := cursor.position + 1 })
    else
      let remaining := cursor.options.length - cursor.position
      if remaining < 2 then (.error (.invalidArgument "truncated TCP option length"), cursor)
      else
        let length := (byte cursor.options (cursor.position + 1)).toNat
        if length < 2 || length > remaining then
          (.error (.invalidArgument "invalid TCP option length"), cursor)
        else if kind = 2 && (length != 4 || cursor.flags &&& tcpSyn == 0) then
          (.error (.invalidArgument "TCP MSS requires four bytes and SYN"), cursor)
        else
          (.ok (some ⟨kind, (rest.take length).drop 2⟩), { cursor with position := cursor.position + length })

def packetLength (family : Family) (options payload : ℕ) : ℕ :=
  (match family with | .ipv4 => 20 | .ipv6 => 40) + (20 + (options + 3) / 4 * 4) + payload

def buildTcp (outputSize : ℕ) (source destination : IpAddress) (fields : TcpFields)
    (options payload : List UInt8) : Result (ℕ × Datagram) :=
  let length := packetLength source.family options.length payload.length
  if outputSize < length then
    match source.family with
    | .ipv4 => .error (.overflow "IPv4 TCP packet exceeds output capacity")
    | .ipv6 => .error (.overflow "TCP packet exceeds output capacity")
  else .ok (length, ⟨source, destination, ⟨fields, options, payload⟩⟩)

lemma buildTcp_packet {size length : ℕ} {source destination : IpAddress} {fields : TcpFields}
    {options payload : List UInt8} {d : Datagram}
    (h : buildTcp size source destination fields options payload = .ok (length, d)) :
    d = ⟨source, destination, ⟨fields, options, payload⟩⟩ := by
  unfold buildTcp at h
  dsimp only at h
  split_ifs at h
  · split at h <;> cases h
  · cases h
    rfl

end Wire

end ObfuscationKernel.Net
