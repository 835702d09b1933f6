import ObfuscationKernel.Net.Codec
import ObfuscationKernel.Net.Neighbour

/-! The IPv6 addresses of an Ethernet interface: duplicate address detection, advertised lifetimes and the classification of
received frames. -/

namespace ObfuscationKernel.Net

open ObfuscationKernel.Core Wire

namespace Codec

structure Ethernet where
  destination : Mac
  source : Mac
  type : ℕ
  payload : List UInt8

def ethernet (frame : List UInt8) : Result Ethernet :=
  if frame.length < 14 then .error (.invalidArgument "truncated Ethernet header")
  else
    let type := be16 frame 12
    if type < 0x0600 then .error (.unsupported "IEEE 802.3 length frames are not in the current profile")
    else if type = 0x8100 ∨ type = 0x88a8 then .error (.unsupported "VLAN frames are not in the current profile")
    else .ok ⟨Vector.ofFn fun i => byte frame i, Vector.ofFn fun i => byte frame (i + 6), type, frame.drop 14⟩

def ipv6Of (bytes : List UInt8) : Ipv6 := fun i => byte bytes i

def allNodes : Ipv6 := ipv6Of [0xff, 0x02, 0, 0, 0, 0, 0, 0, 0, 0, 0, 0, 0, 0, 0, 1]

def broadcastMac : Mac := Vector.replicate 6 0xff

def linkLocal (address : Ipv6) : Bool := address 0 == 0xfe && address 1 &&& 0xc0 == 0x80

def solicitedNode (target : Ipv6) : Ipv6 :=
  ipv6Of [0xff, 0x02, 0, 0, 0, 0, 0, 0, 0, 0, 0, 1, 0xff, target 13, target 14, target 15]

def multicastMac (address : Ipv6) : Mac := #v[0x33, 0x33, address 12, address 13, address 14, address 15]

def withInterfaceId (address : Ipv6) (mac : Mac) : Ipv6 := fun i =>
  if i.val < 8 then address i
  else byte [mac[0] ^^^ 2, mac[1], mac[2], 0xff, 0xfe, mac[3], mac[4], mac[5]] (i - 8)

def linkLocalFromMac (mac : Mac) : Ipv6 := withInterfaceId (ipv6Of [0xfe, 0x80]) mac

structure PrefixInformation where
  prefixAddress : Ipv6
  length : ℕ
  onLink : Bool
  autonomous : Bool
  validLifetime : ℕ
  preferredLifetime : ℕ

inductive NdKind
  | routerSolicitation | routerAdvertisement | neighborSolicitation | neighborAdvertisement
  deriving DecidableEq

structure NdMessage where
  kind : NdKind := .routerSolicitation
  target : Ipv6 := fun _ => 0
  router : Bool := false
  solicited : Bool := false
  overrideFlag : Bool := false
  managed : Bool := false
  other : Bool := false
  hopLimit : UInt8 := 0
  routerLifetime : ℕ := 0
  reachableTime : ℕ := 0
  retransmitTimer : ℕ := 0
  sourceLink : Option Mac := none
  targetLink : Option Mac := none
  mtu : Option ℕ := none
  prefixes : List PrefixInformation := []
  prefixesIgnored : ℕ := 0

def maxPrefixes : ℕ := 4

/-- The options of a neighbour discovery message. Each is at least eight bytes long, so the length bounds the rounds. -/
def ndOptions (options : List UInt8) : ℕ → ℕ → NdMessage → Result NdMessage
  | 0, _, message => .ok message
  | fuel + 1, at_, message =>
    if at_ ≥ options.length then .ok message
    else if options.length - at_ < 2 then .error (.invalidArgument "truncated ND option")
    else
      let type := byte options at_
      let length := (byte options (at_ + 1)).toNat * 8
      if length = 0 ∨ length > options.length - at_ then .error (.invalidArgument "invalid ND option length")
      else
        let option := (options.drop at_).take length
        if type = 1 ∨ type = 2 then
          if length ≠ 8 then .error (.invalidArgument "ND link-layer option is not Ethernet")
          else
            let mac : Mac := Vector.ofFn fun i => byte option (2 + i)
            ndOptions options fuel (at_ + length)
              (if type = 1 then { message with sourceLink := some mac } else { message with targetLink := some mac })
        else if type = 3 then
          if length ≠ 32 then .error (.invalidArgument "ND prefix information length is invalid")
          else
            let information : PrefixInformation :=
              { prefixAddress := fun i => byte option (16 + i), length := (byte option 2).toNat
                onLink := byte option 3 &&& 0x80 != 0, autonomous := byte option 3 &&& 0x40 != 0
                validLifetime := be32 option 4, preferredLifetime := be32 option 8 }
            ndOptions options fuel (at_ + length)
              (if information.length > 128 ∨ information.preferredLifetime > information.validLifetime ∨
                  linkLocal information.prefixAddress ∨ message.prefixes.length = maxPrefixes then
                { message with prefixesIgnored := message.prefixesIgnored + 1 }
              else { message with prefixes := message.prefixes ++ [information] })
        else if type = 5 then
          if length ≠ 8 then .error (.invalidArgument "ND MTU option length is invalid")
          else ndOptions options fuel (at_ + length) { message with mtu := some (be32 option 4) }
        else ndOptions options fuel (at_ + length) message

def ndFixed (ip : Ipv6Packet) (message : Icmp) : Result (NdMessage × ℕ) :=
  let bytes := message.message
  if message.type = 133 then .ok ({ kind := .routerSolicitation }, 8)
  else if message.type = 134 then
    if !linkLocal ip.source then .error (.invalidArgument "router advertisement source is not link-local")
    else if bytes.length < 16 then .error (.invalidArgument "truncated router advertisement")
    else .ok ({ kind := .routerAdvertisement, hopLimit := byte bytes 4, managed := byte bytes 5 &&& 0x80 != 0
                other := byte bytes 5 &&& 0x40 != 0, routerLifetime := be16 bytes 6, reachableTime := be32 bytes 8
                retransmitTimer := be32 bytes 12 }, 16)
  else if bytes.length < 24 then .error (.invalidArgument "truncated neighbour message")
  else
    let target : Ipv6 := fun i => byte bytes (8 + i)
    if multicast target then .error (.invalidArgument "neighbour target is multicast")
    else if message.type = 135 then .ok ({ kind := .neighborSolicitation, target := target }, 24)
    else
      let flags := byte bytes 4
      if flags &&& 0x40 != 0 && multicast ip.destination then
        .error (.invalidArgument "solicited advertisement sent to multicast")
      else .ok ({ kind := .neighborAdvertisement, target := target, router := flags &&& 0x80 != 0
                  solicited := flags &&& 0x40 != 0, overrideFlag := flags &&& 0x20 != 0 }, 24)

def neighborDiscovery (ip : Ipv6Packet) (message : Icmp) : Result NdMessage :=
  if message.type < 133 ∨ message.type > 136 then .error (.unsupported "ICMPv6 message is not neighbour discovery")
  else if ip.hopLimit ≠ 255 ∨ message.code ≠ 0 then .error (.invalidArgument "ND message hop limit or code is invalid")
  else
    match ndFixed ip message with
    | .error status => .error status
    | .ok (view, fixed) =>
      match ndOptions (message.message.drop fixed) (message.message.length + 1) 0 view with
      | .error status => .error status
      | .ok view =>
        if unspecified ip.source then
          if view.sourceLink.isSome then .error (.invalidArgument "unspecified ND source carries a link-layer address")
          else if view.kind = .neighborSolicitation ∧ ip.destination ≠ solicitedNode view.target then
            .error (.invalidArgument "duplicate address probe is not sent to the solicited-node group")
          else if view.kind = .neighborAdvertisement ∨ view.kind = .routerAdvertisement then
            .error (.invalidArgument "advertisement source is unspecified")
          else .ok view
        else .ok view

end Codec

open Codec

inductive Ipv6AddressState
  | tentative | preferred | deprecated | duplicated
  deriving DecidableEq, Repr

inductive Delivery
  | none | control | ipv4 | ipv6
  deriving DecidableEq, Repr

structure Received where
  family : Delivery := .none
  protocol : UInt8 := 0
  packet : List UInt8 := []
  multicast : Bool := false

def filtered : Received := {}
def dropped : Received := {}
def consumed : Received := { family := .control }

/-- How an interface classifies an IPv4 payload, which neither reads nor writes its IPv6 addresses. -/
structure Ipv4Side where
  receive : List UInt8 → Bool → Received
  not_ipv6 : ∀ payload group, (receive payload group).family ≠ .ipv6

structure Address where
  used : Bool := false
  address : Ipv6 := fun _ => 0
  prefixLength : ℕ := 0
  state : Ipv6AddressState := .tentative
  validUntil : ℕ := 0
  preferredUntil : ℕ := 0
  dadDeadline : ℕ := 0
  dadSent : ℕ := 0

/-- A configured interface, as far as its IPv6 addresses depend on it. -/
structure EthernetInterface where
  mac : Mac
  ipv6 : Bool
  ipv4 : Ipv4Side
  now : ℕ
  addresses : Fin 3 → Address := fun _ => {}

structure Advertised where
  target : Ipv6
  destination : Ipv6
  solicited : Bool

structure Outcome where
  received : Received := {}
  advertised : Option Advertised := none

def dadRetransmitMs : ℕ := 1000

def never : ℕ := 2 ^ 64 - 1

def deadline (now delay : ℕ) : ℕ := if now > never - delay then never else now + delay

def Address.settled (a : Address) : Bool := a.state != .tentative && a.state != .duplicated

namespace EthernetInterface

variable (i : EthernetInterface)

def advance (now : ℕ) : EthernetInterface := if now > i.now then { i with now := now } else i

def find (address : Ipv6) : Option (Fin 3) :=
  (List.finRange 3).find? fun k => (i.addresses k).used && decide ((i.addresses k).address = address)

def set (k : Fin 3) (a : Address) : EthernetInterface := { i with addresses := Function.update i.addresses k a }

def addAddress (address : Ipv6) (prefixLength valid preferred : ℕ) : EthernetInterface :=
  match i.find address with
  | some k => i.set k { i.addresses k with validUntil := valid, preferredUntil := preferred }
  | none =>
    match (List.finRange 3).find? fun k => !(i.addresses k).used with
    | some k => i.set k ⟨true, address, prefixLength, .tentative, valid, preferred, i.now, 0⟩
    | none => i

def configure (mac : Mac) (ipv6 : Bool) (ipv4 : Ipv4Side) (now : ℕ) : EthernetInterface :=
  let i : EthernetInterface := { mac, ipv6, ipv4, now }
  if ipv6 then i.addAddress (linkLocalFromMac mac) 64 never never else i

def local_ (address : Ipv6) : Bool := (i.find address).any fun k => (i.addresses k).settled

def better (link : Bool) (best : Option (Fin 3)) (k : Fin 3) : Option (Fin 3) :=
  if !(i.addresses k).used || !(i.addresses k).settled || linkLocal (i.addresses k).address != link then best
  else match best with
    | none => some k
    | some b => if (i.addresses b).state = .deprecated ∧ (i.addresses k).state = .preferred then some k else best

def best (link : Bool) : Option (Fin 3) := (List.finRange 3).foldl (i.better link) none

def source (destination : Ipv6) : Result Ipv6 :=
  let link := linkLocal destination || (multicast destination && decide (destination 1 &&& 15 ≤ 2))
  match i.best link with
  | some k => .ok (i.addresses k).address
  | none =>
    match if link then none else i.best true with
    | some k => .ok (i.addresses k).address
    | none => .error (.notFound "interface has no usable IPv6 address")

def member (test : Ipv6 → Bool) : Bool :=
  (List.finRange 3).any fun k => (i.addresses k).used && (i.addresses k).state != .duplicated &&
    test (solicitedNode (i.addresses k).address)

def acceptGroup (mac : Mac) : Bool :=
  if mac = broadcastMac then true
  else if !i.ipv6 || mac[0] != 0x33 || mac[1] != 0x33 then false
  else if mac = multicastMac allNodes then true
  else i.member fun group => decide (mac = multicastMac group)

def joined (group : Ipv6) : Bool := decide (group = allNodes) || i.member fun own => decide (group = own)

def duplicate (k : Fin 3) : EthernetInterface := i.set k { i.addresses k with state := .duplicated }

def learn (p : PrefixInformation) : EthernetInterface :=
  let valid := if p.validLifetime = 2 ^ 32 - 1 then never else deadline i.now (p.validLifetime * 1000)
  let preferred := if p.preferredLifetime = 2 ^ 32 - 1 then never else deadline i.now (p.preferredLifetime * 1000)
  if p.autonomous && p.length == 64 && p.validLifetime != 0 then
    i.addAddress (withInterfaceId (maskPrefix p.prefixAddress 64) i.mac) 64 valid preferred
  else i

def receiveNd (ip : Ipv6Packet) (nd : NdMessage) : EthernetInterface × Option Advertised :=
  match nd.kind with
  | .neighborSolicitation =>
    match i.find nd.target with
    | none => (i, none)
    | some k =>
      match (i.addresses k).state with
      | .duplicated => (i, none)
      | .tentative => if unspecified ip.source then (i.duplicate k, none) else (i, none)
      | _ =>
        let probe := unspecified ip.source
        (i, some ⟨nd.target, if probe then allNodes else ip.source, !probe⟩)
  | .neighborAdvertisement =>
    match i.find nd.target with
    | some k => if (i.addresses k).state = .tentative then (i.duplicate k, none) else (i, none)
    | none => (i, none)
  | .routerAdvertisement => (nd.prefixes.foldl learn i, none)
  | .routerSolicitation => (i, none)

def receiveIpv6 (payload : List UInt8) (group : Bool) : EthernetInterface × Outcome :=
  if !i.ipv6 then (i, { received := filtered })
  else
    match Codec.ipv6 payload with
    | .error _ => (i, { received := dropped })
    | .ok ip =>
      let own := i.find ip.destination
      let toGroup := Net.multicast ip.destination
      let tentative := own.any fun k => (i.addresses k).state == .tentative
      let deliver : EthernetInterface × Outcome :=
        if unspecified ip.source || tentative then (i, { received := dropped })
        else (i, { received := ⟨.ipv6, ip.protocol, payload.take (40 + be16 payload 4), toGroup || group⟩ })
      if if toGroup then !i.joined ip.destination else own.isNone then (i, { received := filtered })
      else if (i.find ip.source).any fun k => (i.addresses k).state != .tentative then (i, { received := dropped })
      else if ip.protocol = 58 then
        match icmp ipv6Family ip with
        | .error _ => (i, { received := dropped })
        | .ok m =>
          if m.type ≥ 133 ∧ m.type ≤ 136 then
            match neighborDiscovery ip m with
            | .error _ => (i, { received := dropped })
            | .ok nd => ((i.receiveNd ip nd).1, { received := consumed, advertised := (i.receiveNd ip nd).2 })
          else if tentative then (i, { received := filtered })
          else if m.type = 128 then (i, { received := if toGroup || group then filtered else consumed })
          else if m.type = 129 then (i, { received := consumed })
          else deliver
      else deliver

def receive (frame : List UInt8) (now : ℕ) : EthernetInterface × Outcome :=
  let i := i.advance now
  match ethernet frame with
  | .error _ => (i, { received := dropped })
  | .ok eth =>
    let group := eth.destination.multicast
    if eth.source.multicast || eth.source == i.mac then (i, { received := dropped })
    else if eth.destination ≠ i.mac && !i.acceptGroup eth.destination then (i, { received := filtered })
    else if eth.type = 0x0806 then (i, { received := consumed })
    else if eth.type = 0x0800 then (i, { received := i.ipv4.receive eth.payload group })
    else if eth.type = 0x86dd then i.receiveIpv6 eth.payload group
    else (i, { received := filtered })

def tickAddress (now : ℕ) (a : Address) : Address :=
  if !a.used then a
  else if now ≥ a.validUntil then {}
  else
    let a := if a.state = .preferred ∧ now ≥ a.preferredUntil then { a with state := .deprecated } else a
    if a.state ≠ .tentative ∨ now < a.dadDeadline then a
    else if a.dadSent ≠ 0 then { a with state := if now ≥ a.preferredUntil then .deprecated else .preferred }
    else { a with dadSent := a.dadSent + 1, dadDeadline := deadline now dadRetransmitMs }

def tick (now : ℕ) : EthernetInterface :=
  let i := i.advance now
  { i with addresses := fun k => tickAddress i.now (i.addresses k) }

end EthernetInterface

inductive Call
  | receive (frame : List UInt8) (now : ℕ)
  | tick (now : ℕ)
  | output (frame : List UInt8) (length : ℕ)

/-- `output` routes and resolves; it leaves the addresses and the clock alone. -/
def EthernetInterface.step (i : EthernetInterface) : Call → EthernetInterface × Outcome
  | .receive frame now => i.receive frame now
  | .tick now => (i.tick now, {})
  | .output _ _ => (i, {})

end ObfuscationKernel.Net
