import ObfuscationKernel.Core.Status
import ObfuscationKernel.Library.Slots
import Mathlib.Data.Vector.Basic

/-! The neighbour cache: link-layer addresses with their reachability states, and the packets that wait for one. -/

namespace ObfuscationKernel.Net

open ObfuscationKernel.Core Library

namespace Wire

abbrev Mac := Vector UInt8 6

def Mac.multicast (mac : Mac) : Bool := mac.head &&& 1 != 0

end Wire

namespace Neighbour

open Wire

inductive State
  | incomplete | reachable | stale | delay | probe | permanent
  deriving DecidableEq, Repr

structure Timing where
  reachableMs : ℕ := 30000
  retransmitMs : ℕ := 1000
  delayMs : ℕ := 5000
  multicastProbes : ℕ := 3
  unicastProbes : ℕ := 3
  deriving DecidableEq, Repr

inductive Update
  | announcement | advertisement
  deriving DecidableEq, Repr

structure Advertisement where
  solicited : Bool := false
  overrideFlag : Bool := true
  router : Bool := false
  deriving DecidableEq, Repr

/-- `unicast` is none for the multicast probe of an incomplete entry. -/
structure Solicitation (Address : Type) where
  target : Address
  unicast : Option Mac

structure Stats where
  resolved : ℕ := 0
  failed : ℕ := 0
  evicted : ℕ := 0
  pendingDropped : ℕ := 0
  ignored : ℕ := 0
  deriving DecidableEq, Repr

structure Entry (Address : Type) [Inhabited Address] where
  used : Bool := false
  router : Bool := false
  address : Address := default
  mac : Mac := Vector.replicate 6 0
  state : State := .incomplete
  probes : ℕ := 0
  deadline : ℕ := 0
  usedAt : ℕ := 0
  deriving DecidableEq

structure Packet (Address : Type) [Inhabited Address] where
  used : Bool := false
  address : Address := default
  order : ℕ := 0
  bytes : List UInt8 := []
  deriving DecidableEq

structure Sizes where
  capacity : ℕ := 16
  pending : ℕ := 4
  packetBytes : ℕ := 1500

def Sizes.perNeighbourPending (z : Sizes) : ℕ := if z.pending < 3 then z.pending else 3

structure Cache (Address : Type) [Inhabited Address] (z : Sizes) where
  timing : Timing := {}
  entries : Fin z.capacity → Entry Address := fun _ => {}
  pending : Fin z.pending → Packet Address := fun _ => {}
  order : ℕ := 0
  stats : Stats := {}

def u64Max : ℕ := 2 ^ 64 - 1

def add (value : ℕ) : ℕ := if value ≠ u64Max then value + 1 else value

def deadline (now delay : ℕ) : ℕ := if now > u64Max - delay then u64Max else now + delay

structure Offer (Address : Type) (z : Sizes) where
  slot : Fin z.pending
  mac : Mac
  address : Address
  packet : List UInt8
  state : State
  accepted : Bool

namespace Cache

variable {Address : Type} [Inhabited Address] [DecidableEq Address] {z : Sizes} (c : Cache Address z)

def setReachableTime (ms : ℕ) : Cache Address z :=
  if ms ≠ 0 then { c with timing := { c.timing with reachableMs := ms } } else c

def setRetransmitTime (ms : ℕ) : Cache Address z :=
  if ms ≠ 0 then { c with timing := { c.timing with retransmitMs := ms } } else c

def lookup (address : Address) : Option (Fin z.capacity) :=
  (List.finRange z.capacity).find? fun i => (c.entries i).used && (c.entries i).address == address

def held (address : Address) : ℕ := Slots.count (fun p => p.used && p.address == address) c.pending

def oldest (address : Option Address) : Option (Fin z.pending) :=
  Slots.least (fun s => (c.pending s).used && address.all fun a => (c.pending s).address == a) (fun s => (c.pending s).order)
    (List.finRange z.pending)

def put (i : Fin z.capacity) (e : Entry Address) : Cache Address z := { c with entries := Function.update c.entries i e }

def moveTo (entry : Entry Address) (state : State) (now : ℕ) : Entry Address :=
  { entry with
    state := state
    probes := 0
    deadline := if state = .reachable then Neighbour.deadline now c.timing.reachableMs else u64Max }

def drop (i : Fin z.capacity) : Cache Address z :=
  let address := (c.entries i).address
  { c with
    entries := Function.update c.entries i {}
    pending := fun s =>
      if (c.pending s).used && (c.pending s).address == address then { c.pending s with used := false } else c.pending s
    stats := { c.stats with pendingDropped := add^[c.held address] c.stats.pendingDropped } }

def vacancy : Option (Fin z.capacity) :=
  ((List.finRange z.capacity).find? fun i => !(c.entries i).used).or
    (Slots.least (fun i => (c.entries i).state != .permanent && (c.entries i).state != .incomplete &&
      c.held (c.entries i).address == 0) (fun i => (c.entries i).usedAt) (List.finRange z.capacity))

def create (address : Address) (now : ℕ) : Result (Fin z.capacity) × Cache Address z :=
  match c.vacancy with
  | none => (.error (.noMemory "neighbour cache is exhausted"), c)
  | some i =>
    let c := if (c.entries i).used then
      { c with stats := { c.stats with evicted := add c.stats.evicted } }.drop i else c
    (.ok i, c.put i { c.entries i with used := true, address := address, usedAt := now })

def resolve (address : Address) (now : ℕ) : Result Mac × Cache Address z :=
  match c.lookup address with
  | none =>
    match c.create address now with
    | (.error status, c) => (.error status, c)
    | (.ok i, c) =>
      (.error (.wouldBlock "neighbour resolution started"),
        c.put i { c.entries i with state := .incomplete, deadline := now })
  | some i =>
    let e := { c.entries i with usedAt := now }
    if e.state = .incomplete then (.error (.wouldBlock "neighbour resolution is pending"), c.put i e)
    else if e.state = .stale then
      (.ok e.mac, c.put i { e with state := .delay, deadline := Neighbour.deadline now c.timing.delayMs })
    else (.ok e.mac, c.put i e)

def holdSlot (address : Address) : Option (Fin z.pending) :=
  ((if c.held address ≥ z.perNeighbourPending then c.oldest (some address) else none).or
    ((List.finRange z.pending).find? fun s => !(c.pending s).used)).or (c.oldest none)

def hold (address : Address) (packet : List UInt8) : Result Unit × Cache Address z :=
  if !(c.lookup address).any fun i => (c.entries i).state == .incomplete then
    (.error (.invalidArgument "neighbour is not resolving"), c)
  else if packet.isEmpty || decide (packet.length > z.packetBytes) then
    (.error (.overflow "held packet exceeds its slot"), c)
  else
    match c.holdSlot address with
    | none => (.error (.noMemory "neighbour pending pool is exhausted"), c)
    | some s =>
      let order := (c.order + 1) % 2 ^ 64
      (.ok (), { c with
          pending := Function.update c.pending s ⟨true, address, order, packet⟩
          order := order
          stats := if (c.pending s).used then
            { c.stats with pendingDropped := add c.stats.pendingDropped } else c.stats })

def countResolved : Cache Address z := { c with stats := { c.stats with resolved := add c.stats.resolved } }

def countIgnored : Cache Address z := { c with stats := { c.stats with ignored := add c.stats.ignored } }

def announce (address : Address) (mac : Option Mac) (now : ℕ) : Result Bool × Cache Address z :=
  match mac with
  | none => (.ok false, c)
  | some mac =>
    match c.lookup address with
    | none =>
      match c.create address now with
      | (.error status, c) => (.error status, c)
      | (.ok i, c) => (.ok true, c.put i (c.moveTo { c.entries i with mac := mac } .stale now))
    | some i =>
      let e := c.entries i
      if e.state = .permanent then (.ok true, c)
      else if e.state = .incomplete || e.mac != mac then
        let c := if e.state = .incomplete then c.countResolved else c
        (.ok true, c.put i (c.moveTo { e with mac := mac } .stale now))
      else (.ok true, c)

def advertise (e : Entry Address) (mac : Option Mac) (flags : Advertisement) (now : ℕ) : Entry Address :=
  let changed := mac.any fun m => m != e.mac
  if !flags.overrideFlag && changed then
    if e.state = .reachable then c.moveTo e .stale now else e
  else
    let e := if changed then { e with mac := mac.getD e.mac } else e
    let e := if flags.solicited then c.moveTo e .reachable now else if changed then c.moveTo e .stale now else e
    { e with router := flags.router }

def update (address : Address) (mac : Option Mac) (kind : Update) (flags : Advertisement) (now : ℕ) :
    Result Bool × Cache Address z :=
  if mac.any Mac.multicast then (.error (.invalidArgument "neighbour link address is multicast"), c.countIgnored)
  else
    match kind with
    | .announcement => c.announce address mac now
    | .advertisement =>
      match c.lookup address with
      | none => (.ok false, c.countIgnored)
      | some i =>
        let e := c.entries i
        if e.state = .permanent then (.ok true, c)
        else if e.state = .incomplete then
          match mac with
          | none => (.ok false, c.countIgnored)
          | some mac =>
            (.ok true, c.countResolved.put i
              (c.moveTo { e with mac := mac, router := flags.router } (if flags.solicited then .reachable else .stale) now))
        else (.ok true, c.put i (c.advertise e mac flags now))

def confirm (address : Address) (now : ℕ) : Cache Address z :=
  match c.lookup address with
  | none => c
  | some i =>
    let e := c.entries i
    if e.state ≠ .incomplete ∧ e.state ≠ .permanent then c.put i (c.moveTo e .reachable now) else c

def addPermanent (address : Address) (mac : Mac) (now : ℕ) : Result Unit × Cache Address z :=
  if Mac.multicast mac then (.error (.invalidArgument "neighbour link address is multicast"), c)
  else
    match c.lookup address with
    | some i => (.ok (), c.put i { c.entries i with mac := mac, state := .permanent, deadline := 0, probes := 0 })
    | none =>
      match c.create address now with
      | (.error status, c) => (.error status, c)
      | (.ok i, c) => (.ok (), c.put i { c.entries i with mac := mac, state := .permanent, deadline := 0, probes := 0 })

def remove (address : Address) : Result Unit × Cache Address z :=
  match c.lookup address with
  | none => (.error (.notFound "neighbour is unknown"), c)
  | some i => (.ok (), c.drop i)

def probeEntry (now room : ℕ) (i : Fin z.capacity) (e : Entry Address) (out : List (Solicitation Address)) :
    List (Solicitation Address) × Cache Address z :=
  let multicast := e.state == .incomplete
  if e.probes ≥ (if multicast then c.timing.multicastProbes else c.timing.unicastProbes) then
    (out, { c with stats := { c.stats with failed := add c.stats.failed } }.drop i)
  else if out.length = room then (out, c.put i e)
  else
    (out ++ [⟨e.address, if multicast then none else some e.mac⟩],
      c.put i { e with probes := e.probes + 1, deadline := Neighbour.deadline now c.timing.retransmitMs })

def tickEntry (now room : ℕ) (out : List (Solicitation Address)) (i : Fin z.capacity) :
    List (Solicitation Address) × Cache Address z :=
  let e := c.entries i
  if !e.used || e.state == .permanent || decide (now < e.deadline) then (out, c)
  else
    match e.state with
    | .reachable => (out, c.put i (c.moveTo e .stale now))
    | .stale => (out, c.put i { e with deadline := u64Max })
    | .delay => c.probeEntry now room i { e with state := .probe, probes := 0 } out
    | .probe | .incomplete => c.probeEntry now room i e out
    | .permanent => (out, c)

def tick (now room : ℕ) : List (Solicitation Address) × Cache Address z :=
  (List.finRange z.capacity).foldl (fun acc i => acc.2.tickEntry now room acc.1 i) ([], c)

def nextHeld : Option (Fin z.pending) :=
  Slots.least (fun s => (c.pending s).used &&
      (c.lookup (c.pending s).address).any fun i => (c.entries i).state != .incomplete)
    (fun s => (c.pending s).order) (List.finRange z.pending)

def offer (s : Fin z.pending) (i : Fin z.capacity) (accepted : Bool) : Offer Address z :=
  ⟨s, (c.entries i).mac, (c.pending s).address, (c.pending s).bytes, (c.entries i).state, accepted⟩

def release (s : Fin z.pending) : Cache Address z :=
  { c with pending := Function.update c.pending s { c.pending s with used := false } }

/-- `sink n` is the sink's answer to its `n`-th call. -/
def flushFrom (sink : ℕ → Mac → Address → List UInt8 → Bool) : ℕ → ℕ → Cache Address z → List (Offer Address z) × Cache Address z
  | 0, _, c => ([], c)
  | fuel + 1, sent, c =>
    match c.nextHeld with
    | none => ([], c)
    | some s =>
      match c.lookup (c.pending s).address with
      | none => ([], c)
      | some i =>
        if sink sent (c.entries i).mac (c.pending s).address (c.pending s).bytes then
          let next := flushFrom sink fuel (sent + 1) (c.release s)
          (c.offer s i true :: next.1, next.2)
        else ([c.offer s i false], c)

def flush (sink : ℕ → Mac → Address → List UInt8 → Bool) : List (Offer Address z) × Cache Address z :=
  flushFrom sink (z.pending + 1) 0 c

end Cache

end Neighbour

end ObfuscationKernel.Net
