import ObfuscationKernel.Library.Slots
import ObfuscationKernel.Net.Operations

/-! The endpoint table: generational handles, connection and listener slots, the accept
queue, readiness and the packet path over a pool of control blocks. -/

namespace ObfuscationKernel.Net.Tcp

open ObfuscationKernel.Core Library Wire Function

structure Pools where
  connections : ℕ
  listeners : ℕ
  backlog : ℕ
  connections_pos : 0 < connections
  connections_le : connections ≤ 65535
  listeners_pos : 0 < listeners
  listeners_le : listeners ≤ 65535
  backlog_pos : 0 < backlog
  backlog_le : backlog ≤ connections

inductive HandleKind
  | connection | listener
  deriving DecidableEq, Repr

structure Handle where
  owner : ℕ
  generation : ℕ
  slot : ℕ
  kind : HandleKind
  deriving DecidableEq, Repr

structure TransmitTicket (p : Pools) where
  owner : ℕ
  generation : ℕ
  serial : ℕ
  coreToken : ℕ
  slot : Fin p.connections
  deriving DecidableEq, Repr

structure EndpointPacket (p : Pools) where
  length : ℕ
  ticket : TransmitTicket p
  packet : Datagram
  deriving DecidableEq, Repr

structure AcceptTicket where
  listener : Handle
  child : Handle
  operation : ℕ
  queueOrder : ℕ
  deriving DecidableEq, Repr

structure AcceptPreview where
  ticket : AcceptTicket
  here : Endpoint
  peer : Endpoint
  deriving DecidableEq, Repr

structure EndpointLimits where
  generationMax : ℕ := u64Max
  readinessMax : ℕ := u64Max
  transmitMax : ℕ := u64Max
  referenceMax : ℕ := 65535
  acceptOperationMax : ℕ := u64Max
  deriving DecidableEq, Repr

structure Readiness where
  handle : Handle
  sequence : ℕ := 0
  readableBytes : ℕ := 0
  writableBytes : ℕ := 0
  acceptCount : ℕ := 0
  eof : Bool := false
  error : Bool := false
  connectComplete : Bool := false
  terminal : Bool := false
  deriving DecidableEq, Repr

structure IngressResult where
  matched : Bool
  allocated : Bool
  dropped : Bool
  deriving DecidableEq, Repr

structure ConnectionSlot (p : Pools) (cap : Capacities) (σ : Type) where
  core : Connection cap σ
  generation : ℕ := 0
  sequence : ℕ := 0
  parentGeneration : ℕ := 0
  queueOrder : ℕ := 0
  retireDeadline : ℕ := 0
  acceptOperation : ℕ := 0
  acceptQueueOrder : ℕ := 0
  references : ℕ := 0
  parentSlot : Fin p.listeners := ⟨0, p.listeners_pos⟩
  used : Bool := false
  exhausted : Bool := false
  terminal : Bool := false
  parent : Bool := false
  closing : Bool := false
  abortPending : Bool := false
  changed : Bool := false

structure ListenerSlot where
  here : Endpoint := {}
  generation : ℕ := 0
  sequence : ℕ := 0
  backlog : ℕ := 0
  acceptHolds : ℕ := 0
  references : ℕ := 0
  used : Bool := false
  exhausted : Bool := false
  terminal : Bool := false
  changed : Bool := false
  deriving DecidableEq, Repr

structure EndpointTable (p : Pools) (cap : Capacities) (σ : Type) where
  identity : ℕ
  limits : EndpointLimits
  connections : Fin p.connections → ConnectionSlot p cap σ
  listeners : Fin p.listeners → ListenerSlot := fun _ => {}
  now : ℕ := 0
  transmitSerial : ℕ := 0
  acceptSerial : ℕ := 0
  acceptOperationSerial : ℕ := 0
  roundRobin : ℕ := 0
  ticket : Option (TransmitTicket p) := none
  retired : Bool := false

def retirementMs : ℕ := 240000

def State.accepting (s : State) : Bool := s == .established || s == .closeWait

def Snapshot.changed (a b : Snapshot) : Bool :=
  a.state != b.state || a.failure != b.failure || a.sendBuffered != b.sendBuffered ||
    a.receiveBuffered != b.receiveBuffered || a.eof != b.eof || a.writeShutdown != b.writeShutdown ||
    a.prepared != b.prepared || a.peerWindow != b.peerWindow || a.receiveWindow != b.receiveWindow ||
    a.sendUnacknowledged != b.sendUnacknowledged || a.receiveNext != b.receiveNext

variable {p : Pools} {cap : Capacities} {σ : Type} [CongestionControl σ]

namespace ConnectionSlot

def allocate (slot : ConnectionSlot p cap σ) : ConnectionSlot p cap σ :=
  { slot with
    generation := slot.generation + 1, sequence := 1, references := 1, used := true
    terminal := false, parent := false, closing := false, abortPending := false
    parentGeneration := 0, queueOrder := 0, retireDeadline := 0, acceptOperation := 0, acceptQueueOrder := 0
    parentSlot := ⟨0, p.listeners_pos⟩ }

def bump (limits : EndpointLimits) (slot : ConnectionSlot p cap σ) : ConnectionSlot p cap σ :=
  if slot.terminal then { slot with changed := true }
  else if slot.sequence = limits.readinessMax then
    { slot with changed := true, terminal := true, abortPending := true }
  else { slot with changed := true, sequence := slot.sequence + 1 }

def update (limits : EndpointLimits) (slot : ConnectionSlot p cap σ) (core : Connection cap σ) : ConnectionSlot p cap σ :=
  if slot.core.snapshot.changed core.snapshot then bump limits { slot with core := core }
  else { slot with core := core }

def reclaim (slot : ConnectionSlot p cap σ) : ConnectionSlot p cap σ :=
  if slot.acceptOperation ≠ 0 then
    { slot with
      changed := true, core := slot.core.abort.2, references := 0, parent := false, queueOrder := 0
      closing := true, terminal := true, abortPending := false }
  else
    { slot with
      changed := true, core := slot.core.abort.2, used := false, references := 0, parent := false
      queueOrder := 0, closing := false, abortPending := false }

def discard (slot : ConnectionSlot p cap σ) : ConnectionSlot p cap σ :=
  let core := if !slot.core.snd.writeShutdown && slot.core.state.accepting then slot.core.shutdownWrite.2 else slot.core
  { slot with core := if core.rcv.rxSize ≠ 0 then (core.read cap.receive).2 else core }

def aborted (slot : ConnectionSlot p cap σ) : ConnectionSlot p cap σ :=
  { slot with core := if slot.abortPending then slot.core.abort.2 else slot.core, abortPending := false }

def settle (slot : ConnectionSlot p cap σ) (now : ℕ) : ConnectionSlot p cap σ :=
  let slot := slot.aborted
  let state := slot.core.state
  if !slot.closing then slot
  else if (decide (now ≥ slot.retireDeadline) && state != .timeWait) || state == .closed || state == .listen ||
      state == .synSent || state == .synReceived then slot.reclaim
  else slot.discard

def tick (limits : EndpointLimits) (now : ℕ) (slot : ConnectionSlot p cap σ) : ConnectionSlot p cap σ :=
  let overdue := slot.closing && decide (now ≥ slot.retireDeadline) && slot.core.state != .timeWait
  let slot := { slot with abortPending := slot.abortPending || overdue }
  slot.update limits (if slot.terminal then slot.core else (slot.core.tick now).2)

def childOf (slot : ConnectionSlot p cap σ) (owner : Fin p.listeners) (generation : ℕ) : Bool :=
  slot.used && slot.parent && slot.parentSlot == owner && slot.parentGeneration == generation

def acceptable (slot : ConnectionSlot p cap σ) (owner : Fin p.listeners) (generation : ℕ) : Bool :=
  slot.childOf owner generation && slot.queueOrder != 0 && !slot.terminal && slot.core.state.accepting

def queued (slot : ConnectionSlot p cap σ) (owner : Fin p.listeners) (generation : ℕ) : Bool :=
  slot.childOf owner generation && slot.queueOrder != 0 && !slot.terminal && slot.acceptOperation == 0

end ConnectionSlot

namespace ListenerSlot

def bump (limits : EndpointLimits) (slot : ListenerSlot) : ListenerSlot :=
  if slot.terminal then { slot with changed := true }
  else if slot.sequence = limits.readinessMax then { slot with changed := true, terminal := true }
  else { slot with changed := true, sequence := slot.sequence + 1 }

end ListenerSlot

namespace EndpointTable

abbrev Outcome (p : Pools) (cap : Capacities) (σ α : Type) := Result α × EndpointTable p cap σ

def fresh (identity : ℕ) (limits : EndpointLimits) : EndpointTable p cap σ where
  identity := identity
  limits := limits
  connections := fun _ => { core := Connection.fresh }
  retired := identity == 0 || limits.generationMax == 0 || limits.readinessMax == 0 || limits.transmitMax == 0 ||
    limits.referenceMax == 0 || limits.acceptOperationMax == 0

def setConnection (t : EndpointTable p cap σ) (i : Fin p.connections) (slot : ConnectionSlot p cap σ) :
    EndpointTable p cap σ :=
  { t with connections := Function.update t.connections i slot }

def setListener (t : EndpointTable p cap σ) (j : Fin p.listeners) (slot : ListenerSlot) : EndpointTable p cap σ :=
  { t with listeners := Function.update t.listeners j slot }

def stale : Status := .notFound "stale or unowned TCP endpoint handle"

def command (t : EndpointTable p cap σ) : Result Unit :=
  if t.retired then .error (.ioError "TCP endpoint table is retired") else .ok ()

def commandTime (t : EndpointTable p cap σ) (now : ℕ) : Result Unit :=
  if t.retired then .error (.ioError "TCP endpoint table is retired")
  else if now < t.now then .error (.invalidArgument "TCP endpoint clock moved backward")
  else .ok ()

def connectionHandle (t : EndpointTable p cap σ) (i : Fin p.connections) : Handle :=
  ⟨t.identity, (t.connections i).generation, i, .connection⟩

def listenerHandle (t : EndpointTable p cap σ) (j : Fin p.listeners) : Handle :=
  ⟨t.identity, (t.listeners j).generation, j, .listener⟩

def connection (t : EndpointTable p cap σ) (h : Handle) : Option (Fin p.connections) :=
  if hs : h.owner = t.identity ∧ h.kind = .connection ∧ h.slot < p.connections then
    let slot := t.connections ⟨h.slot, hs.2.2⟩
    if slot.used && slot.references != 0 && slot.generation == h.generation then some ⟨h.slot, hs.2.2⟩ else none
  else none

def listener (t : EndpointTable p cap σ) (h : Handle) : Option (Fin p.listeners) :=
  if hs : h.owner = t.identity ∧ h.kind = .listener ∧ h.slot < p.listeners then
    let slot := t.listeners ⟨h.slot, hs.2.2⟩
    if slot.used && slot.references != 0 && slot.generation == h.generation then some ⟨h.slot, hs.2.2⟩ else none
  else none

def tuple (t : EndpointTable p cap σ) (here peer : Endpoint) : Option (Fin p.connections) :=
  (List.finRange p.connections).find? fun i =>
    (t.connections i).used && (t.connections i).core.localEndpoint == here && (t.connections i).core.peer == peer

def selected (t : EndpointTable p cap σ) (i : Fin p.connections) : Bool :=
  match t.ticket with
  | some ticket => ticket.slot == i
  | none => false

def children (t : EndpointTable p cap σ) (owner : Fin p.listeners) : ℕ :=
  Slots.count (fun slot => slot.childOf owner (t.listeners owner).generation) t.connections

def vacantIn (t : EndpointTable p cap σ) : List (Fin p.connections) → Option (Fin p.connections) × EndpointTable p cap σ
  | [] => (none, t)
  | i :: slots =>
    let slot := t.connections i
    if slot.used || slot.exhausted then t.vacantIn slots
    else if slot.generation = t.limits.generationMax then
      (t.setConnection i { slot with exhausted := true }).vacantIn slots
    else (some i, t)

def vacant (t : EndpointTable p cap σ) : Option (Fin p.connections) × EndpointTable p cap σ :=
  t.vacantIn (List.finRange p.connections)

def bumpConnection (t : EndpointTable p cap σ) (i : Fin p.connections) : EndpointTable p cap σ :=
  t.setConnection i ((t.connections i).bump t.limits)

def bumpListener (t : EndpointTable p cap σ) (j : Fin p.listeners) : EndpointTable p cap σ :=
  t.setListener j ((t.listeners j).bump t.limits)

def orphaned (t : EndpointTable p cap σ) (slot : ConnectionSlot p cap σ) : Bool :=
  let owner := t.listeners slot.parentSlot
  !owner.used || owner.generation != slot.parentGeneration || slot.core.state == .closed ||
    slot.core.state == .listen || slot.terminal

def settle (t : EndpointTable p cap σ) (i : Fin p.connections) (now : ℕ) : EndpointTable p cap σ :=
  let slot := t.connections i
  if !slot.used || t.selected i then t
  else if slot.parent && t.orphaned slot then (t.bumpListener slot.parentSlot).setConnection i slot.reclaim
  else if slot.parent && slot.queueOrder == 0 && slot.core.state.accepting then
    if t.acceptSerial = u64Max then (t.bumpListener slot.parentSlot).setConnection i slot.reclaim
    else
      ({ t with acceptSerial := t.acceptSerial + 1 }.bumpListener slot.parentSlot).setConnection i
        ({ slot with queueOrder := t.acceptSerial + 1 }.settle now)
  else t.setConnection i (slot.settle now)

def closeChild (owner : Fin p.listeners) (now : ℕ) (t : EndpointTable p cap σ) (i : Fin p.connections) :
    EndpointTable p cap σ :=
  let child := t.connections i
  if child.childOf owner (t.listeners owner).generation then
    (t.setConnection i { child with
      parent := false, queueOrder := 0, closing := true, abortPending := true
      retireDeadline := deadline now retirementMs }).settle i now
  else t

def closeListener (t : EndpointTable p cap σ) (owner : Fin p.listeners) (now : ℕ) : EndpointTable p cap σ :=
  (List.finRange p.connections).foldl (closeChild owner now)
    (t.setListener owner { t.listeners owner with used := false, references := 0 })

def ensureConnection (t : EndpointTable p cap σ) (i : Fin p.connections) : Bool × EndpointTable p cap σ :=
  let slot := t.connections i
  if slot.terminal || slot.sequence == t.limits.readinessMax then
    (false, (t.setConnection i { slot with terminal := true, abortPending := true, changed := true }).settle i t.now)
  else (true, t)

def ensureListener (t : EndpointTable p cap σ) (j : Fin p.listeners) : Bool × EndpointTable p cap σ :=
  if (t.listeners j).terminal || (t.listeners j).sequence == t.limits.readinessMax then (false, t.closeListener j t.now)
  else (true, t)

def listenIn (t : EndpointTable p cap σ) (here : Endpoint) (backlog : ℕ) : List (Fin p.listeners) → Outcome p cap σ Handle
  | [] => (.error (.noMemory "TCP listener pool is exhausted"), t)
  | j :: slots =>
    let slot := t.listeners j
    if slot.used || slot.acceptHolds != 0 || slot.exhausted then t.listenIn here backlog slots
    else if slot.generation = t.limits.generationMax then
      (t.setListener j { slot with exhausted := true }).listenIn here backlog slots
    else
      let t := t.setListener j { slot with
        generation := slot.generation + 1, here := here, backlog := backlog, references := 1, sequence := 1
        terminal := false, used := true }
      (.ok (t.listenerHandle j), t)

def listen (t : EndpointTable p cap σ) (here : Endpoint) (backlog : ℕ) : Outcome p cap σ Handle :=
  match t.command with
  | .error s => (.error s, t)
  | .ok () =>
    if !here.valid || backlog = 0 || backlog > p.backlog then
      (.error (.invalidArgument "invalid TCP listen endpoint/backlog"), t)
    else if (List.finRange p.listeners).any fun j => (t.listeners j).used && (t.listeners j).here == here then
      (.error (.alreadyExists "TCP listener endpoint is reserved"), t)
    else t.listenIn here backlog (List.finRange p.listeners)

def connect (t : EndpointTable p cap σ) (here peer : Endpoint) (iss : U32) (now : ℕ) : Outcome p cap σ Handle :=
  match t.commandTime now with
  | .error s => (.error s, t)
  | .ok () =>
    if !here.valid || !peer.valid then (.error (.invalidArgument "invalid TCP connection endpoints"), t)
    else if (t.tuple here peer).isSome then (.error (.alreadyExists "TCP four-tuple is reserved"), t)
    else
      match t.vacant with
      | (none, t) => (.error (.noMemory "TCP connection pool is exhausted"), t)
      | (some i, t) =>
        let slot := t.connections i
        match slot.core.activeOpen here peer iss now with
        | (.error s, core) => (.error s, t.setConnection i { slot with core := core })
        | (.ok (), core) =>
          let t := { t.setConnection i { slot with core := core }.allocate with now := now }
          (.ok (t.connectionHandle i), t)

def retain (t : EndpointTable p cap σ) (h : Handle) : Outcome p cap σ Unit :=
  match t.command with
  | .error s => (.error s, t)
  | .ok () =>
    match h.kind with
    | .listener =>
      match t.listener h with
      | none => (.error stale, t)
      | some j =>
        let slot := t.listeners j
        if slot.references = t.limits.referenceMax then (.error (.overflow "TCP listener reference limit"), t)
        else (.ok (), t.setListener j { slot with references := slot.references + 1 })
    | .connection =>
      match t.connection h with
      | none => (.error stale, t)
      | some i =>
        let slot := t.connections i
        if slot.references = t.limits.referenceMax then (.error (.overflow "TCP endpoint reference limit"), t)
        else (.ok (), t.setConnection i { slot with references := slot.references + 1 })

def release (t : EndpointTable p cap σ) (h : Handle) (now : ℕ) : Outcome p cap σ Unit :=
  if now < t.now then (.error (.invalidArgument "TCP endpoint clock moved backward"), t)
  else
    match h.kind with
    | .listener =>
      match t.listener h with
      | none => (.error stale, t)
      | some j =>
        let slot := t.listeners j
        let t := t.setListener j { slot with references := slot.references - 1 }
        if slot.references - 1 ≠ 0 then (.ok (), { t with now := now })
        else (.ok (), { t.closeListener j now with now := now })
    | .connection =>
      match t.connection h with
      | none => (.error stale, t)
      | some i =>
        let slot := t.connections i
        if slot.references - 1 ≠ 0 then
          (.ok (), { t.setConnection i { slot with references := slot.references - 1 } with now := now })
        else
          let t := t.setConnection i { slot with
            references := slot.references - 1, closing := true, retireDeadline := deadline now retirementMs }
          (.ok (), { t.settle i now with now := now })

def abort (t : EndpointTable p cap σ) (h : Handle) (now : ℕ) : Outcome p cap σ Unit :=
  match t.commandTime now with
  | .error s => (.error s, t)
  | .ok () =>
    match t.connection h with
    | none => (.error stale, t)
    | some i =>
      let t := (t.setConnection i { t.connections i with terminal := true, abortPending := true }).bumpConnection i
      (.ok (), { t.settle i now with now := now })

def oldest (t : EndpointTable p cap σ) (owner : Fin p.listeners) (generation : ℕ) : Option (Fin p.connections) :=
  ((List.finRange p.connections).foldl
    (fun best i =>
      let slot := t.connections i
      if slot.acceptable owner generation && slot.acceptOperation == 0 && decide (slot.queueOrder ≤ best.2) then
        (some i, slot.queueOrder)
      else best)
    (none, u64Max)).1

def accept (t : EndpointTable p cap σ) (h : Handle) : Outcome p cap σ Handle :=
  match t.command with
  | .error s => (.error s, t)
  | .ok () =>
    match t.listener h with
    | none => (.error stale, t)
    | some j =>
      match t.ensureListener j with
      | (false, t) => (.error (.ioError "TCP listener readiness is terminal"), t)
      | (true, t) =>
        match t.oldest j h.generation with
        | none => (.error (.wouldBlock "TCP accept queue is empty"), t)
        | some i =>
          let t := t.setConnection i { t.connections i with parent := false, queueOrder := 0, references := 1 }
          let t := (t.bumpListener j).bumpConnection i
          (.ok (t.connectionHandle i), t)

def prepareAccept (t : EndpointTable p cap σ) (h : Handle) : Outcome p cap σ AcceptPreview :=
  match t.command with
  | .error s => (.error s, t)
  | .ok () =>
    match t.listener h with
    | none => (.error stale, t)
    | some j =>
      let owner := t.listeners j
      if owner.terminal || decide (owner.sequence ≥ t.limits.readinessMax) then
        (.error (.ioError "TCP listener cannot reserve accept readiness"), t)
      else if t.acceptOperationSerial = t.limits.acceptOperationMax || owner.acceptHolds = u64Max then
        (.error (.overflow "TCP prepared accept operation limit"), t)
      else
        match t.oldest j h.generation with
        | none => (.error (.wouldBlock "TCP accept queue is empty"), t)
        | some i =>
          let child := t.connections i
          if owner.sequence ≥ t.limits.readinessMax - 1 || child.sequence ≥ t.limits.readinessMax then
            (.error (.overflow "TCP accept readiness increment is exhausted"), t)
          else
            let operation := t.acceptOperationSerial + 1
            let held := { child with acceptOperation := operation, acceptQueueOrder := child.queueOrder }
            let busy := { owner with acceptHolds := owner.acceptHolds + 1, sequence := owner.sequence + 1 }
            (.ok ⟨⟨h, t.connectionHandle i, operation, child.queueOrder⟩, child.core.localEndpoint, child.core.peer⟩,
              ({ t with acceptOperationSerial := operation }.setConnection i held).setListener j busy)

def acceptChild (t : EndpointTable p cap σ) (ticket : AcceptTicket) : Option (Fin p.connections) :=
  if hs : ticket.operation ≠ 0 ∧ ticket.child.owner = t.identity ∧ ticket.child.kind = .connection ∧
      ticket.child.slot < p.connections then
    let slot := t.connections ⟨ticket.child.slot, hs.2.2.2⟩
    if slot.used && slot.generation == ticket.child.generation && slot.acceptOperation == ticket.operation &&
        slot.acceptQueueOrder == ticket.queueOrder then some ⟨ticket.child.slot, hs.2.2.2⟩
    else none
  else none

def validateAccept (t : EndpointTable p cap σ) (ticket : AcceptTicket) : Result (Fin p.listeners × Fin p.connections) :=
  match t.command with
  | .error s => .error s
  | .ok () =>
    match t.listener ticket.listener, t.acceptChild ticket with
    | some j, some i =>
      let owner := t.listeners j
      let child := t.connections i
      if owner.acceptHolds = 0 || !child.acceptable j ticket.listener.generation || owner.terminal ||
          child.queueOrder != ticket.queueOrder then
        .error (.busy "TCP prepared accept authority is stale")
      else if owner.sequence ≥ t.limits.readinessMax || child.sequence ≥ t.limits.readinessMax then
        .error (.overflow "TCP accept commit readiness increment is exhausted")
      else .ok (j, i)
    | _, _ => .error (.busy "TCP prepared accept authority is stale")

def commitAccept (t : EndpointTable p cap σ) (ticket : AcceptTicket) : Outcome p cap σ Handle :=
  match t.validateAccept ticket with
  | .error s => (.error s, t)
  | .ok (j, i) =>
    let owner := t.listeners j
    let child := t.connections i
    (.ok ticket.child, (t.setConnection i { child with
        parent := false, queueOrder := 0, references := 1, acceptOperation := 0, acceptQueueOrder := 0
        sequence := child.sequence + 1 }).setListener j
          { owner with acceptHolds := owner.acceptHolds - 1, sequence := owner.sequence + 1 })

def cancelAccept (t : EndpointTable p cap σ) (ticket : AcceptTicket) : Outcome p cap σ Unit :=
  match t.acceptChild ticket with
  | none => (.error (.invalidArgument "foreign or stale TCP accept cancellation"), t)
  | some i =>
    if hs : ticket.listener.owner = t.identity ∧ ticket.listener.kind = .listener ∧ ticket.listener.slot < p.listeners then
      let j : Fin p.listeners := ⟨ticket.listener.slot, hs.2.2⟩
      let owner := t.listeners j
      let child := t.connections i
      if owner.generation != ticket.listener.generation || owner.acceptHolds = 0 || child.parentSlot != j ||
          child.parentGeneration != ticket.listener.generation then
        (.error (.invalidArgument "TCP accept cancellation owner differs"), t)
      else
        let queued := child.acceptable j ticket.listener.generation && child.queueOrder == ticket.queueOrder
        let t := t.setConnection i { child with acceptOperation := 0, acceptQueueOrder := 0 }
        let owner := { owner with acceptHolds := owner.acceptHolds - 1 }
        let t :=
          if queued && owner.used && !owner.terminal then
            if owner.sequence ≥ t.limits.readinessMax then (t.setListener j owner).closeListener j t.now
            else t.setListener j { owner with sequence := owner.sequence + 1 }
          else t.setListener j owner
        (.ok (), t.settle i t.now)
    else (.error (.invalidArgument "foreign or stale TCP accept cancellation"), t)

def takeChanged (t : EndpointTable p cap σ) : List Handle × EndpointTable p cap σ :=
  (((List.finRange p.connections).filter fun i => (t.connections i).changed).map t.connectionHandle ++
    ((List.finRange p.listeners).filter fun j => (t.listeners j).changed).map t.listenerHandle,
    { t with
      connections := fun i => { t.connections i with changed := false }
      listeners := fun j => { t.listeners j with changed := false } })

def readiness (t : EndpointTable p cap σ) (h : Handle) : Result Readiness :=
  match h.kind with
  | .listener =>
    match t.listener h with
    | none => .error stale
    | some j =>
      .ok {
        handle := h, sequence := (t.listeners j).sequence
        terminal := (t.listeners j).terminal || t.retired, error := (t.listeners j).terminal || t.retired
        acceptCount := Slots.count (fun slot => slot.queued j h.generation) t.connections }
  | .connection =>
    match t.connection h with
    | none => .error stale
    | some i =>
      let slot := t.connections i
      let s := slot.core.snapshot
      let terminal := slot.terminal || t.retired
      let error := terminal || s.failure != .none
      .ok {
        handle := h, sequence := slot.sequence, readableBytes := s.receiveBuffered, eof := s.eof
        terminal := terminal, error := error
        connectComplete := s.state != .synSent && s.state != .synReceived
        writableBytes :=
          if !error && !s.writeShutdown && !s.prepared && s.state.accepting then cap.send - s.sendBuffered else 0 }

def stream {α : Type} (t : EndpointTable p cap σ) (h : Handle)
    (operation : Connection cap σ → Connection.Outcome cap σ α) : Outcome p cap σ α :=
  match t.command with
  | .error s => (.error s, t)
  | .ok () =>
    match t.connection h with
    | none => (.error stale, t)
    | some i =>
      match t.ensureConnection i with
      | (false, t) => (.error (.ioError "TCP endpoint readiness is terminal"), t)
      | (true, t) =>
        match operation (t.connections i).core with
        | (.error s, core) => (.error s, t.setConnection i { t.connections i with core := core })
        | (.ok x, core) => (.ok x, t.setConnection i ((t.connections i).update t.limits core))

def write (t : EndpointTable p cap σ) (h : Handle) (bytes : List UInt8) : Outcome p cap σ ℕ :=
  t.stream h fun c => c.write bytes

def read (t : EndpointTable p cap σ) (h : Handle) (size : ℕ) : Outcome p cap σ (List UInt8) :=
  t.stream h fun c => c.read size

def shutdownWrite (t : EndpointTable p cap σ) (h : Handle) : Outcome p cap σ Unit :=
  t.stream h fun c => c.shutdownWrite

def ingestConnection (t : EndpointTable p cap σ) (i : Fin p.connections) (d : Datagram) (now : ℕ) :
    Outcome p cap σ IngressResult :=
  match t.ensureConnection i with
  | (false, t) => (.ok ⟨true, false, true⟩, t)
  | (true, t) =>
    match (t.connections i).core.receive (.ok d) now with
    | (.error s, core) => (.error s, { t.setConnection i { t.connections i with core := core } with now := now })
    | (.ok answer, core) =>
      (.ok ⟨true, false, answer == .ignored⟩,
        { t.setConnection i ((t.connections i).update t.limits core) with now := now }.settle i now)

def openChild (t : EndpointTable p cap σ) (owner : Fin p.listeners) (i : Fin p.connections) (here : Endpoint) (iss : U32)
    (d : Datagram) (now : ℕ) : Outcome p cap σ IngressResult :=
  let slot := t.connections i
  match slot.core.passiveOpen here iss now with
  | (.error s, core) => (.error s, t.setConnection i { slot with core := core })
  | (.ok (), core) =>
    match core.receive (.ok d) now with
    | (.error s, core) => (.error s, t.setConnection i { slot with core := core.abort.2 })
    | (.ok _, core) =>
      if core.state != .synReceived then
        (.ok ⟨true, false, true⟩, t.setConnection i { slot with core := core.abort.2 })
      else
        (.ok ⟨true, true, false⟩, (t.setConnection i { { slot with core := core }.allocate with
            references := 0, parent := true, parentSlot := owner
            parentGeneration := (t.listeners owner).generation }).bumpListener owner)

def ingestRequest (t : EndpointTable p cap σ) (owner : Fin p.listeners) (here : Endpoint) (iss : Result U32)
    (d : Datagram) (now : ℕ) : Outcome p cap σ IngressResult :=
  match t.ensureListener owner with
  | (false, t) => (.ok ⟨true, false, true⟩, t)
  | (true, t) =>
    if t.children owner ≥ (t.listeners owner).backlog then (.ok ⟨true, false, true⟩, t)
    else
      match t.vacant with
      | (none, t) => (.ok ⟨true, false, true⟩, t)
      | (some i, t) =>
        match iss with
        | .error s => (.error s, t)
        | .ok iss => { t with now := now }.openChild owner i here iss d now

def ingest (t : EndpointTable p cap σ) (packet : Result Datagram) (now : ℕ)
    (source : Endpoint → Endpoint → Result U32) : Outcome p cap σ IngressResult :=
  match t.commandTime now, packet with
  | .error s, _ => (.error s, t)
  | .ok (), .error s => (.error s, t)
  | .ok (), .ok d =>
    let fields := d.tcp.fields
    let here : Endpoint := ⟨d.destination, fields.destinationPort⟩
    let peer : Endpoint := ⟨d.source, fields.sourcePort⟩
    if !here.valid || !peer.valid then (.ok ⟨false, false, true⟩, t)
    else
      match t.tuple here peer with
      | some i => t.ingestConnection i d now
      | none =>
        match (List.finRange p.listeners).find? fun j => (t.listeners j).used && (t.listeners j).references != 0 &&
            !(t.listeners j).terminal && (t.listeners j).here == here with
        | none => (.ok ⟨false, false, true⟩, t)
        | some owner =>
          if !fields.has tcpSyn || fields.has (tcpAck ||| tcpRst ||| tcpFin) then (.ok ⟨false, false, true⟩, t)
          else t.ingestRequest owner here (source here peer) d now

def tickSlot (now : ℕ) (t : EndpointTable p cap σ) (i : Fin p.connections) : EndpointTable p cap σ :=
  if !(t.connections i).used || t.selected i then t
  else (t.setConnection i ((t.connections i).tick t.limits now)).settle i now

def tick (t : EndpointTable p cap σ) (now : ℕ) : Outcome p cap σ Unit :=
  match t.commandTime now with
  | .error s => (.error s, t)
  | .ok () => (.ok (), (List.finRange p.connections).foldl (tickSlot now) { t with now := now })

def retireSlot (slot : ConnectionSlot p cap σ) : ConnectionSlot p cap σ :=
  if slot.used then
    let slot := { slot with
      terminal := true, parent := false, queueOrder := 0, changed := true, core := slot.core.abort.2 }
    if slot.references = 0 then slot.reclaim else slot
  else slot

def retireAll (t : EndpointTable p cap σ) : EndpointTable p cap σ :=
  { t with
    retired := true
    listeners := fun j => { t.listeners j with used := false, references := 0, changed := true }
    connections := fun i => retireSlot (t.connections i) }

def retire (t : EndpointTable p cap σ) : Outcome p cap σ Unit :=
  match t.ticket with
  | none => (.ok (), t.retireAll)
  | some ticket =>
    match (t.connections ticket.slot).core.completeTransmit ticket.coreToken false t.now with
    | (.error s, core) => (.error s, t.setConnection ticket.slot { t.connections ticket.slot with core := core })
    | (.ok (), core) =>
      (.ok (), { t.setConnection ticket.slot { t.connections ticket.slot with core := core } with ticket := none }.retireAll)

def prepareIn (t : EndpointTable p cap σ) (size now : ℕ) : List (Fin p.connections) →
    Outcome p cap σ (Option (EndpointPacket p))
  | [] => (.ok none, t)
  | i :: slots =>
    if !(t.connections i).used || (t.connections i).terminal then t.prepareIn size now slots
    else
      match t.ensureConnection i with
      | (false, t) => t.prepareIn size now slots
      | (true, t) =>
        let slot := t.connections i
        match slot.core.prepare size now with
        | (.error s, core) => (.error s, t.setConnection i { slot with core := core })
        | (.ok none, core) => (t.setConnection i { slot with core := core }).prepareIn size now slots
        | (.ok (some q), core) =>
          let ticket : TransmitTicket p := ⟨t.identity, slot.generation, t.transmitSerial + 1, q.token, i⟩
          (.ok (some ⟨q.length, ticket, q.packet⟩), { t.setConnection i (slot.update t.limits core) with
            ticket := some ticket, transmitSerial := t.transmitSerial + 1
            roundRobin := (i + 1) % p.connections })

def rotation (t : EndpointTable p cap σ) : List (Fin p.connections) :=
  (List.range p.connections).map fun k => ⟨(t.roundRobin + k) % p.connections, Nat.mod_lt _ p.connections_pos⟩

def prepare (t : EndpointTable p cap σ) (size now : ℕ) : Outcome p cap σ (Option (EndpointPacket p)) :=
  match t.commandTime now with
  | .error s => (.error s, t)
  | .ok () =>
    if t.ticket.isSome then (.error (.busy "TCP endpoint ticket is outstanding"), t)
    else if t.transmitSerial = t.limits.transmitMax then
      (.error (.overflow "TCP endpoint transmit serial exhausted"), t.retire.2)
    else
      match t.tick now with
      | (.error s, t) => (.error s, t)
      | (.ok (), t) => t.prepareIn size now t.rotation

def complete (t : EndpointTable p cap σ) (ticket : TransmitTicket p) (accepted : Bool) (now : ℕ) : Outcome p cap σ Unit :=
  if t.ticket ≠ some ticket then (.error (.invalidArgument "stale TCP endpoint completion ticket"), t)
  else if now < t.now then (.error (.invalidArgument "TCP endpoint clock moved backward"), t)
  else
    let slot := t.connections ticket.slot
    match slot.core.completeTransmit ticket.coreToken accepted now with
    | (.error s, core) => (.error s, t.setConnection ticket.slot { slot with core := core })
    | (.ok (), core) =>
      (.ok (), { t.setConnection ticket.slot (slot.update t.limits core) with
        ticket := none, now := now }.settle ticket.slot now)

end EndpointTable

inductive TableOp (p : Pools)
  | listen (here : Endpoint) (backlog : ℕ)
  | connect (here peer : Endpoint) (iss : U32) (now : ℕ)
  | retain (h : Handle)
  | release (h : Handle) (now : ℕ)
  | abort (h : Handle) (now : ℕ)
  | accept (h : Handle)
  | prepareAccept (h : Handle)
  | commitAccept (ticket : AcceptTicket)
  | cancelAccept (ticket : AcceptTicket)
  | write (h : Handle) (bytes : List UInt8)
  | read (h : Handle) (size : ℕ)
  | shutdownWrite (h : Handle)
  | ingest (packet : Result Datagram) (now : ℕ) (source : Endpoint → Endpoint → Result U32)
  | tick (now : ℕ)
  | prepare (size now : ℕ)
  | complete (ticket : TransmitTicket p) (accepted : Bool) (now : ℕ)
  | retire
  | takeChanged

inductive TableReply (p : Pools)
  | done (r : Result Unit)
  | handle (r : Result Handle)
  | preview (r : Result AcceptPreview)
  | count (r : Result ℕ)
  | bytes (r : Result (List UInt8))
  | ingress (r : Result IngressResult)
  | packet (r : Result (Option (EndpointPacket p)))
  | changed (visited : List Handle)
  deriving DecidableEq

def TableOp.run (t : EndpointTable p cap σ) : TableOp p → TableReply p × EndpointTable p cap σ
  | .listen here backlog => (t.listen here backlog).map .handle id
  | .connect here peer iss now => (t.connect here peer iss now).map .handle id
  | .retain h => (t.retain h).map .done id
  | .release h now => (t.release h now).map .done id
  | .abort h now => (t.abort h now).map .done id
  | .accept h => (t.accept h).map .handle id
  | .prepareAccept h => (t.prepareAccept h).map .preview id
  | .commitAccept ticket => (t.commitAccept ticket).map .handle id
  | .cancelAccept ticket => (t.cancelAccept ticket).map .done id
  | .write h bytes => (t.write h bytes).map .count id
  | .read h size => (t.read h size).map .bytes id
  | .shutdownWrite h => (t.shutdownWrite h).map .done id
  | .ingest packet now source => (t.ingest packet now source).map .ingress id
  | .tick now => (t.tick now).map .done id
  | .prepare size now => (t.prepare size now).map .packet id
  | .complete ticket accepted now => (t.complete ticket accepted now).map .done id
  | .retire => t.retire.map .done id
  | .takeChanged => t.takeChanged.map .changed id

def TableOp.runs (t : EndpointTable p cap σ) (ops : List (TableOp p)) : EndpointTable p cap σ :=
  ops.foldl (fun t op => (op.run t).2) t

end ObfuscationKernel.Net.Tcp
