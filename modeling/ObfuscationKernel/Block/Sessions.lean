import Mathlib.Tactic
import ObfuscationKernel.Core.Status

/-! Exclusive sessions on registered block devices; the calls of a request are steps, so that any other call may come between. -/

namespace ObfuscationKernel.Block

open ObfuscationKernel.Core

inductive Operation
  | read | write | flush
  deriving DecidableEq, Repr

inductive SessionAccess
  | readonly | writable
  deriving DecidableEq, Repr

inductive DeviceState
  | unused | registering | ready | owned | quarantined | exhausted
  deriving DecidableEq, Repr

structure BlockGeometry where
  blockCount : ℕ := 0
  blockSize : ℕ := 512
  writable : Bool := false
  deriving DecidableEq, Repr

structure SessionBounds where
  first : ℕ := 0
  count : ℕ := 0
  deriving DecidableEq, Repr

structure SessionReport where
  state : DeviceState := .unused
  firstError : Option StatusCode := none
  identity : ℕ := 0
  registrationGeneration : ℕ := 0
  sessionSerial : ℕ := 0
  attempted : Operation → ℕ := fun _ => 0
  completed : Operation → ℕ := fun _ => 0
  inFlight : Bool := false
  pendingWrites : Bool := false

structure Registration where
  ours : Bool := false
  slot : ℕ := 0
  generation : ℕ := 0
  deriving DecidableEq, Repr

structure Session where
  bound : Bool := false
  registration : Registration := {}
  serial : ℕ := 0
  first : ℕ := 0
  geometry : BlockGeometry := {}
  deriving DecidableEq, Repr

structure Entry where
  device : Option ℕ := none
  owner : Option ℕ := none
  geometry : BlockGeometry := {}
  maximumTransfer : ℕ := 0
  report : SessionReport := {}

/-- The guard is asked four times: at first, before the transport, after it and before the request completes. -/
inductive Stage
  | first | dispatch | answered | completion
  deriving DecidableEq, Repr

inductive Phase
  | guarding (stage : Stage)
  | measuring (answered : Bool)
  | sending
  | awaiting
  | revoking (status : Status)
  | finishing (result : Result Unit)

structure Request where
  slot : ℕ
  session : ℕ
  operation : Operation
  device : ℕ
  expected : BlockGeometry
  absolute : ℕ
  size : ℕ
  phase : Phase := .guarding .first

structure Enrolment where
  slot : ℕ
  maximumTransfer : ℕ

inductive Event
  | sent (session : ℕ) (operation : Operation)
  | completed (session : ℕ) (operation : Operation)
  | revoked (session : ℕ)
  deriving DecidableEq, Repr

structure Service (capacity : ℕ) where
  entries : ℕ → Entry := fun _ => {}
  sessions : ℕ → Session := fun _ => {}
  requests : ℕ → Option Request := fun _ => none
  enrolments : ℕ → Option Enrolment := fun _ => none
  log : List Event := []

def counterLimit : ℕ := 2 ^ 64 - 1

namespace Service

variable {capacity : ℕ} (service : Service capacity)

def put (slot : ℕ) (entry : Entry) : Service capacity := { service with entries := Function.update service.entries slot entry }

def setRequest (id : ℕ) (request : Option Request) : Service capacity :=
  { service with requests := Function.update service.requests id request }

def setEnrolment (id : ℕ) (enrolment : Option Enrolment) : Service capacity :=
  { service with enrolments := Function.update service.enrolments id enrolment }

def setSession (id : ℕ) (session : Session) : Service capacity :=
  { service with sessions := Function.update service.sessions id session }

def tell (event : Event) : Service capacity := { service with log := event :: service.log }

section

variable (slot id : ℕ) (entry : Entry) (request : Option Request) (enrolment : Option Enrolment) (session : Session)
  (event : Event) (i : ℕ)

@[simp, grind =] lemma put_entries : (service.put slot entry).entries i = if i = slot then entry else service.entries i :=
  Function.update_apply ..
@[simp, grind =] lemma put_sessions : (service.put slot entry).sessions i = service.sessions i := rfl
@[simp, grind =] lemma put_requests : (service.put slot entry).requests i = service.requests i := rfl
@[simp, grind =] lemma put_enrolments : (service.put slot entry).enrolments i = service.enrolments i := rfl
@[simp, grind =] lemma put_log : (service.put slot entry).log = service.log := rfl
@[simp, grind =] lemma setRequest_entries : (service.setRequest id request).entries i = service.entries i := rfl
@[simp, grind =] lemma setRequest_sessions : (service.setRequest id request).sessions i = service.sessions i := rfl
@[simp, grind =] lemma setRequest_requests :
    (service.setRequest id request).requests i = if i = id then request else service.requests i := Function.update_apply ..
@[simp, grind =] lemma setRequest_enrolments : (service.setRequest id request).enrolments i = service.enrolments i := rfl
@[simp, grind =] lemma setRequest_log : (service.setRequest id request).log = service.log := rfl
@[simp, grind =] lemma setEnrolment_entries : (service.setEnrolment id enrolment).entries i = service.entries i := rfl
@[simp, grind =] lemma setEnrolment_enrolments :
    (service.setEnrolment id enrolment).enrolments i = if i = id then enrolment else service.enrolments i :=
  Function.update_apply ..
@[simp, grind =] lemma setSession_entries : (service.setSession id session).entries i = service.entries i := rfl
@[simp, grind =] lemma setSession_sessions :
    (service.setSession id session).sessions i = if i = id then session else service.sessions i := Function.update_apply ..
@[simp, grind =] lemma setSession_requests : (service.setSession id session).requests i = service.requests i := rfl
@[simp, grind =] lemma setSession_enrolments : (service.setSession id session).enrolments i = service.enrolments i := rfl
@[simp, grind =] lemma setSession_log : (service.setSession id session).log = service.log := rfl
@[simp, grind =] lemma tell_entries : (service.tell event).entries i = service.entries i := rfl
@[simp, grind =] lemma tell_sessions : (service.tell event).sessions i = service.sessions i := rfl
@[simp, grind =] lemma tell_requests : (service.tell event).requests i = service.requests i := rfl
@[simp, grind =] lemma tell_enrolments : (service.tell event).enrolments i = service.enrolments i := rfl
@[simp, grind =] lemma tell_log : (service.tell event).log = event :: service.log := rfl

end

def find (key : Registration) : Option Entry :=
  let entry := service.entries key.slot
  if !key.ours || key.slot ≥ capacity then none
  else if entry.device.isSome && entry.report.registrationGeneration = key.generation then some entry else none

def findSession (session : ℕ) : Option Entry :=
  let s := service.sessions session
  (service.find s.registration).filter fun entry => entry.report.sessionSerial = s.serial

/-- A free slot from `index` on; slots without a further generation are given up on the way. -/
def reserve (device identity : ℕ) (service : Service capacity) (index : ℕ) : ℕ → Service capacity × Option ℕ
  | 0 => (service, none)
  | fuel + 1 =>
    let entry := service.entries index
    if entry.report.state ≠ .unused then reserve device identity service (index + 1) fuel
    else if entry.report.registrationGeneration = counterLimit then
      reserve device identity (service.put index { entry with report := { entry.report with state := .exhausted } })
        (index + 1) fuel
    else (service.put index { device := some device, report := {
      identity := identity, registrationGeneration := entry.report.registrationGeneration + 1
      state := .registering } }, some index)

def registered (device identity : ℕ) : Bool :=
  (List.range capacity).any fun i =>
    (service.entries i).device = some device ||
      (service.entries i).report.state ≠ .unused && (service.entries i).report.identity = identity

def registerDevice (id device identity maximumTransfer : ℕ) : Result Unit × Service capacity :=
  if identity = 0 then (.error (.invalidArgument "block registration identity"), service)
  else if service.registered device identity then
    (.error (.alreadyExists "block device or identity already registered"), service)
  else
    match reserve device identity service 0 capacity with
    | (later, none) => (.error (.noMemory "block registration capacity exhausted"), later)
    | (later, some slot) => (.ok (), later.setEnrolment id (some ⟨slot, maximumTransfer⟩))

def badGeometry (geometry : BlockGeometry) (maximumTransfer : ℕ) : Bool :=
  geometry.blockCount = 0 || geometry.blockSize < 512 || geometry.blockSize > 4096 ||
    geometry.blockSize &&& (geometry.blockSize - 1) ≠ 0 || maximumTransfer < geometry.blockSize ||
    maximumTransfer % geometry.blockSize ≠ 0

def enroll (id : ℕ) (enrolment : Enrolment) (geometry : BlockGeometry) : Result Unit × Service capacity :=
  let entry := service.entries enrolment.slot
  let done := service.setEnrolment id none
  if badGeometry geometry enrolment.maximumTransfer then
    (.error (.invalidArgument "block registration geometry or transfer bound"),
      done.put enrolment.slot { report := { registrationGeneration := entry.report.registrationGeneration } })
  else (.ok (), done.put enrolment.slot { entry with
    geometry := geometry, maximumTransfer := enrolment.maximumTransfer, report := { entry.report with state := .ready } })

def acquire (key : Registration) (bounds : SessionBounds) (access : SessionAccess) (session : ℕ) : Result Unit × Service capacity :=
  if (service.sessions session).bound then (.error (.alreadyExists "block session object is one-shot"), service)
  else
    match service.find key with
    | none => (.error (.notFound "stale block registration"), service)
    | some entry =>
      if entry.report.state = .quarantined then (.error (.denied "block device is quarantined"), service)
      else if entry.report.state ≠ .ready || entry.report.inFlight then
        (.error (.busy "block device already has an owner"), service)
      else if bounds.count = 0 || bounds.first ≥ entry.geometry.blockCount ||
          bounds.count > entry.geometry.blockCount - bounds.first then
        (.error (.invalidArgument "block session partition or access"), service)
      else if access = .writable && !entry.geometry.writable then (.error (.denied "block device is readonly"), service)
      else if entry.report.sessionSerial = counterLimit then
        (.error (.overflow "block session serial exhausted"), service)
      else
        let serial := entry.report.sessionSerial + 1
        (.ok (), (service.put key.slot { entry with
          owner := some session
          report := {
            state := .owned, identity := entry.report.identity
            registrationGeneration := entry.report.registrationGeneration, sessionSerial := serial } }).setSession session
          ⟨true, key, serial, bounds.first, ⟨bounds.count, entry.geometry.blockSize, access = .writable⟩⟩)

def detach (key : Registration) : Result Unit × Service capacity :=
  match service.find key with
  | none => (.error (.notFound "stale block registration"), service)
  | some entry =>
    if entry.report.state = .quarantined then
      (.error (.denied "quarantined device lifetime must remain pinned"), service)
    else if entry.owner.isSome || entry.report.inFlight || entry.report.state ≠ .ready then
      (.error (.busy "block registration is owned or in flight"), service)
    else (.ok (), service.put key.slot { report := { registrationGeneration := entry.report.registrationGeneration } })

def quarantine (entry : Entry) (reason : StatusCode) : Entry :=
  { entry with
    owner := none
    report := { entry.report with state := .quarantined, firstError := entry.report.firstError.or (some reason) } }

def slotOf (session : ℕ) : ℕ := (service.sessions session).registration.slot

def giveBack (entry : Entry) : Entry := { entry with owner := none, report := { entry.report with state := .ready } }

def close (session : ℕ) : Result Unit × Service capacity :=
  if !(service.sessions session).bound then (.error (.notInitialized "block session is unbound"), service)
  else
    match service.findSession session with
    | none => (.error (.badDescriptor "stale block session"), service)
    | some entry =>
      if entry.report.state = .quarantined then (.error (.denied "block session is quarantined"), service)
      else if entry.owner ≠ some session then (.error (.badDescriptor "closed block session"), service)
      else if entry.report.inFlight || entry.report.pendingWrites then
        (.error (.busy "block session has in-flight or unflushed work"), service)
      else (.ok (), service.put (service.slotOf session) (giveBack entry))

def abandon (session : ℕ) : Result Unit × Service capacity :=
  if !(service.sessions session).bound then (.error (.notInitialized "block session is unbound"), service)
  else
    match service.findSession session with
    | none => (.error (.badDescriptor "closed or stale block session"), service)
    | some entry =>
      if entry.owner ≠ some session then (.error (.badDescriptor "closed or stale block session"), service)
      else if entry.report.inFlight || entry.report.pendingWrites then
        (.error (.ioError "block session abandoned unresolved work"),
          (service.put (service.slotOf session) (quarantine entry .interrupted)).tell (.revoked session))
      else (.ok (), service.put (service.slotOf session) (giveBack entry))

/-- `reason` is `none` for a status without an error. -/
def abort (session : ℕ) (reason : Option StatusCode) : Result Unit × Service capacity :=
  if !(service.sessions session).bound then (.error (.notInitialized "block session is unbound"), service)
  else
    match reason with
    | none => (.error (.invalidArgument "block integrity abort requires an error"), service)
    | some reason =>
      match service.findSession session with
      | none => (.error (.badDescriptor "closed or stale block session"), service)
      | some entry =>
        if entry.owner ≠ some session then (.error (.badDescriptor "closed or stale block session"), service)
        else (.ok (), (service.put (service.slotOf session) (quarantine entry reason)).tell (.revoked session))

def badRequest (session : Session) (maximumTransfer first size : ℕ) : Bool :=
  size = 0 || size % session.geometry.blockSize ≠ 0 || size > maximumTransfer || first ≥ session.geometry.blockCount ||
    size / session.geometry.blockSize > session.geometry.blockCount - first

def countersHaveRoom (operation : Operation) (report : SessionReport) : Bool :=
  report.attempted operation ≠ counterLimit && report.completed operation ≠ counterLimit

def launch (operation : Operation) (entry : Entry) : Entry :=
  { entry with report := { entry.report with
    inFlight := true
    attempted := Function.update entry.report.attempted operation (entry.report.attempted operation + 1)
    pendingWrites := entry.report.pendingWrites || operation = .write } }

def requestOf (s : Session) (entry : Entry) (operation : Operation) (session first size : ℕ) : Request where
  slot := s.registration.slot
  session := session
  operation := operation
  device := entry.device.getD 0
  expected := entry.geometry
  absolute := if operation = .flush then 0 else s.first + first
  size := if operation = .flush then 0 else size

def io (id : ℕ) (operation : Operation) (session first size : ℕ) : Result Unit × Service capacity :=
  let s := service.sessions session
  if !s.bound then (.error (.notInitialized "block session is unbound"), service)
  else
    match service.findSession session with
    | none => (.error (.badDescriptor "stale block session"), service)
    | some entry =>
      if entry.report.state = .quarantined then (.error (.denied "block device is quarantined"), service)
      else if entry.owner ≠ some session || entry.report.state ≠ .owned then
        (.error (.badDescriptor "closed block session"), service)
      else if entry.report.inFlight then (.error (.busy "block session request already in flight"), service)
      else if operation ≠ .read && !s.geometry.writable then (.error (.denied "readonly block session"), service)
      else if operation ≠ .flush && badRequest s entry.maximumTransfer first size then
        (.error (.invalidArgument "block session request bounds or transfer size"), service)
      else if !countersHaveRoom operation entry.report then
        (.error (.overflow "block session operation counter exhausted"), service)
      else
        (.ok (), (service.put s.registration.slot (launch operation entry)).setRequest id
          (some (requestOf s entry operation session first size)))

def guarded (stage : Stage) : Result Unit → Phase
  | .error status => .revoking status
  | .ok _ =>
    match stage with
    | .first => .measuring false
    | .dispatch => .sending
    | .answered => .measuring true
    | .completion => .finishing (.ok ())

def measured (answered : Bool) (same : Bool) : Phase :=
  if same then .guarding (if answered then .completion else .dispatch)
  else .finishing (.error (.ioError (if answered then "block device geometry changed after request"
    else "block device geometry changed before request")))

def transported : Result Unit → Phase
  | .error status => .finishing (.error status)
  | .ok _ => .guarding .answered

def finish (id : ℕ) (request : Request) (result : Result Unit) : Result Unit × Service capacity :=
  let entry := service.entries request.slot
  let ended := { entry with report := { entry.report with inFlight := false } }
  let done := service.setRequest id none
  match result with
  | .error status => (.error status, done.put request.slot (quarantine ended status.code))
  | .ok _ =>
    if entry.report.state = .quarantined then
      (.error (.ioError "block session was aborted in flight"), done.put request.slot ended)
    else (.ok (), (done.put request.slot { ended with report := { ended.report with
      completed := Function.update ended.report.completed request.operation (ended.report.completed request.operation + 1)
      pendingWrites := ended.report.pendingWrites && request.operation ≠ .flush } }).tell
        (.completed request.session request.operation))

end Service

inductive Act
  | registerDevice (id device identity maximumTransfer : ℕ)
  | enroll (id : ℕ) (geometry : BlockGeometry)
  | acquire (key : Registration) (bounds : SessionBounds) (access : SessionAccess) (session : ℕ)
  | detach (key : Registration)
  | close (session : ℕ)
  | abandon (session : ℕ)
  | abort (session : ℕ) (reason : Option StatusCode)
  | io (id : ℕ) (operation : Operation) (session first size : ℕ)
  | guarded (id : ℕ) (answer : Result Unit)
  | measured (id : ℕ) (geometry : BlockGeometry)
  | send (id : ℕ)
  | answered (id : ℕ) (answer : Result Unit)
  | revoke (id : ℕ)
  | finish (id : ℕ)

/-- A step, if the act can be taken: calls at any time, and the steps of a call under way in their order. -/
def Act.step {capacity : ℕ} (service : Service capacity) : Act → Option (Result Unit × Service capacity)
  | registerDevice id device identity maximumTransfer =>
    if (service.enrolments id).isSome then none else some (service.registerDevice id device identity maximumTransfer)
  | enroll id geometry => (service.enrolments id).map fun enrolment => service.enroll id enrolment geometry
  | acquire key bounds access session => some (service.acquire key bounds access session)
  | detach key => some (service.detach key)
  | close session => some (service.close session)
  | abandon session => some (service.abandon session)
  | abort session reason => some (service.abort session reason)
  | io id operation session first size =>
    if (service.requests id).isSome then none else some (service.io id operation session first size)
  | guarded id answer =>
    (service.requests id).bind fun request => match request.phase with
    | .guarding stage => some (.ok (), service.setRequest id (some { request with phase := Service.guarded stage answer }))
    | _ => none
  | measured id geometry =>
    (service.requests id).bind fun request => match request.phase with
    | .measuring after => some (.ok (), service.setRequest id
        (some { request with phase := Service.measured after (geometry = request.expected) }))
    | _ => none
  | send id =>
    (service.requests id).bind fun request => match request.phase with
    | .sending => some (.ok (), (service.setRequest id (some { request with phase := .awaiting })).tell
        (.sent request.session request.operation))
    | _ => none
  | answered id answer =>
    (service.requests id).bind fun request => match request.phase with
    | .awaiting => some (.ok (), service.setRequest id (some { request with phase := Service.transported answer }))
    | _ => none
  | revoke id =>
    (service.requests id).bind fun request => match request.phase with
    | .revoking status => some (.ok (), ((service.abort request.session (some status.code)).2).setRequest id
        (some { request with phase := .finishing (.error status) }))
    | _ => none
  | finish id =>
    (service.requests id).bind fun request => match request.phase with
    | .finishing result => some (service.finish id request result)
    | _ => none

end ObfuscationKernel.Block
