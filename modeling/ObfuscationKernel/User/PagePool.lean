import ObfuscationKernel.Memory.FrameOwnership

/-! The native page pool: user pages, leased kernel pages and object runs drawn from a frame allocator. -/

namespace ObfuscationKernel.User

open ObfuscationKernel.Core Memory

inductive Source
  | inactive | linkerReserved | qualifiedFirmware
  deriving DecidableEq, Repr

/-- A leased kernel page; `pool` is the identity of the pool, none for a null pointer, and `bytes` the
address and the size of the page as its holder left them. -/
structure Lease where
  pool : Option ℕ := none
  frame : PhysicalFrame := {}
  bytes : ℕ × ℕ := (0, 0)
  deriving DecidableEq, Repr

/-- `frames` is the allocator of an active pool. -/
structure NativePagePool where
  identity : ℕ
  active : Bool := false
  frames : FrameAllocator
  runs : ChargeAccount := {}
  source : Source := .inactive
  kernelReserve : ℕ := 0
  userLimit : ℕ := 0
  userCount : ℕ := 0
  objectCount : ℕ := 0
  peak : ℕ := 0
  pinnedCount : ℕ := 0
  pendingCount : ℕ := 0
  quarantinedCount : ℕ := 0
  allocations : ℕ := 0
  releases : ℕ := 0

namespace NativePagePool

def pageSize : ℕ := 4096

def maxCount : ℕ := 65535

variable (p : NativePagePool)

def activate (frames : FrameAllocator) (source : Source) (kernelReservePages userLimitPages : ℕ) :
    Result Unit × NativePagePool :=
  if p.active then (.error (.alreadyExists "native page pool already active"), p)
  else if (source ≠ .linkerReserved ∧ source ≠ .qualifiedFirmware) ∨ frames.pageSize ≠ pageSize ∨
      frames.frameCount = 0 ∨ kernelReservePages > frames.frameCount ∨
      userLimitPages > frames.frameCount - kernelReservePages then
    (.error (.invalidArgument "native frame pool contract mismatch"), p)
  else
    (.ok (), { p with
      active := true, frames := frames, source := source
      kernelReserve := kernelReservePages, userLimit := userLimitPages })

def activateExclusive (frames : FrameAllocator) (source : Source) (kernelReservePages : ℕ) : Result Unit × NativePagePool :=
  if frames.usedCount ≠ 0 then (.error (.invalidArgument "native frame pool contract mismatch"), p)
  else p.activate frames source kernelReservePages (frames.frameCount - kernelReservePages)

def usedCount : ℕ := p.userCount + p.objectCount

def state (f : PhysicalFrame) (kind : PageKind) : Option PageDescriptor :=
  if p.active && f.owner == p.frames.identity then (p.frames.descriptor f).filter fun d => d.kind = kind else none

def live (f : PhysicalFrame) (kind : PageKind) : Bool := (p.state f kind).isSome

def describe (f : PhysicalFrame) (d : PageDescriptor) : NativePagePool :=
  { p with frames := p.frames.setDescriptor f.index d }

def findUser (address : ℕ) : Option PhysicalFrame :=
  if !p.active then none
  else
    match p.frames.indexOf address with
    | .error _ => none
    | .ok index =>
      match p.frames.handleAt index with
      | .error _ => none
      | .ok f => if p.live f .nativeUser then some f else none

def enter (f : PhysicalFrame) (d : PageDescriptor) (kind : PageKind) : NativePagePool :=
  let user := kind = .nativeUser
  let p := p.describe f { d with kind := kind, references := if user then 1 else d.references }
  let p := { p with
    userCount := if user then p.userCount + 1 else p.userCount
    objectCount := if user then p.objectCount else p.objectCount + 1
    allocations := (p.allocations + 1) % u64 }
  { p with peak := max p.peak p.usedCount }

def acquire (kind : PageKind) : Result PhysicalFrame × NativePagePool :=
  if !p.active then (.error (.notInitialized "native page pool inactive"), p)
  else if (kind = .nativeUser ∧ p.userCount ≥ p.userLimit) ∨ (kind ≠ .nativeUser ∧ p.objectCount ≥ p.kernelReserve) then
    (.error (.noMemory "native page purpose quota exhausted"), p)
  else
    match p.frames.allocate with
    | (.error status, frames) => (.error status, { p with frames := frames })
    | (.ok f, frames) =>
      match (frames.descriptor f).filter fun d => d.kind = .unowned with
      | none => (.error (.fault "native frame registry collision"), { p with frames := (frames.release f).2 })
      | some d => (.ok f, { p with frames := frames }.enter f d kind)

def leave (d : PageDescriptor) : NativePagePool :=
  { p with
    userCount := if d.kind = .nativeUser then p.userCount - 1 else p.userCount
    objectCount := if d.kind = .nativeUser then p.objectCount else p.objectCount - 1
    quarantinedCount := if d.quarantined then p.quarantinedCount - 1 else p.quarantinedCount
    pendingCount := if d.pending then p.pendingCount - 1 else p.pendingCount
    pinnedCount := if d.pins ≠ 0 then p.pinnedCount - 1 else p.pinnedCount
    releases := (p.releases + 1) % u64 }

def releaseFrame (f : PhysicalFrame) : Result Unit × NativePagePool :=
  let d := (p.frames.descriptor f).getD {}
  match p.frames.release f with
  | (.error status, frames) => (.error status, { p with frames := frames })
  | (.ok (), frames) => (.ok (), { p with frames := frames }.leave d)

def allocateFrame : Result PhysicalFrame × NativePagePool := p.acquire .nativeUser

def allocate : Result ℕ × NativePagePool :=
  match p.acquire .nativeUser with
  | (.error status, p) => (.error status, p)
  | (.ok f, p) => (.ok f.address, p)

def allocateKernelPage : Result Lease × NativePagePool :=
  match p.acquire .nativeObject with
  | (.error status, p) => (.error status, p)
  | (.ok f, p) =>
    if f.address = 0 ∨ f.address % pageSize ≠ 0 ∨ f.address > addressLimit - (pageSize - 1) then
      match p.releaseFrame f with
      | (.error status, p) => (.error status, p)
      | (.ok (), p) => (.error (.fault "kernel page backing address is not a complete aligned page"), p)
    else (.ok ⟨some p.identity, f, (f.address, pageSize)⟩, p)

def releaseKernelPage (lease : Lease) : Result Unit × NativePagePool × Lease :=
  if lease.pool ≠ some p.identity ∨ !p.live lease.frame .nativeObject ∨ lease.bytes ≠ (lease.frame.address, pageSize) then
    (.error (.invalidArgument "kernel page lease is foreign, modified or stale"), p, lease)
  else
    match p.releaseFrame lease.frame with
    | (.error status, p) => (.error status, p, lease)
    | (.ok (), p) => (.ok (), p, {})

def quarantine (f : PhysicalFrame) (d : PageDescriptor) : NativePagePool :=
  { p.describe f { d with quarantined := true } with
    quarantinedCount := if d.quarantined then p.quarantinedCount else p.quarantinedCount + 1 }

def quarantineKernelPage (lease : Lease) : Result Unit × NativePagePool × Lease :=
  match if lease.pool = some p.identity then p.state lease.frame .nativeObject else none with
  | none => (.error (.invalidArgument "kernel page lease cannot be quarantined"), p, lease)
  | some d => (.ok (), p.quarantine lease.frame d, {})

def claimRun (first pages : ℕ) : NativePagePool :=
  (List.range pages).foldl (fun p i =>
    p.describe (p.frames.handle (first + i)) { p.frames.descriptors (first + i) with kind := .nativeObject }) p

/-- The pages are also filled with zeros, which the pool does not keep track of. -/
def allocateObjectRun (pages : ℕ) (alignment : ℕ := pageSize) : Result ℕ × NativePagePool :=
  if !p.active then (.error (.notInitialized "native page pool inactive"), p)
  else if pages = 0 ∨ pages > p.kernelReserve - p.objectCount then
    (.error (if pages ≠ 0 then .noMemory "native page purpose quota exhausted"
      else .invalidArgument "empty kernel-object run"), p)
  else
    match if pages = 1 ∧ alignment ≤ pageSize then p.frames.allocateCharged p.runs
      else p.frames.allocateContiguous pages p.runs alignment with
    | (.error status, frames, runs) => (.error status, { p with frames := frames, runs := runs })
    | (.ok first, frames, runs) =>
      if (List.range pages).any fun i =>
          ((frames.descriptor (frames.handle (first.index + i))).filter fun d => d.kind = .unowned).isNone then
        let (_, frames, runs) := frames.releaseContiguous first pages runs
        (.error (.fault "native frame registry collision"), { p with frames := frames, runs := runs })
      else
        let p := { p with frames := frames, runs := runs }.claimRun first.index pages
        let p := { p with objectCount := p.objectCount + pages, allocations := (p.allocations + pages) % u64 }
        (.ok first.address, { p with peak := max p.peak p.usedCount })

def releaseObjectRun (address pages : ℕ) : Result Unit × NativePagePool :=
  match if p.active then p.frames.indexOf address else .error (.notInitialized "native page pool inactive") with
  | .error status => (.error status, p)
  | .ok index =>
    match p.frames.handleAt index with
    | .error _ => (.error (.invalidArgument "kernel-object run is foreign or stale"), p)
    | .ok first =>
      if first.address ≠ address ∨ pages = 0 then
        (.error (.invalidArgument "kernel-object run is foreign or stale"), p)
      else if (List.range pages).any fun i =>
          match p.frames.handleAt (index + i) with
          | .error _ => true
          | .ok f => ((p.state f .nativeObject).filter fun d => !d.quarantined).isNone || f.address != address + i * pageSize then
        (.error (.invalidArgument "kernel-object run is foreign, stale or not wholly owned"), p)
      else
        match p.frames.releaseContiguous first pages p.runs with
        | (.error status, frames, runs) => (.error status, { p with frames := frames, runs := runs })
        | (.ok (), frames, runs) =>
          (.ok (), { p with
            frames := frames, runs := runs
            objectCount := p.objectCount - pages, releases := (p.releases + pages) % u64 })

def quarantineAt (result : Result Unit × NativePagePool) (index : ℕ) : Result Unit × NativePagePool :=
  match result.2.frames.handleAt index with
  | .error _ => (result.1.bind fun _ => .error (.invalidArgument "kernel-object run frame is foreign or free"), result.2)
  | .ok f =>
    match result.2.state f .nativeObject with
    | none => (result.1.bind fun _ => .error (.invalidArgument "kernel-object run frame is foreign or free"), result.2)
    | some d => (result.1, result.2.quarantine f d)

def quarantineObjectRun (address pages : ℕ) : Result Unit × NativePagePool :=
  match if p.active then p.frames.indexOf address else .error (.notInitialized "native page pool inactive") with
  | .error status => (.error status, p)
  | .ok index => (List.range pages).foldl (fun result i => quarantineAt result ((index + i) % u64)) (.ok (), p)

def valid (f : PhysicalFrame) : Bool := p.live f .nativeUser

def pinCount (f : PhysicalFrame) : Result ℕ :=
  match p.state f .nativeUser with
  | none => .error (.invalidArgument "native frame pin query is foreign or stale")
  | some d => .ok d.pins

def referenceCount (address : ℕ) : ℕ :=
  match p.findUser address with
  | none => 0
  | some f => ((p.state f .nativeUser).getD {}).references

def isShared (address : ℕ) : Bool :=
  match p.findUser address with
  | none => false
  | some f => ((p.state f .nativeUser).getD {}).shared

def markShared (f : PhysicalFrame) : Result Unit × NativePagePool :=
  match (p.state f .nativeUser).filter fun d => d.references = 1 && !d.pending with
  | none => (.error (.invalidArgument "shared frame classification requires one live owner"), p)
  | some d => (.ok (), p.describe f { d with shared := true })

def retainShared (f : PhysicalFrame) : Result Unit × NativePagePool :=
  match (p.state f .nativeUser).filter fun d => d.shared && d.references != 0 && !d.pending with
  | none => (.error (.invalidArgument "shared frame is foreign, stale or pending release"), p)
  | some d =>
    if d.references = maxCount then (.error (.overflow "shared frame reference count exhausted"), p)
    else (.ok (), p.describe f { d with references := d.references + 1 })

def retainCopy (f : PhysicalFrame) : Result Unit × NativePagePool :=
  match (p.state f .nativeUser).filter fun d => !d.shared && !d.pending && d.references != 0 with
  | none => (.error (.invalidArgument "copy-on-write frame is foreign, shared, stale or pending release"), p)
  | some d =>
    if d.references = maxCount then (.error (.overflow "copy-on-write frame reference count exhausted"), p)
    else (.ok (), p.describe f { d with references := d.references + 1 })

def releaseReference (f : PhysicalFrame) : Result Unit × NativePagePool :=
  match (p.state f .nativeUser).filter fun d => d.references != 0 with
  | none => (.error (.invalidArgument "native user frame reference is foreign or stale"), p)
  | some d =>
    if d.references > 1 then (.ok (), p.describe f { d with references := d.references - 1 })
    else if d.pins ≠ 0 then
      (.ok (), { p.describe f { d with references := 0, pending := true } with pendingCount := p.pendingCount + 1 })
    else p.releaseFrame f

def release (address : ℕ) : Result Unit × NativePagePool :=
  match p.findUser address with
  | none => (.error (.notFound "native user frame has no retained owner"), p)
  | some f => p.releaseReference f

def pin (f : PhysicalFrame) : Result Unit × NativePagePool :=
  match (p.state f .nativeUser).filter fun d => d.pins != maxCount && d.references != 0 && !d.pending with
  | none => (.error (.fault "invalid native frame quarantine pin"), p)
  | some d =>
    (.ok (), { p.describe f { d with pins := d.pins + 1 } with
      pinnedCount := if d.pins = 0 then p.pinnedCount + 1 else p.pinnedCount })

def pinAddress (address : ℕ) : Result Unit × NativePagePool :=
  match p.findUser address with
  | none => (.error (.fault "invalid native frame quarantine pin"), p)
  | some f => p.pin f

def unpin (f : PhysicalFrame) : Result Unit × NativePagePool :=
  match (p.state f .nativeUser).filter fun d => d.pins != 0 with
  | none => (.error (.fault "invalid native frame quarantine release"), p)
  | some d =>
    if d.pins = 1 ∧ d.pending = true ∧ d.references = 0 then p.releaseFrame f
    else
      (.ok (), { p.describe f { d with pins := d.pins - 1 } with
        pinnedCount := if d.pins = 1 then p.pinnedCount - 1 else p.pinnedCount })

def unpinAddress (address : ℕ) : Result Unit × NativePagePool :=
  match p.findUser address with
  | none => (.error (.fault "invalid native frame quarantine release"), p)
  | some f => p.unpin f

end NativePagePool

end ObfuscationKernel.User
