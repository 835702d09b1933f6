import ObfuscationKernel.Library.Bisect
import ObfuscationKernel.Memory.Sweep

/-! Physical frames: the allocator with its bitmap, its page descriptors and the charges of its callers. -/

namespace ObfuscationKernel.Memory

open ObfuscationKernel.Core Library

structure ChargeAccount where
  limit : ℕ := 0
  used : ℕ := 0
  peak : ℕ := 0
  deriving DecidableEq, Repr

namespace ChargeAccount

def charge (c : ChargeAccount) (units : ℕ) : Result Unit × ChargeAccount :=
  if units > addressLimit - c.used then (.error (.overflow "charge counter overflow"), c)
  else if c.limit ≠ 0 ∧ c.used + units > c.limit then (.error (.noMemory "charge account quota exhausted"), c)
  else (.ok (), { c with used := c.used + units, peak := max c.peak (c.used + units) })

def uncharge (c : ChargeAccount) (units : ℕ) : ChargeAccount :=
  if units > c.used then c else { c with used := c.used - units }

end ChargeAccount

structure PhysicalFrame where
  address : ℕ := 0
  index : ℕ := 0
  owner : ℕ := 0
  generation : ℕ := 0
  deriving DecidableEq, Repr

inductive PageKind
  | unowned | nativeUser | nativeObject | kernelSlab | kernelLarge | pageCache
  deriving DecidableEq, Repr

/-- Allocator metadata of one frame. The flags of the native page pool are kept as three Booleans. -/
structure PageDescriptor where
  generation : ℕ := 0
  references : ℕ := 0
  pins : ℕ := 0
  kind : PageKind := .unowned
  quarantined : Bool := false
  pending : Bool := false
  shared : Bool := false
  deriving DecidableEq, Repr

structure FrameRange where
  base : ℕ
  firstIndex : ℕ
  count : ℕ
  deriving DecidableEq, Repr

def metadataBytesFor (frames ranges : ℕ) : ℕ := (frames + 63) / 64 * 8 + frames * 16 + ranges * 24 + 7

def u64 : ℕ := 2 ^ 64

/-- `bitmap` has `words` words; bits and descriptors past the last frame are never looked up. -/
structure FrameAllocator where
  identity : ℕ
  pageSize : ℕ := 4096
  frameCount : ℕ := 0
  usedCount : ℕ := 0
  nextFreeHint : ℕ := 0
  nextGeneration : ℕ := 1
  words : ℕ := 0
  bitmap : ℕ → BitVec 64 := fun _ => 0
  descriptors : ℕ → PageDescriptor := fun _ => {}
  ranges : List FrameRange := []

def lowestClearBit (bits : BitVec 64) : ℕ :=
  ([32, 16, 8, 4, 2, 1].foldl (fun (state : BitVec 64 × ℕ) width =>
    if state.1 &&& ((1#64 <<< width) - 1) = 0 then (state.1 >>> width, state.2 + width) else state) (~~~bits, 0)).2

def rangesOf : List Run → ℕ → List FrameRange
  | [], _ => []
  | run :: runs, index => ⟨run.base, index, run.count⟩ :: rangesOf runs (index + run.count)

namespace FrameAllocator

def fresh (identity : ℕ) : FrameAllocator := { identity := identity }

variable (a : FrameAllocator)

def reset (pageSize frames : ℕ) (runs : List Run) : FrameAllocator :=
  { a with
    pageSize := pageSize
    frameCount := frames
    nextFreeHint := 0
    words := (frames + 63) / 64
    bitmap := fun w => if frames % 64 ≠ 0 ∧ w = (frames + 63) / 64 - 1 then ~~~(0#64) <<< (frames % 64) else 0
    descriptors := fun _ => {}
    ranges := rangesOf runs 0 }

/-- `metadata` is the size of the storage, none for a null pointer. -/
def initializeFrames (regions : List MemoryRegion) (pageSize : ℕ) (metadata : Option ℕ) : Result Unit × FrameAllocator :=
  if a.usedCount ≠ 0 then (.error (.busy "physical frames are still owned"), a)
  else
    match countUsable regions pageSize, sweepUsable regions pageSize with
    | .error status, _ => (.error status, a)
    | _, .error status => (.error status, a)
    | .ok (frames, ranges), .ok runs =>
      if !metadata.any fun size => decide (metadataBytesFor frames ranges ≤ size) then
        (.error (.noMemory "frame allocator metadata storage is too small"), a)
      else
        (.ok (), a.reset pageSize frames runs)

def used (index : ℕ) : Bool := (a.bitmap (index / 64)).getLsbD (index % 64)

def mark (index : ℕ) (value : Bool) : FrameAllocator :=
  let mask := 1#64 <<< (index % 64)
  let word := a.bitmap (index / 64)
  { a with bitmap := Function.update a.bitmap (index / 64) (if value then word ||| mask else word &&& ~~~mask) }

def rangeAt (k : ℕ) : FrameRange := a.ranges.getD k ⟨0, 0, 0⟩

def addressFor (index : ℕ) : ℕ :=
  match bisect (fun k =>
      if index < (a.rangeAt k).firstIndex then .lt
      else if index - (a.rangeAt k).firstIndex ≥ (a.rangeAt k).count then .gt
      else .eq) a.ranges.length with
  | some k => (a.rangeAt k).base + (index - (a.rangeAt k).firstIndex) * a.pageSize
  | none => 0

def indexOf (address : ℕ) : Result ℕ :=
  if a.frameCount = 0 then .error (.notInitialized "physical frame allocator is not initialized")
  else
    match bisect (fun k =>
        if address < (a.rangeAt k).base then .lt
        else if (address - (a.rangeAt k).base) / a.pageSize ≥ (a.rangeAt k).count then .gt
        else .eq) a.ranges.length with
    | some k =>
      if (address - (a.rangeAt k).base) % a.pageSize ≠ 0 then .error (.invalidArgument "frame address is not page aligned")
      else .ok ((a.rangeAt k).firstIndex + (address - (a.rangeAt k).base) / a.pageSize)
    | none => .error (.notFound "address is not a managed physical frame")

def exact (f : PhysicalFrame) : Bool :=
  f.owner == a.identity && decide (f.index < a.frameCount) && f.generation != 0 &&
    (a.descriptors f.index).generation == f.generation && a.addressFor f.index == f.address

def descriptor (f : PhysicalFrame) : Option PageDescriptor :=
  if a.exact f then some (a.descriptors f.index) else none

def live (f : PhysicalFrame) : Bool := (a.descriptor f).isSome

def handle (index : ℕ) : PhysicalFrame :=
  ⟨a.addressFor index, index, a.identity, (a.descriptors index).generation⟩

def handleAt (index : ℕ) : Result PhysicalFrame :=
  if index ≥ a.frameCount ∨ (a.descriptors index).generation = 0 then
    .error (.notFound "physical frame is not allocated")
  else .ok (a.handle index)

def setDescriptor (index : ℕ) (d : PageDescriptor) : FrameAllocator :=
  { a with descriptors := Function.update a.descriptors index d }

def take (index : ℕ) : FrameAllocator :=
  { (a.mark index true).setDescriptor index { generation := a.nextGeneration } with
    usedCount := a.usedCount + 1
    nextGeneration := (a.nextGeneration + 1) % u64 }

def freeWord : Option ℕ :=
  ((List.range (a.words + 1)).map fun scanned => (a.nextFreeHint / 64 + scanned) % a.words).find? fun word =>
    a.bitmap word != ~~~0#64

def allocate : Result PhysicalFrame × FrameAllocator :=
  if a.frameCount = 0 then (.error (.notInitialized "physical frame allocator is not initialized"), a)
  else if a.usedCount ≥ a.frameCount then (.error (.noMemory "physical frame allocator exhausted"), a)
  else if a.nextGeneration = 0 then (.error (.overflow "physical frame ownership sequence exhausted"), a)
  else
    match a.freeWord with
    | none => (.error (.noMemory "physical frame allocator exhausted"), a)
    | some word =>
      let index := word * 64 + lowestClearBit (a.bitmap word)
      let a := a.take index
      (.ok (a.handle index), { a with nextFreeHint := if index + 1 < a.frameCount then index + 1 else 0 })

def allocateCharged (account : ChargeAccount) : Result PhysicalFrame × FrameAllocator × ChargeAccount :=
  if a.frameCount = 0 then (.error (.notInitialized "physical frame allocator is not initialized"), a, account)
  else
    match account.charge 1 with
    | (.error status, account) => (.error status, a, account)
    | (.ok (), account) =>
      match a.allocate with
      | (.error status, a) => (.error status, a, account.uncharge 1)
      | (.ok f, a) => (.ok f, a, account)

def scanRange (count alignment : ℕ) (range : FrameRange) : ℕ → ℕ → Option ℕ
  | 0, _ => none
  | left + 1, run =>
    let offset := range.count - (left + 1)
    let run := if a.used (range.firstIndex + offset) then 0 else run + 1
    let first := range.firstIndex + offset + 1 - count
    if run < count ∨ (alignment ≠ 0 ∧ a.addressFor first % alignment ≠ 0) then scanRange count alignment range left run
    else some first

def allocateContiguous (count : ℕ) (account : ChargeAccount) (alignment : ℕ := 0) :
    Result PhysicalFrame × FrameAllocator × ChargeAccount :=
  if a.frameCount = 0 then (.error (.notInitialized "physical frame allocator is not initialized"), a, account)
  else if count = 0 then (.error (.invalidArgument "contiguous frame request is empty"), a, account)
  else if alignment &&& (alignment - 1) ≠ 0 then
    (.error (.invalidArgument "contiguous frame alignment is not a power of two"), a, account)
  else if count > a.frameCount - a.usedCount then (.error (.noMemory "physical frame allocator exhausted"), a, account)
  else if count > (u64 - 1) - a.nextGeneration then
    (.error (.overflow "physical frame ownership sequence exhausted"), a, account)
  else
    match a.ranges.findSome? fun range => a.scanRange count alignment range range.count 0 with
    | none => (.error (.noMemory "no physically contiguous frame run"), a, account)
    | some first =>
      match account.charge count with
      | (.error status, account) => (.error status, a, account)
      | (.ok (), account) =>
        let a := (List.range count).foldl (fun a i => a.take (first + i)) a
        (a.handleAt first, a, account)

def drop (index : ℕ) : FrameAllocator := (a.mark index false).setDescriptor index {}

def releaseContiguous (first : PhysicalFrame) (count : ℕ) (account : ChargeAccount) :
    Result Unit × FrameAllocator × ChargeAccount :=
  if count = 0 ∨ !a.exact first ∨ count > a.frameCount - first.index then
    (.error (.invalidArgument "contiguous frame run handle is invalid or stale"), a, account)
  else if (List.range count).any fun i => i != 0 &&
      (!a.used (first.index + i) || a.addressFor (first.index + i) != first.address + i * a.pageSize) then
    (.error (.invalidArgument "contiguous frame run is not wholly owned"), a, account)
  else if account.used < count then
    (.error (.invalidArgument "contiguous frame release has no matching charge"), a, account)
  else
    let freed := (List.range count).foldl (fun a i => a.drop (first.index + i)) a
    (.ok (), { freed with
      usedCount := a.usedCount - count
      nextFreeHint := if first.index < a.nextFreeHint then first.index else a.nextFreeHint }, account.uncharge count)

def release (f : PhysicalFrame) : Result Unit × FrameAllocator :=
  if !a.exact f ∨ !a.used f.index then
    (.error (.invalidArgument "physical frame ownership handle is invalid or stale"), a)
  else
    (.ok (), { a.drop f.index with
      usedCount := a.usedCount - 1
      nextFreeHint := if f.index < a.nextFreeHint then f.index else a.nextFreeHint })

def releaseCharged (f : PhysicalFrame) (account : ChargeAccount) : Result Unit × FrameAllocator × ChargeAccount :=
  if !a.exact f ∨ !a.used f.index then
    (.error (.invalidArgument "physical frame ownership handle is invalid or stale"), a, account)
  else if account.used = 0 then
    (.error (.invalidArgument "physical frame release has no matching charge"), a, account)
  else
    match a.release f with
    | (.error status, a) => (.error status, a, account)
    | (.ok (), a) => (.ok (), a, account.uncharge 1)

end FrameAllocator

end ObfuscationKernel.Memory
