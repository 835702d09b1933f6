import ObfuscationKernel.Memory.Sweep
import Mathlib.Data.List.DropRight

/-! The physical memory map: regions in any order, and the usable pages that are left of them. -/

namespace ObfuscationKernel.Memory

open ObfuscationKernel.Core

def maxDiscoveredRegions : ℕ := 64

def wrap (n : ℕ) : ℕ := n % (addressLimit + 1)

def alignDown (value alignment : ℕ) : ℕ := value - value % alignment

def alignUpChecked (value alignment : ℕ) : Option ℕ :=
  if value > addressLimit - (alignment - 1) then none else some (alignDown (value + (alignment - 1)) alignment)

namespace MemoryRegion

def last (r : MemoryRegion) : ℕ := r.base + (r.size - 1)

def wrappedEnd (r : MemoryRegion) : ℕ := wrap (r.base + r.size)

def candidate (pageSize : ℕ) (r : MemoryRegion) : Option MemoryRegion :=
  if r.type ≠ .usable then none
  else
    match alignUpChecked r.base pageSize with
    | none => none
    | some start =>
      let endAligned := alignDown r.last pageSize
      if endAligned < start then none else some ⟨start, wrap (endAligned - start + pageSize), .usable⟩

def withheld (pageSize : ℕ) (r : MemoryRegion) : ℕ × ℕ × Bool :=
  match alignUpChecked r.last pageSize with
  | none => (alignDown r.base pageSize, 0, true)
  | some stop => (alignDown r.base pageSize, stop, stop == 0)

end MemoryRegion

section Carve

variable (start stop : ℕ) (toTop : Bool)

def touches (w : MemoryRegion) : Bool :=
  !((w.wrappedEnd != 0 && decide (w.wrappedEnd ≤ start)) || (!toTop && decide (stop ≤ w.base)))

def pieces (w : MemoryRegion) : List MemoryRegion :=
  (if start > w.base then [⟨w.base, start - w.base, .usable⟩] else []) ++
    if !toTop && (w.wrappedEnd == 0 || decide (stop < w.wrappedEnd)) then
      [⟨stop, if w.wrappedEnd = 0 then wrap (addressLimit + 1 - stop) else w.wrappedEnd - stop, .usable⟩]
    else []

def pushRegion (message : String) (work : List MemoryRegion) (w : MemoryRegion) : Result (List MemoryRegion) :=
  if work.length = maxDiscoveredRegions then .error (.overflow message) else .ok (work ++ [w])

/-- Takes the reservation out of the first region that it touches and starts again; `fuel` bounds the regions touched. -/
def carve : ℕ → List MemoryRegion → Result (List MemoryRegion)
  | 0, work => .ok work
  | fuel + 1, work =>
    match work.find? (touches start stop toTop) with
    | none => .ok work
    | some w =>
      match (pieces start stop toTop w).foldlM (pushRegion "too many usable fragments after reservation")
          (work.eraseP (touches start stop toTop)) with
      | .error status => .error status
      | .ok work => carve fuel work

end Carve

def insertRegion (sorted : List MemoryRegion) (key : MemoryRegion) : List MemoryRegion :=
  sorted.rdropWhile (fun w => decide (w.base > key.base)) ++ key :: sorted.rtakeWhile fun w => decide (w.base > key.base)

def mergeRegion (usable : List MemoryRegion) (w : MemoryRegion) : List MemoryRegion :=
  match usable.getLast? with
  | none => [w]
  | some prev =>
    if prev.wrappedEnd ≠ 0 ∧ w.base ≤ prev.wrappedEnd then
      if w.wrappedEnd = 0 ∨ w.wrappedEnd > prev.wrappedEnd then
        usable.dropLast ++ [{ prev with
          size := if w.wrappedEnd = 0 then wrap (addressLimit + 1 - prev.base) else w.wrappedEnd - prev.base }]
      else usable
    else usable ++ [w]

structure PhysicalMemoryMap where
  inputs : List MemoryRegion := []
  usable : List MemoryRegion := []
  normalized : Bool := false
  deriving Repr

namespace PhysicalMemoryMap

variable (m : PhysicalMemoryMap)

def add (region : MemoryRegion) : Result Unit × PhysicalMemoryMap :=
  if region.size = 0 then (.ok (), m)
  else if region.base > addressLimit - (region.size - 1) then
    (.error (.invalidArgument "memory region exceeds the address space"), m)
  else if m.inputs.length = maxDiscoveredRegions then
    (.error (.overflow "physical memory map input capacity exhausted"), m)
  else (.ok (), { m with inputs := m.inputs ++ [region], normalized := false })

def reserve (base size : ℕ) (type : RegionType := .reserved) : Result Unit × PhysicalMemoryMap :=
  if type = .usable then (.error (.invalidArgument "reserve requires a non-usable region type"), m)
  else m.add ⟨base, size, type⟩

def candidates (pageSize : ℕ) : Result (List MemoryRegion) :=
  (m.inputs.filterMap (MemoryRegion.candidate pageSize)).foldlM (pushRegion "too many usable regions") []

def remainder (pageSize : ℕ) (work : List MemoryRegion) : Result (List MemoryRegion) :=
  (m.inputs.filter fun r => r.type != .usable).foldlM (fun work r =>
    let (start, stop, toTop) := r.withheld pageSize
    carve start stop toTop (work.length + 1) work) work

def normalize (pageSize : ℕ) : Result Unit × PhysicalMemoryMap :=
  if !isPowerOfTwo pageSize then (.error (.invalidArgument "page size must be a power of two"), m)
  else
    match m.candidates pageSize with
    | .error status => (.error status, m)
    | .ok work =>
      match m.remainder pageSize work with
      | .error status => (.error status, m)
      | .ok work =>
        (.ok (), { m with
          usable := (work.foldl insertRegion []).foldl mergeRegion []
          normalized := true })

end PhysicalMemoryMap

end ObfuscationKernel.Memory
