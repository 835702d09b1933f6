import ObfuscationKernel.Memory.Discovery
import ObfuscationKernel.Memory.PhysicalMap

/-! The memory manager takes the storage of the frame allocator from the memory that it is to manage. -/

namespace ObfuscationKernel.Memory

open ObfuscationKernel.Core List

structure MemoryManager where
  frames : FrameAllocator
  metadataRegion : MemoryRegion := ⟨0, 0, .reserved⟩

namespace MemoryManager

def direct (offset : ℕ) (r : MemoryRegion) : MemoryRegion := ⟨r.base + offset, r.size, .usable⟩

def directRegion (offset : ℕ) (r : MemoryRegion) : Result MemoryRegion :=
  if r.base > addressLimit - offset ∨ r.size > addressLimit - (r.base + offset) then
    .error (.overflow "direct-map address of usable RAM wraps")
  else .ok (direct offset r)

def metadataBytes (regions : List MemoryRegion) (pageSize : ℕ) : Result ℕ := do
  let (frames, ranges) ← countUsable regions pageSize
  return metadataBytesFor frames ranges

section

variable (m : MemoryManager) (map : PhysicalMemoryMap) (pageSize offset : ℕ)

def plan : Result (List MemoryRegion × MemoryRegion) :=
  if !map.normalized then .error (.notInitialized "physical memory map is not normalized")
  else if !isPowerOfTwo pageSize then .error (.invalidArgument "page size must be a power of two")
  else do
    let regions ← map.usable.mapM (directRegion offset)
    let required ← metadataBytes regions pageSize
    let carve := alignDown (wrap (required + pageSize - 1)) pageSize
    -- the source goes from the last region down
    match regions.reverse.find? fun r => decide (carve < r.size) with
    | some r => .ok (regions, ⟨r.base + r.size - carve, carve, .reserved⟩)
    | none => .error (.noMemory "no usable range can hold the frame allocator metadata")

def initializeMap : Result Unit × MemoryManager :=
  match plan map pageSize offset with
  | .error status => (.error status, m)
  | .ok (regions, metadata) =>
    match m.frames.initializeFrames (regions ++ [metadata]) pageSize (some metadata.size) with
    | (.error status, frames) => (.error status, { m with frames := frames })
    | (.ok (), frames) => (.ok (), ⟨frames, metadata⟩)

/-- The bytes that the map reports usable, at their addresses in the direct map. -/
def Reported (b : ℕ) : Prop := ∃ r ∈ map.usable, r.base + offset ≤ b ∧ b < r.base + offset + r.size

end

variable {m : MemoryManager} {map : PhysicalMemoryMap} {pageSize offset : ℕ} {regions : List MemoryRegion} {metadata : MemoryRegion}

lemma mapM_directRegion {l : List MemoryRegion} (h : l.mapM (directRegion offset) = .ok regions) :
    regions = l.map (direct offset) := by
  induction l generalizing regions with
  | nil =>
    cases h
    rfl
  | cons r l ih =>
  rw [mapM_cons, directRegion] at h
  split_ifs at h
  · cases h
  cases hl : l.mapM (directRegion offset) with
  | error status =>
    rw [hl] at h
    cases h
  | ok rest =>
  rw [hl] at h
  cases h
  rw [map_cons, ih hl]

lemma plan_ok (h : plan map pageSize offset = .ok (regions, metadata)) :
    regions = map.usable.map (direct offset) ∧ metadata.type = .reserved ∧
      ∀ b, metadata.base ≤ b → b < metadata.base + metadata.size → Reported map offset b := by
  unfold plan at h
  split_ifs at h
  cases hr : map.usable.mapM (directRegion offset) with
  | error status =>
    rw [hr] at h
    cases h
  | ok found =>
  have hf := mapM_directRegion hr
  cases hq : metadataBytes found pageSize with
  | error status =>
    simp only [hr, hq, bind, Except.bind] at h
    cases h
  | ok required =>
  simp only [hr, hq, bind, Except.bind] at h
  split at h
  · next r hfind =>
    cases h
    have hsize := find?_some hfind
    rw [decide_eq_true_eq] at hsize
    have hmem := mem_of_find?_eq_some hfind
    rw [mem_reverse, hf, mem_map] at hmem
    obtain ⟨x, hx, rfl⟩ := hmem
    refine ⟨hf, rfl, fun b h1 h2 => ⟨x, hx, ?_⟩⟩
    dsimp only [direct] at hsize h1 h2
    omega
  · cases h

lemma free_iff {b : ℕ} (hm : metadata.type = .reserved) : Free (map.usable.map (direct offset) ++ [metadata]) b ↔
      Reported map offset b ∧ ¬ metadata.covers b := by
  constructor
  · rintro ⟨⟨r, hr, hc, ht⟩, hall⟩
    refine ⟨?_, fun hx => ?_⟩
    · rcases mem_append.mp hr with hr | hr
      · obtain ⟨x, hx, rfl⟩ := mem_map.mp hr
        exact ⟨x, hx, (covers_iff.mp hc).2⟩
      · rw [mem_singleton.mp hr, hm] at ht
        cases ht
    have ht := hall metadata (by simp) hx
    rw [hm] at ht
    cases ht
  rintro ⟨⟨x, hx, hb⟩, hout⟩
  refine ⟨⟨_, mem_append_left _ (mem_map_of_mem hx), covers_iff.mpr ⟨?_, hb⟩, rfl⟩, fun s hs hc => ?_⟩
  · dsimp only [direct]
    omega
  rcases mem_append.mp hs with hs | hs
  · obtain ⟨y, -, rfl⟩ := mem_map.mp hs
    rfl
  · exact absurd (mem_singleton.mp hs ▸ hc) hout

lemma eligible_iff {p : ℕ} (hm : metadata.type = .reserved) (hs : 0 < metadata.size) (hp : 0 < pageSize) :
    Eligible (map.usable.map (direct offset) ++ [metadata]) pageSize p ↔
      pageSize ∣ p ∧ (∀ b, p ≤ b → b < p + pageSize → Reported map offset b) ∧
        (p + pageSize ≤ metadata.base ∨ metadata.base + metadata.size ≤ p) := by
  simp only [Eligible, free_iff hm, covers_iff]
  refine and_congr_right fun _ => ⟨fun h => ⟨fun b h1 h2 => (h b h1 h2).1, ?_⟩, fun h b h1 h2 => ⟨h.1 b h1 h2, by omega⟩⟩
  by_contra hc
  exact (h (max p metadata.base) (le_max_left ..) (by omega)).2 ⟨hs.ne', by omega, by omega⟩

/-- The metadata has room for the tables of the allocator that it describes and lies in memory that the map reports
usable. The pages under management are the whole usable ones outside of it, and there is one. -/
theorem metadata_unmanaged (m : MemoryManager) (map : PhysicalMemoryMap) (pageSize offset : ℕ)
    (h : (m.initializeMap map pageSize offset).1 = .ok ()) :
    let frames := (m.initializeMap map pageSize offset).2.frames
    let metadata := (m.initializeMap map pageSize offset).2.metadataRegion
    metadataBytesFor frames.frameCount frames.ranges.length ≤ metadata.size ∧
      (∀ b, metadata.base ≤ b → b < metadata.base + metadata.size → Reported map offset b) ∧
      (∀ p, frames.Manages p ↔ pageSize ∣ p ∧ (∀ b, p ≤ b → b < p + pageSize → Reported map offset b) ∧
        (p + pageSize ≤ metadata.base ∨ metadata.base + metadata.size ≤ p)) ∧
      0 < frames.frameCount ∧ ∃ p, frames.Manages p := by
  unfold initializeMap at h ⊢
  cases hplan : plan map pageSize offset with
  | error status =>
    rw [hplan] at h
    cases h
  | ok found =>
  obtain ⟨regions, metadata⟩ := found
  obtain ⟨rfl, hm, hin⟩ := plan_ok hplan
  rw [hplan] at h
  dsimp only at h ⊢
  rcases hi : m.frames.initializeFrames _ pageSize (some metadata.size) with ⟨_ | _, frames⟩
  · rw [hi] at h
    cases h
  have hok := congrArg Prod.fst hi
  obtain ⟨-, count, runs, ⟨hpos, size, hsize, hroom⟩, hs, hf, hb⟩ := FrameAllocator.initializeFrames_ok hok
  rw [hi] at hb
  obtain rfl := hb
  obtain ⟨hp, hr⟩ := sweepUsable_runs hs
  have hl : (m.frames.reset pageSize count runs).Layout runs := ⟨rfl, hf, hp, hr⟩
  have hmanages := fun p => (hl.manages_iff p).trans ((sweepUsable_pages hs).1 p)
  cases hsize
  refine ⟨?_, hin, fun p => (hmanages p).trans (eligible_iff hm ?_ hp), hpos, _, (hl.indexOf_addressFor hpos).2⟩
  · rwa [hl.ranges, length_rangesOf]
  · exact Nat.lt_of_lt_of_le (Nat.succ_pos _) hroom

def fourPages : PhysicalMemoryMap := ((({} : PhysicalMemoryMap).add ⟨8192, 16384, .usable⟩).2.normalize 4096).2

theorem metadata_unmanaged_fourPages :
    ¬ (({ frames := .fresh 1 } : MemoryManager).initializeMap fourPages 4096 65536).2.frames.Manages 86016 := by
  have hm : (({ frames := .fresh 1 } : MemoryManager).initializeMap fourPages 4096 65536).2.metadataRegion =
    ⟨86016, 4096, .reserved⟩ := by decide +kernel
  intro h
  have hout := (((metadata_unmanaged _ fourPages 4096 65536 (by decide +kernel)).2.2.1 86016).mp h).2.2
  rw [hm] at hout
  dsimp only at hout
  omega

end MemoryManager

end ObfuscationKernel.Memory
