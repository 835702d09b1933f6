import ObfuscationKernel.Core.Status
import Mathlib.Algebra.Group.Nat.Defs
import Mathlib.Data.List.Basic
import Mathlib.Tactic.SplitIfs

/-! The ELF loader accepts only images whose segments are safe to map. -/

namespace ObfuscationKernel.Sched.Elf

open ObfuscationKernel.Core List

def maxElfLoadSegments : ℕ := 8

inductive Architecture
  | i386 | x86_64 | aarch64 | arm32 | rv64 | rv32 | loongarch64 | mips | mips64 | ppc

def elfMachineFor : Architecture → ℕ
  | .x86_64 => 0x3e
  | .i386 => 0x03
  | .aarch64 => 0xb7
  | .arm32 => 0x28
  | .rv64 | .rv32 => 0xf3
  | .mips | .mips64 => 0x08
  | .ppc => 0x14
  | .loongarch64 => 0x102

structure Image where
  memory : ℕ → UInt8
  size : ℕ

structure Segment where
  virtualAddress : ℕ
  memorySize : ℕ
  fileSize : ℕ
  fileOffset : ℕ
  permissions : BitVec 32
  deriving DecidableEq

structure LoadedElf where
  entry : ℕ
  stackPointer : ℕ := 0x800000
  loadSegments : ℕ := 0
  segments : List Segment := []
  staticExecutable : Bool
  deriving DecidableEq

structure ProgramHeader where
  type : ℕ
  flags : BitVec 32
  fileOffset : ℕ
  virtualAddress : ℕ
  fileSize : ℕ
  memorySize : ℕ
  alignment : ℕ

def rangeEnd (maxAddress base length : ℕ) : Option ℕ :=
  if length = 0 then none
  else if (base + length) % (maxAddress + 1) ≥ base then some ((base + length) % (maxAddress + 1)) else none

def rangesOverlap (maxAddress base length base' length' : ℕ) : Bool :=
  match rangeEnd maxAddress base length, rangeEnd maxAddress base' length' with
  | some stop, some stop' => decide (base < stop' ∧ base' < stop)
  | _, _ => true

def elfSegmentPermissions (flags : BitVec 32) : BitVec 32 :=
  8 ||| (if flags &&& 4 ≠ 0 then 1 else 0) ||| (if flags &&& 2 ≠ 0 then 2 else 0) ||| (if flags &&& 1 ≠ 0 then 4 else 0)

namespace ProgramHeader

variable (h : ProgramHeader)

def segment : Segment := ⟨h.virtualAddress, h.memorySize, h.fileSize, h.fileOffset, elfSegmentPermissions h.flags⟩

def loads : Bool := h.type == 1 && h.memorySize != 0

def load (maxAddress fileBytes : ℕ) : LoadedElf × Bool → Result (LoadedElf × Bool)
  | (loaded, executable) =>
    let loaded := if h.type = 2 ∨ h.type = 3 then { loaded with staticExecutable := false } else loaded
    if h.type ≠ 1 then .ok (loaded, executable)
    else if h.memorySize < h.fileSize ∨ h.fileOffset > fileBytes ∨ h.fileSize > fileBytes - h.fileOffset ∨
        h.virtualAddress > maxAddress ∨ h.memorySize > maxAddress - h.virtualAddress then
      .error (.invalidArgument "ELF load segment is out of range")
    else if h.alignment > 1 ∧ (h.alignment &&& (h.alignment - 1) ≠ 0 ∨
        h.virtualAddress &&& (h.alignment - 1) ≠ h.fileOffset &&& (h.alignment - 1)) then
      .error (.invalidArgument "ELF segment alignment is invalid")
    else if h.memorySize = 0 then .ok (loaded, executable)
    else if loaded.segments.any fun s => rangesOverlap maxAddress h.virtualAddress h.memorySize s.virtualAddress s.memorySize then
      .error (.invalidArgument "ELF load segments overlap")
    else if loaded.segments.length ≥ maxElfLoadSegments then .error (.overflow "static vector capacity exceeded")
    else .ok ({ loaded with segments := loaded.segments ++ [h.segment] }, executable || (h.flags &&& 1 != 0 &&
      decide (loaded.entry ≥ h.virtualAddress ∧ loaded.entry - h.virtualAddress < h.memorySize)))

end ProgramHeader

namespace Image

variable (image : Image)

def byteAt (offset : ℕ) : ℕ := if offset < image.size then (image.memory offset).toNat else 0

def elf64 : Bool := image.byteAt 4 == 2

def bigEndian : Bool := image.byteAt 5 == 2

def headerSize : ℕ := if image.elf64 then 64 else 52

def readInteger (offset width : ℕ) : ℕ :=
  (List.range width).foldl (fun value i =>
    value ||| image.byteAt (offset + i) <<< ((if image.bigEndian then width - 1 - i else i) * 8)) 0

def entry : ℕ := if image.elf64 then image.readInteger 24 8 else image.readInteger 24 4

def phoff : ℕ := if image.elf64 then image.readInteger 32 8 else image.readInteger 28 4

def phentsize : ℕ := image.readInteger (if image.elf64 then 54 else 42) 2

def phnum : ℕ := image.readInteger (if image.elf64 then 56 else 44) 2

def phentsizeMin : ℕ := if image.elf64 then 56 else 32

def programHeader (offset : ℕ) : ProgramHeader :=
  let field at64 at32 := if image.elf64 then image.readInteger (offset + at64) 8 else image.readInteger (offset + at32) 4
  { type := image.readInteger offset 4
    flags := BitVec.ofNat 32 (image.readInteger (offset + if image.elf64 then 4 else 24) 4)
    fileOffset := field 8 4
    virtualAddress := field 16 8
    fileSize := field 32 16
    memorySize := field 40 20
    alignment := field 48 28 }

def programHeaders : List ProgramHeader :=
  (List.range image.phnum).map fun i => image.programHeader (image.phoff + i * image.phentsize)

/-- `maxAddress` is the largest pointer of the machine. -/
def loadPrefix (maxAddress fileBytes : ℕ) (architecture : Architecture) : Result LoadedElf :=
  let type := image.readInteger 16 2
  if image.size > fileBytes then .error (.invalidArgument "ELF prefix exceeds file size")
  else if image.size < 52 then .error (.invalidArgument "ELF image is too small")
  else if image.byteAt 0 ≠ 0x7f ∨ image.byteAt 1 ≠ 0x45 ∨ image.byteAt 2 ≠ 0x4c ∨ image.byteAt 3 ≠ 0x46 then
    .error (.invalidArgument "ELF magic is invalid")
  else if !image.elf64 ∧ image.byteAt 4 ≠ 1 then .error (.invalidArgument "ELF class is invalid")
  else if image.size < image.headerSize then .error (.invalidArgument "ELF header is truncated")
  else if image.byteAt 5 ≠ 1 ∧ image.byteAt 5 ≠ 2 then .error (.invalidArgument "ELF byte order is invalid")
  else if image.byteAt 6 ≠ 1 ∨ image.readInteger 20 4 ≠ 1 ∨
      image.readInteger (if image.elf64 then 52 else 40) 2 ≠ image.headerSize then
    .error (.invalidArgument "ELF version or header size is invalid")
  else if image.readInteger 18 2 ≠ elfMachineFor architecture then .error (.invalidArgument "ELF architecture mismatch")
  else if type ≠ 2 ∧ type ≠ 3 then .error (.unsupported "ELF image is not executable")
  else if image.entry = 0 ∨ image.entry > maxAddress then .error (.invalidArgument "ELF entry is invalid")
  else if image.phnum = 0 ∨ image.phentsize < image.phentsizeMin ∨ image.phoff < image.headerSize ∨
      image.phoff > image.size ∨ image.phnum > (image.size - image.phoff) / image.phentsize then
    .error (.invalidArgument "ELF program header table is out of range")
  else
    match image.programHeaders.foldlM (fun state h => h.load maxAddress fileBytes state)
      (⟨image.entry, 0x800000, 0, [], type == 2⟩, false) with
    | .error status => .error status
    | .ok (loaded, executable) =>
      if loaded.segments.isEmpty then .error (.invalidArgument "ELF image has no loadable segments")
      else if !executable then .error (.invalidArgument "ELF entry is not in an executable segment")
      else .ok { loaded with loadSegments := loaded.segments.length }

end Image

structure Loads (maxAddress fileBytes : ℕ) (headers : List ProgramHeader) (loaded : LoadedElf) : Prop where
  segments : loaded.segments = (headers.filter ProgramHeader.loads).map ProgramHeader.segment
  disjoint : loaded.segments.Pairwise fun a b =>
    a.virtualAddress + a.memorySize ≤ b.virtualAddress ∨ b.virtualAddress + b.memorySize ≤ a.virtualAddress
  inside : ∀ s ∈ loaded.segments, s.virtualAddress + s.memorySize ≤ maxAddress ∧ s.memorySize ≠ 0 ∧
    s.fileOffset + s.fileSize ≤ fileBytes ∧ s.fileSize ≤ s.memorySize

def Entered (loaded : LoadedElf) : Prop := ∃ s ∈ loaded.segments, s.permissions &&& 4 ≠ 0 ∧
  s.virtualAddress ≤ loaded.entry ∧ loaded.entry < s.virtualAddress + s.memorySize

variable {maxAddress fileBytes : ℕ} {image : Image}

lemma rangesOverlap_false {base length base' length' : ℕ} (h : base + length ≤ maxAddress) (h' : base' + length' ≤ maxAddress)
    (ho : rangesOverlap maxAddress base length base' length' = false) : base + length ≤ base' ∨ base' + length' ≤ base := by
  unfold rangesOverlap rangeEnd at ho
  rw [Nat.mod_eq_of_lt (Nat.lt_succ_of_le h), Nat.mod_eq_of_lt (Nat.lt_succ_of_le h'), if_pos (Nat.le_add_right _ _),
    if_pos (Nat.le_add_right _ _)] at ho
  by_cases h0 : length = 0
  · simp [h0] at ho
  by_cases h0' : length' = 0
  · simp [h0, h0'] at ho
  simp only [h0, h0', if_false, decide_eq_false_iff_not, not_and, Nat.not_lt] at ho
  omega

lemma execute_permission {flags : BitVec 32} (h : flags &&& 1 ≠ 0) : elfSegmentPermissions flags &&& 4 ≠ 0 := by
  unfold elfSegmentPermissions
  split_ifs <;> decide

lemma Loads.step {headers : List ProgramHeader} {h : ProgramHeader} {loaded next : LoadedElf} {executable found : Bool}
    (hl : Loads maxAddress fileBytes headers loaded) (he : executable = true → Entered loaded)
    (hn : h.load maxAddress fileBytes (loaded, executable) = .ok (next, found)) :
    Loads maxAddress fileBytes (headers ++ [h]) next ∧ next.entry = loaded.entry ∧ (found = true → Entered next) := by
  unfold ProgramHeader.load at hn
  dsimp only at hn
  -- a header that is skipped changes at most whether the image is static
  have hskip : ∀ static, h.loads = false →
      Loads maxAddress fileBytes (headers ++ [h]) { loaded with staticExecutable := static } := by
    intro static hno
    refine { hl with segments := ?_ }
    rw [filter_append, filter_cons_of_neg (by simp [hno]), filter_nil, append_nil]
    exact hl.segments
  have hstatic : (if h.type = 2 ∨ h.type = 3 then { loaded with staticExecutable := false } else loaded) =
      { loaded with staticExecutable := if h.type = 2 ∨ h.type = 3 then false else loaded.staticExecutable } := by
    split_ifs <;> rfl
  rw [hstatic] at hn
  generalize (if h.type = 2 ∨ h.type = 3 then false else loaded.staticExecutable) = static at hn
  split_ifs at hn with h1 h2 h3 h4 h5 h6
  · cases hn
    exact ⟨hskip static (by simp [ProgramHeader.loads, h1]), rfl, he⟩
  · cases hn
    exact ⟨hskip static (by simp [ProgramHeader.loads, h4]), rfl, he⟩
  cases hn
  have hin : h.virtualAddress + h.memorySize ≤ maxAddress := by omega
  have hloads : h.loads = true := by simp [ProgramHeader.loads, not_not.mp h1, h4]
  refine ⟨⟨?_, ?_, ?_⟩, rfl, ?_⟩
  · rw [filter_append, filter_cons_of_pos hloads, filter_nil, map_append, ← hl.segments]
    rfl
  · refine pairwise_append.mpr ⟨hl.disjoint, pairwise_singleton _ _, fun s hs => forall_mem_singleton.mpr ?_⟩
    have hno := any_eq_false.mp (eq_false_of_ne_true h5) s hs
    exact (rangesOverlap_false hin (hl.inside s hs).1 (eq_false_of_ne_true hno)).symm
  · exact forall_mem_append.mpr ⟨hl.inside, forall_mem_singleton.mpr
      ⟨hin, h4, by simp only [ProgramHeader.segment]; omega, by simp only [ProgramHeader.segment]; omega⟩⟩
  intro hf
  rcases Bool.or_eq_true_iff.mp hf with hf | hf
  · obtain ⟨s, hs, hp⟩ := he hf
    exact ⟨s, mem_append_left _ hs, hp⟩
  simp only [Bool.and_eq_true, bne_iff_ne, decide_eq_true_eq] at hf
  refine ⟨h.segment, mem_append_right _ (mem_singleton_self _), execute_permission hf.1, hf.2.1, ?_⟩
  simp only [ProgramHeader.segment]
  omega

lemma Loads.run {later headers : List ProgramHeader} {loaded last : LoadedElf} {executable found : Bool}
    (hl : Loads maxAddress fileBytes headers loaded) (he : executable = true → Entered loaded)
    (hn : later.foldlM (fun state h => h.load maxAddress fileBytes state) (loaded, executable) = Except.ok (last, found)) :
    Loads maxAddress fileBytes (headers ++ later) last ∧ last.entry = loaded.entry ∧ (found = true → Entered last) := by
  induction later generalizing headers loaded executable with
  | nil =>
    cases hn
    exact ⟨by rwa [append_nil], rfl, he⟩
  | cons h later ih =>
  rw [foldlM_cons] at hn
  cases hs : h.load maxAddress fileBytes (loaded, executable) with
  | error status =>
    rw [hs] at hn
    cases hn
  | ok state =>
  rw [hs] at hn
  obtain ⟨hl', hentry, he'⟩ := hl.step he hs
  obtain ⟨hlast, hlast', hfound⟩ := ih hl' he' hn
  rw [append_assoc] at hlast
  exact ⟨hlast, hlast'.trans hentry, hfound⟩

structure Safe (image : Image) (maxAddress fileBytes : ℕ) (loaded : LoadedElf) : Prop where
  loads : Loads maxAddress fileBytes image.programHeaders loaded
  entry : loaded.entry = image.entry
  entered : Entered loaded
  count : loaded.loadSegments = loaded.segments.length
  file : image.size ≤ fileBytes
  table : ∀ i < image.phnum, image.phoff + i * image.phentsize + image.phentsizeMin ≤ image.size

lemma table_inside {i n size start stop least : ℕ} (hi : i < n) (hl : least ≤ size) (hs : start ≤ stop)
    (hn : n ≤ (stop - start) / size) : start + i * size + least ≤ stop := by
  have hle := Nat.le_trans (Nat.mul_le_mul_right size hn) (Nat.div_mul_le_self _ _)
  have hnext := Nat.mul_le_mul_right size hi
  rw [Nat.succ_mul] at hnext
  omega

lemma of_ite {c : Prop} [Decidable c] {status : Status} {x : Result LoadedElf} {loaded : LoadedElf}
    (h : (if c then .error status else x) = .ok loaded) : ¬c ∧ x = .ok loaded := by
  by_cases hc : c
  · rw [if_pos hc] at h
    cases h
  · rw [if_neg hc] at h
    exact ⟨hc, h⟩

lemma loadPrefix_safe {architecture : Architecture} {loaded : LoadedElf}
    (h : image.loadPrefix maxAddress fileBytes architecture = .ok loaded) : Safe image maxAddress fileBytes loaded := by
  obtain ⟨hfile, h⟩ := of_ite h
  obtain ⟨-, h⟩ := of_ite (of_ite (of_ite (of_ite h).2).2).2
  obtain ⟨-, h⟩ := of_ite (of_ite (of_ite (of_ite h).2).2).2
  obtain ⟨htable, h⟩ := of_ite (of_ite h).2
  have hnone : Loads maxAddress fileBytes [] ⟨image.entry, 0x800000, 0, [], image.readInteger 16 2 == 2⟩ :=
    ⟨rfl, List.Pairwise.nil, fun s hs => nomatch hs⟩
  cases hf : image.programHeaders.foldlM (fun state h => h.load maxAddress fileBytes state)
      ((⟨image.entry, 0x800000, 0, [], image.readInteger 16 2 == 2⟩ : LoadedElf), false) with
  | error status =>
    rw [hf] at h
    cases h
  | ok state =>
  rw [hf] at h
  obtain ⟨hx, h⟩ := of_ite (of_ite h).2
  obtain ⟨hl, hentry, hfound⟩ := hnone.run (fun h => absurd h Bool.false_ne_true) hf
  rw [← Except.ok.inj h]
  simp only [not_or, Nat.not_lt] at htable
  exact {
    loads := { hl with }
    entry := hentry
    entered := hfound (by simpa using hx)
    count := rfl
    file := Nat.not_lt.mp hfile
    table := fun i hi => table_inside hi htable.2.1 htable.2.2.2.1 htable.2.2.2.2 }

/-- The loader sees nothing of the memory behind the image, and what it accepts is safe. -/
theorem load_prefix_sound (image : Image) (maxAddress fileBytes : ℕ) (architecture : Architecture) :
    (∀ memory, (∀ i < image.size, memory i = image.memory i) →
      Image.loadPrefix ⟨memory, image.size⟩ maxAddress fileBytes architecture =
        image.loadPrefix maxAddress fileBytes architecture) ∧
    ∀ loaded, image.loadPrefix maxAddress fileBytes architecture = .ok loaded → Safe image maxAddress fileBytes loaded := by
  refine ⟨fun memory hm => ?_, fun loaded h => loadPrefix_safe h⟩
  have hbyte : Image.byteAt ⟨memory, image.size⟩ = image.byteAt := by
    funext offset
    unfold Image.byteAt
    split_ifs with h
    · exact congrArg UInt8.toNat (hm offset h)
    · rfl
  unfold Image.loadPrefix Image.programHeaders Image.programHeader Image.phoff Image.phnum Image.phentsize Image.phentsizeMin
    Image.entry Image.headerSize Image.readInteger Image.bigEndian Image.elf64
  rw [hbyte]

def sample : Image where
  memory i := ([0x7f, 0x45, 0x4c, 0x46, 2, 1, 1, 0, 0, 0, 0, 0, 0, 0, 0, 0, 2, 0, 0x3e, 0, 1, 0, 0, 0, 8, 0, 0x10, 0, 0, 0, 0, 0,
    64, 0, 0, 0, 0, 0, 0, 0, 0, 0, 0, 0, 0, 0, 0, 0, 0, 0, 0, 0, 64, 0, 56, 0, 2, 0, 0, 0, 0, 0, 0, 0,
    -- the text, readable and executable
    1, 0, 0, 0, 5, 0, 0, 0, 0, 0, 0, 0, 0, 0, 0, 0, 0, 0, 0x10, 0, 0, 0, 0, 0, 0, 0, 0, 0, 0, 0, 0, 0,
    176, 0, 0, 0, 0, 0, 0, 0, 0, 0x10, 0, 0, 0, 0, 0, 0, 0, 0, 0, 0, 0, 0, 0, 0,
    -- the data, writable, right behind the text and mostly without bytes in the file
    1, 0, 0, 0, 6, 0, 0, 0, 160, 0, 0, 0, 0, 0, 0, 0, 0, 0x10, 0x10, 0, 0, 0, 0, 0, 0, 0, 0, 0, 0, 0, 0, 0,
    16, 0, 0, 0, 0, 0, 0, 0, 0, 0x20] : List UInt8).getD i 0
  size := 176

theorem load_prefix_sound_sample : ∃ loaded, sample.loadPrefix (2 ^ 64 - 1) 176 .x86_64 = .ok loaded ∧
    Safe sample (2 ^ 64 - 1) 176 loaded :=
  have h : sample.loadPrefix (2 ^ 64 - 1) 176 .x86_64 = .ok ⟨0x100008, 0x800000, 2,
    [⟨0x100000, 0x1000, 176, 0, 13⟩, ⟨0x101000, 0x2000, 16, 160, 11⟩], true⟩ := by decide +kernel
  ⟨_, h, (load_prefix_sound sample (2 ^ 64 - 1) 176 .x86_64).2 _ h⟩

end ObfuscationKernel.Sched.Elf
