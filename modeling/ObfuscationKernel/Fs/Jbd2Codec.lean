import ObfuscationKernel.Core.Status
import ObfuscationKernel.Library.Effect

/-! JBD2 journal records and their read-only checksum-v3 codec. -/

namespace ObfuscationKernel.Fs.Jbd2

open ObfuscationKernel.Core Library

abbrev magic : BitVec 32 := 0xc03b3998
abbrev featureRevoke : BitVec 32 := 1
abbrev feature64bit : BitVec 32 := 2
abbrev featureChecksumV3 : BitVec 32 := 16
abbrev flagEscape : BitVec 32 := 1
abbrev flagSameUuid : BitVec 32 := 2
abbrev flagLastTag : BitVec 32 := 8

inductive RecordType
  | descriptor | commit | superblockV2 | revoke
  deriving DecidableEq, Repr

def RecordType.code : RecordType → BitVec 32
  | .descriptor => 1
  | .commit => 2
  | .superblockV2 => 4
  | .revoke => 5

def byte (bytes : List UInt8) (offset : ℕ) : UInt8 := bytes.getD offset 0

def be32 (bytes : List UInt8) (offset : ℕ) : BitVec 32 :=
  (byte bytes offset).toBitVec ++ (byte bytes (offset + 1)).toBitVec ++ (byte bytes (offset + 2)).toBitVec ++
    (byte bytes (offset + 3)).toBitVec

def be64 (bytes : List UInt8) (offset : ℕ) : BitVec 64 := be32 bytes offset ++ be32 bytes (offset + 4)

def crcBit (crc : BitVec 32) : BitVec 32 := (crc >>> 1) ^^^ (0x82f63b78 &&& (0 - (crc &&& 1)))

def crcByte (crc : BitVec 32) (b : UInt8) : BitVec 32 :=
  (List.range 8).foldl (fun crc _ => crcBit crc) (crc ^^^ b.toBitVec.setWidth 32)

def crc32c (seed : BitVec 32) (bytes : List UInt8) : BitVec 32 := bytes.foldl crcByte seed

def checksumZeroed (seed : BitVec 32) (bytes : List UInt8) (offset : ℕ) : BitVec 32 :=
  bytes.zipIdx.foldl (fun crc b => crcByte crc (if offset ≤ b.2 ∧ b.2 - offset < 4 then 0 else b.1)) seed

def allZero (bytes : List UInt8) : Bool := bytes.all (· == 0)

inductive DescriptorUuidPolicy
  | journalSuperblock | linuxInternalZero
  deriving DecidableEq, Repr

structure Superblock where
  blockSize : ℕ
  maxBlocks : ℕ
  firstBlock : ℕ
  sequence : BitVec 32
  startBlock : ℕ
  features : BitVec 32
  uuid : List UInt8
  deriving DecidableEq, Repr

def Superblock.decode (bytes : List UInt8) : Superblock where
  blockSize := (be32 bytes 12).toNat
  maxBlocks := (be32 bytes 16).toNat
  firstBlock := (be32 bytes 20).toNat
  sequence := be32 bytes 24
  startBlock := (be32 bytes 28).toNat
  features := be32 bytes 40
  uuid := (bytes.drop 48).take 16

structure Tag where
  targetBlock : ℕ
  checksum : BitVec 32
  restoreMagic : Bool
  deriving DecidableEq, Repr

structure Commit where
  seconds : BitVec 64
  nanoseconds : BitVec 32
  deriving DecidableEq, Repr

structure Codec where
  superblock : Superblock
  seed : BitVec 32
  tagPolicy : DescriptorUuidPolicy
  deriving DecidableEq, Repr

namespace Codec

def logBounds (sb : Superblock) (availableBlocks : ℕ) : Bool :=
  decide (1024 ≤ sb.maxBlocks) && decide (sb.maxBlocks ≤ availableBlocks) && sb.firstBlock != 0 &&
    decide (sb.firstBlock < sb.maxBlocks) && decide (sb.maxBlocks - sb.firstBlock < 0x80000000) &&
    (sb.startBlock == 0 || decide (sb.firstBlock ≤ sb.startBlock) && decide (sb.startBlock < sb.maxBlocks))

def «open» (input : List UInt8) (availableBlocks : ℕ) (expectedUuid : Vector UInt8 16)
    (tagPolicy : DescriptorUuidPolicy) : Result Codec :=
  if input.length < 1024 then .error (.invalidArgument "truncated JBD2 superblock")
  else
    let bytes := input.take 1024
    let sb := Superblock.decode bytes
    if be32 bytes 0 ≠ magic ∨ be32 bytes 4 ≠ RecordType.superblockV2.code then
      .error (.unsupported "JBD2 v2 superblock required")
    else if be32 bytes 36 ≠ 0 ∨ be32 bytes 44 ≠ 0 ∨ sb.features &&& featureChecksumV3 = 0 ∨
        sb.features &&& ~~~(featureRevoke ||| feature64bit ||| featureChecksumV3) ≠ 0 ∨ byte bytes 80 ≠ 4 then
      .error (.unsupported "only synchronous JBD2 CRC32C v3 is supported")
    else if be32 bytes 64 ≠ 1 ∨ be32 bytes 68 ≠ 0 ∨ be32 bytes 84 ≠ 0 then
      .error (.unsupported "shared, dynamic or fast-commit journal layout")
    else if checksumZeroed (~~~0) bytes 252 ≠ be32 bytes 252 then .error (.ioError "JBD2 superblock checksum")
    else if sb.blockSize ≠ 1024 ∧ sb.blockSize ≠ 2048 ∧ sb.blockSize ≠ 4096 then .error (.unsupported "JBD2 block size")
    else if !logBounds sb availableBlocks then .error (.invalidArgument "JBD2 log bounds")
    else if be32 bytes 32 ≠ 0 then .error (.ioError "JBD2 recorded journal error")
    else if sb.uuid ≠ expectedUuid.toList then .error (.invalidArgument "JBD2 journal UUID mismatch")
    else .ok ⟨sb, crc32c (~~~0) sb.uuid, tagPolicy⟩

variable {s : Type}

def record (c : Codec) (block : List UInt8) (type : RecordType) (sequence : BitVec 32) (checksum : ℕ) : Result Unit :=
  if block.length ≠ c.superblock.blockSize then .error (.invalidArgument "JBD2 record block size")
  else if be32 block 0 ≠ magic ∨ be32 block 4 ≠ type.code ∨ be32 block 8 ≠ sequence then
    .error (.invalidArgument "JBD2 record header")
  else if checksumZeroed c.seed block checksum ≠ be32 block checksum then .error (.ioError "JBD2 record checksum")
  else .ok ()

def tagUuid (c : Codec) : List UInt8 :=
  match c.tagPolicy with
  | .linuxInternalZero => List.replicate 16 0
  | .journalSuperblock => c.superblock.uuid

def tagsFrom (c : Codec) (block : List UInt8) (visitor : Tag → Eff Status s PUnit) : ℕ → ℕ → Bool → Eff Status s PUnit
  | 0, _, _ => throw (.invalidArgument "JBD2 descriptor has no final tag")
  | fuel + 1, offset, hasUuid =>
    let stop := block.length - 4
    if ¬ (offset ≤ stop ∧ 16 ≤ stop - offset) then throw (.invalidArgument "JBD2 descriptor has no final tag")
    else
      let low := be32 block offset
      let flags := be32 block (offset + 4)
      let high := be32 block (offset + 8)
      let checksum := be32 block (offset + 12)
      let rest := offset + 16
      let tag : Tag := ⟨(high ++ low).toNat, checksum, flags &&& flagEscape != 0⟩
      let accept (offset : ℕ) (hasUuid : Bool) : Eff Status s PUnit := do
        visitor tag
        if flags &&& flagLastTag ≠ 0 then pure ⟨⟩ else tagsFrom c block visitor fuel offset hasUuid
      if flags &&& ~~~(flagEscape ||| flagSameUuid ||| flagLastTag) ≠ 0 then
        throw (.unsupported "JBD2 deleted or unknown tag flags")
      else if c.superblock.features &&& feature64bit = 0 ∧ high ≠ 0 then
        throw (.unsupported "JBD2 high target without 64bit feature")
      else if flags &&& flagSameUuid = 0 then
        if stop - rest < 16 then throw (.invalidArgument "truncated JBD2 tag UUID")
        else if (block.drop rest).take 16 ≠ c.tagUuid then throw (.invalidArgument "foreign JBD2 tag UUID")
        else accept (rest + 16) true
      else if !hasUuid then throw (.invalidArgument "first JBD2 tag omits UUID")
      else accept rest hasUuid

def tags (c : Codec) (block : List UInt8) (visitor : Tag → Eff Status s PUnit) : Eff Status s PUnit :=
  c.tagsFrom block visitor block.length 12 false

def descriptor (c : Codec) (block : List UInt8) (sequence : BitVec 32) (visitor : Tag → Eff Status s PUnit) :
    Eff Status s PUnit := do
  liftExcept (c.record block .descriptor sequence (c.superblock.blockSize - 4))
  c.tags block fun _ => pure ⟨⟩
  c.tags block visitor

def revokeWidth (c : Codec) : ℕ := if c.superblock.features &&& feature64bit ≠ 0 then 8 else 4

def revokeTarget (c : Codec) (block : List UInt8) (offset : ℕ) : ℕ :=
  if c.revokeWidth = 8 then (be64 block offset).toNat else (be32 block offset).toNat

def revoke (c : Codec) (block : List UInt8) (sequence : BitVec 32) (visitor : ℕ → Eff Status s PUnit) : Eff Status s PUnit :=
  if c.superblock.features &&& featureRevoke = 0 then throw (.unsupported "JBD2 revoke feature absent")
  else do
    liftExcept (c.record block .revoke sequence (c.superblock.blockSize - 4))
    let count := (be32 block 12).toNat
    if count < 16 ∨ count > block.length - 4 ∨ (count - 16) % c.revokeWidth ≠ 0 then
      throw (.invalidArgument "JBD2 revoke record length")
    else
      forM (List.range ((count - 16) / c.revokeWidth)) fun k => visitor (c.revokeTarget block (16 + k * c.revokeWidth))

def commit (c : Codec) (block : List UInt8) (sequence : BitVec 32) : Result Commit := do
  c.record block .commit sequence 16
  if !allZero ((block.drop 12).take 4) || !allZero ((block.drop 20).take 28) then
    .error (.unsupported "JBD2 v3 commit checksum layout")
  else if (be32 block 56).toNat ≥ 1000000000 then .error (.invalidArgument "JBD2 commit timestamp")
  else .ok ⟨be64 block 48, be32 block 56⟩

def sequenceBytes (sequence : BitVec 32) : List UInt8 :=
  [⟨sequence.extractLsb' 24 8⟩, ⟨sequence.extractLsb' 16 8⟩, ⟨sequence.extractLsb' 8 8⟩, ⟨sequence.extractLsb' 0 8⟩]

def payload (c : Codec) (block : List UInt8) (sequence : BitVec 32) (tag : Tag) : Result Unit :=
  if block.length ≠ c.superblock.blockSize then .error (.invalidArgument "JBD2 payload block size")
  else if crc32c (crc32c c.seed (sequenceBytes sequence)) block ≠ tag.checksum then .error (.ioError "JBD2 payload checksum")
  else if (tag.restoreMagic && be32 block 0 != 0) || (!tag.restoreMagic && be32 block 0 == magic) then
    .error (.invalidArgument "JBD2 payload escape encoding")
  else .ok ()

end Codec

end ObfuscationKernel.Fs.Jbd2
