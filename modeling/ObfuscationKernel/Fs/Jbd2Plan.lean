import ObfuscationKernel.Fs.Jbd2Codec

/-! The planner of a journal replay: a scan of the log, record by record, and the actions that remain of it. -/

namespace ObfuscationKernel.Fs.Jbd2

open ObfuscationKernel.Core Library

structure BlockRange where
  first : ℕ
  count : ℕ
  deriving DecidableEq, Repr

structure TargetDomain where
  filesystemBlocks : ℕ
  metadata : List BlockRange
  deriving DecidableEq, Repr

def TargetDomain.valid (domain : TargetDomain) : Bool :=
  domain.filesystemBlocks != 0 && !domain.metadata.isEmpty && domain.metadata.all fun range =>
    range.count != 0 && decide (range.first < domain.filesystemBlocks) &&
      decide (range.count ≤ domain.filesystemBlocks - range.first)

def TargetDomain.permits (domain : TargetDomain) (target : ℕ) : Bool :=
  domain.metadata.any fun range => decide (range.first ≤ target) && decide (target - range.first < range.count)

structure ReplayAction where
  targetBlock : ℕ
  journalBlock : ℕ
  sequence : BitVec 32
  transactionOrder : ℕ
  checksum : BitVec 32
  restoreMagic : Bool
  deriving DecidableEq, Repr

structure Revocation where
  targetBlock : ℕ
  transactionOrder : ℕ
  deriving DecidableEq, Repr

structure PlanStorage where
  recordBlock : ℕ
  payloadBlock : ℕ
  actions : ℕ
  revocations : ℕ

structure ReplayPlan where
  actions : List ReplayAction := []
  committedTransactions : ℕ := 0
  nextSequence : BitVec 32
  scannedBlocks : ℕ := 0
  revokedActions : ℕ := 0
  incompleteTail : Bool := false
  emptyLog : Bool := false
  revokeRecords : ℕ := 0
  deriving DecidableEq, Repr

/-- The state of a scan; the counters of the source are 32 bits wide, more than the blocks of a log. -/
structure Scan (ρ : Type) where
  reader : ρ
  position : ℕ
  scanned : ℕ := 0
  sequence : BitVec 32
  committed : ℕ := 0
  actions : List ReplayAction := []
  revocations : List Revocation := []
  committedActions : ℕ := 0
  committedRevokes : ℕ := 0
  revokeRecords : ℕ := 0
  pending : Bool := false

def Superblock.advance (sb : Superblock) (position : ℕ) : ℕ :=
  if position + 1 = sb.maxBlocks then sb.firstBlock else position + 1

def Superblock.logBlocks (sb : Superblock) : ℕ := sb.maxBlocks - sb.firstBlock

section

variable {ρ : Type} (c : Codec) (read : ℕ → Eff Status ρ (List UInt8)) (domain : TargetDomain) (storage : PlanStorage)

def readNext : Eff Status (Scan ρ) (List UInt8) := do
  let scan ← get
  if scan.scanned = c.superblock.logBlocks then throw (.invalidArgument "JBD2 log revisits starting block")
  else
    let block ← Eff.part Scan.reader (fun reader scan => { scan with reader := reader }) (read scan.position)
    modify fun scan => { scan with scanned := scan.scanned + 1, position := c.superblock.advance scan.position }
    pure block

def visitTag (tag : Tag) : Eff Status (Scan ρ) PUnit :=
  if !domain.permits tag.targetBlock then throw (.denied "JBD2 target outside validated metadata domain")
  else do
    let scan ← get
    if scan.actions.length = storage.actions then throw (.noMemory "JBD2 action capacity")
    else
      let payload ← readNext c read
      liftExcept (c.payload payload scan.sequence tag)
      modify fun now => { now with actions := now.actions ++
        [⟨tag.targetBlock, scan.position, scan.sequence, scan.committed, tag.checksum, tag.restoreMagic⟩] }

def visitRevoke (target : ℕ) : Eff Status (Scan ρ) PUnit :=
  if !domain.permits target then throw (.denied "JBD2 revoke outside validated metadata domain")
  else do
    let scan ← get
    if scan.revocations.length = storage.revocations then throw (.noMemory "JBD2 revoke capacity")
    else modify fun scan => { scan with revocations := scan.revocations ++ [⟨target, scan.committed⟩] }

def staleRecord (block : List UInt8) (type sequence : BitVec 32) : Eff Status (Scan ρ) PUnit :=
  if type = RecordType.descriptor.code then c.descriptor block sequence fun _ => pure ⟨⟩
  else if type = RecordType.revoke.code then c.revoke block sequence fun _ => pure ⟨⟩
  else do
    let _ ← liftExcept (c.commit block sequence)

def scanRecord (block : List UInt8) (type : BitVec 32) : Eff Status (Scan ρ) PUnit := do
  let scan ← get
  if type = RecordType.descriptor.code then
    modify fun scan => { scan with pending := true }
    c.descriptor block scan.sequence (visitTag c read domain storage)
  else if type = RecordType.revoke.code then
    modify fun scan => { scan with pending := true }
    c.revoke block scan.sequence (visitRevoke domain storage)
    modify fun scan => { scan with revokeRecords := scan.revokeRecords + 1 }
  else
    let _ ← liftExcept (c.commit block scan.sequence)
    modify fun scan => { scan with
      committed := scan.committed + 1, sequence := scan.sequence + 1, committedActions := scan.actions.length
      committedRevokes := scan.revocations.length, pending := false }

def scanLog : ℕ → Eff Status (Scan ρ) PUnit
  | 0 => throw (.fault "JBD2 scan bound")
  | records + 1 => do
    let block ← readNext c read
    let scan ← get
    let type := be32 block 4
    let sequence := be32 block 8
    if allZero block then pure ⟨⟩
    else if be32 block 0 ≠ magic then throw (.invalidArgument "unrecognized JBD2 log boundary")
    else if type ≠ RecordType.descriptor.code ∧ type ≠ RecordType.commit.code ∧ type ≠ RecordType.revoke.code then
      throw (.unsupported "JBD2 log record type")
    else if sequence ≠ scan.sequence then
      if (scan.sequence - sequence).toNat ≥ 0x80000000 then
        throw (.invalidArgument "future or ambiguous JBD2 transaction sequence")
      else staleRecord c block type sequence
    else do
      scanRecord c read domain storage block type
      scanLog records

end

def suppressed (revocations : List Revocation) (action : ReplayAction) : Bool :=
  revocations.any fun entry => entry.targetBlock == action.targetBlock &&
    decide (entry.transactionOrder ≥ action.transactionOrder)

def compact (revocations : List Revocation) : ℕ → ℕ → List ReplayAction → ℕ → ℕ → List ReplayAction × ℕ × ℕ
  | 0, _, actions, output, revoked => (actions, output, revoked)
  | rest + 1, index, actions, output, revoked =>
    match actions[index]? with
    | none => (actions, output, revoked)
    | some action =>
      if suppressed revocations action then compact revocations rest (index + 1) actions output (revoked + 1)
      else compact revocations rest (index + 1) (actions.set output action) (output + 1) revoked

def Scan.plan {ρ : Type} (scan : Scan ρ) : ReplayPlan :=
  let kept := compact (scan.revocations.take scan.committedRevokes) scan.committedActions 0 scan.actions 0 0
  { actions := kept.1.take kept.2.1, committedTransactions := scan.committed, nextSequence := scan.sequence
    scannedBlocks := scan.scanned, revokedActions := kept.2.2, incompleteTail := scan.pending
    revokeRecords := scan.revokeRecords }

def Scan.outcome {ρ : Type} : Result PUnit × Scan ρ → Result ReplayPlan × ρ
  | (.ok _, scan) => (.ok scan.plan, scan.reader)
  | (.error status, scan) => (.error status, scan.reader)

def Superblock.start {ρ : Type} (sb : Superblock) (reader : ρ) : Scan ρ :=
  { reader := reader, position := sb.startBlock, sequence := sb.sequence }

def buildReplayPlan {ρ : Type} (c : Codec) (read : ℕ → Eff Status ρ (List UInt8)) (domain : TargetDomain)
    (storage : PlanStorage) : Eff Status ρ ReplayPlan :=
  let sb := c.superblock
  if !domain.valid ∨ storage.recordBlock < sb.blockSize ∨ storage.payloadBlock < sb.blockSize then
    throw (.invalidArgument "JBD2 plan domain or scratch")
  else if sb.startBlock = 0 then pure { nextSequence := sb.sequence, emptyLog := true }
  else ExceptT.mk fun reader => Scan.outcome ((scanLog c read domain storage (sb.logBlocks + 1)).exec (sb.start reader))

end ObfuscationKernel.Fs.Jbd2
