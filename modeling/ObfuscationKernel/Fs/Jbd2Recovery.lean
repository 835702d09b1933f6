import ObfuscationKernel.Fs.Jbd2Plan

/-! Replay of a journal on a device: bounded block transfers, and the one-shot executor of a plan. -/

namespace ObfuscationKernel.Fs.Jbd2

open ObfuscationKernel.Core Library

structure BlockGeometry where
  blockCount : ℕ
  blockSize : ℕ
  writable : Bool
  deriving DecidableEq, Repr

/-- What a device does with a request: the geometry it reports, its failure if it fails, and what a write that fails
leaves at each place. -/
structure Response where
  geometry : BlockGeometry
  failure : Option Status := none
  torn : ℕ → UInt8 := fun _ => 0

structure Device where
  bytes : ℕ → UInt8
  requests : ℕ := 0

structure RecoveryLayout where
  firstSector : ℕ
  filesystemBlocks : ℕ
  journalFirstBlock : ℕ
  journalBlocks : ℕ
  blockSize : ℕ
  deriving DecidableEq, Repr

structure RecoveryIo where
  layout : RecoveryLayout
  geometry : BlockGeometry
  deriving DecidableEq, Repr

def overwrite (bytes : ℕ → UInt8) (place : ℕ) (data : List UInt8) (a : ℕ) : UInt8 :=
  if place ≤ a ∧ a < place + data.length then data.getD (a - place) 0 else bytes a

namespace RecoveryIo

def «open» (geometry : BlockGeometry) (layout : RecoveryLayout) : Result RecoveryIo :=
  let sectors := layout.blockSize / geometry.blockSize
  if !geometry.writable then .error (.denied "JBD2 recovery requires writable media")
  else if (layout.blockSize ≠ 1024 ∧ layout.blockSize ≠ 2048 ∧ layout.blockSize ≠ 4096) ∨ geometry.blockSize = 0 ∨
      geometry.blockSize &&& (geometry.blockSize - 1) ≠ 0 ∨ geometry.blockSize > layout.blockSize ∨
      layout.blockSize % geometry.blockSize ≠ 0 then
    .error (.unsupported "JBD2 recovery block geometry")
  else if layout.filesystemBlocks = 0 ∨ layout.firstSector ≥ geometry.blockCount ∨
      layout.filesystemBlocks > (geometry.blockCount - layout.firstSector) / sectors ∨ layout.journalBlocks < 1024 ∨
      layout.journalFirstBlock ≥ layout.filesystemBlocks ∨
      layout.journalBlocks > layout.filesystemBlocks - layout.journalFirstBlock then
    .error (.invalidArgument "JBD2 recovery filesystem or journal bounds")
  else .ok ⟨layout, geometry⟩

variable (io : RecoveryIo) (env : ℕ → Response)

def permitsRange (range : BlockRange) : Bool :=
  range.count != 0 && decide (range.first < io.layout.filesystemBlocks) &&
    decide (range.count ≤ io.layout.filesystemBlocks - range.first) &&
    (decide (range.first + range.count ≤ io.layout.journalFirstBlock) ||
      decide (range.first ≥ io.layout.journalFirstBlock + io.layout.journalBlocks))

def sector (block : ℕ) : ℕ := io.layout.firstSector + block * (io.layout.blockSize / io.geometry.blockSize)

def place (block : ℕ) : ℕ := io.sector block * io.geometry.blockSize

def respond : Eff Status Device Response := do
  let device ← get
  set { device with requests := device.requests + 1 }
  pure (env device.requests)

def stableGeometry : Eff Status Device PUnit := do
  let response ← respond env
  let now := response.geometry
  if now.blockSize ≠ io.geometry.blockSize ∨ now.blockCount ≠ io.geometry.blockCount ∨ !now.writable then
    throw (.ioError "JBD2 recovery device geometry changed")
  else pure ⟨⟩

def contents (bytes : ℕ → UInt8) (block : ℕ) : List UInt8 :=
  (List.range io.layout.blockSize).map fun k => bytes (io.place block + k)

def deviceRead (block : ℕ) : Eff Status Device (List UInt8) := do
  let response ← respond env
  match response.failure with
  | some status => throw status
  | none => do
    let device ← get
    pure (io.contents device.bytes block)

/-- A write that fails may have changed some or all of the block. -/
def deviceWrite (block : ℕ) (data : List UInt8) : Eff Status Device PUnit := do
  let response ← respond env
  match response.failure with
  | some status => do
    modify fun device => { device with
      bytes := overwrite device.bytes (io.place block) ((List.range data.length).map fun k => response.torn (io.place block + k)) }
    throw status
  | none => modify fun device => { device with bytes := overwrite device.bytes (io.place block) data }

def deviceFlush : Eff Status Device PUnit := do
  let response ← respond env
  match response.failure with
  | some status => throw status
  | none => pure ⟨⟩

def readBlock (journalBlock : ℕ) : Eff Status Device (List UInt8) :=
  if journalBlock ≥ io.layout.journalBlocks then throw (.invalidArgument "JBD2 recovery journal read bounds")
  else do
    io.stableGeometry env
    let block ← io.deviceRead env (io.layout.journalFirstBlock + journalBlock)
    io.stableGeometry env
    pure block

def writeBlock (target : ℕ) (buffer : List UInt8) : Eff Status Device PUnit :=
  if buffer.length ≠ io.layout.blockSize ∨ !io.permitsRange ⟨target, 1⟩ then
    throw (.denied "JBD2 recovery write outside destination or inside journal")
  else do
    io.stableGeometry env
    io.deviceWrite env target buffer
    io.stableGeometry env

def flush : Eff Status Device PUnit := do
  io.stableGeometry env
  deviceFlush env
  io.stableGeometry env

end RecoveryIo

inductive ReplayPhase
  | idle | validating | planning | preflight | replaying | flushing | complete | failed
  deriving DecidableEq, Repr

structure ReplayReport where
  phase : ReplayPhase := .idle
  failedPhase : ReplayPhase := .idle
  status : Result PUnit := .ok ⟨⟩
  plannedActions : ℕ := 0
  revokedActions : ℕ := 0
  committedTransactions : ℕ := 0
  nextSequence : BitVec 32 := 0
  writeAttempts : ℕ := 0
  completedWrites : ℕ := 0
  flushAttempts : ℕ := 0
  completedFlushes : ℕ := 0
  emptyLog : Bool := false
  incompleteTail : Bool := false
  preflightFlushSucceeded : Bool := false
  finalFlushSucceeded : Bool := false

structure ReplayExecutor where
  device : Device
  report : ReplayReport := {}

structure ReplayCapacity where
  actions : ℕ := 64
  revocations : ℕ := 64
  ranges : ℕ := 32

namespace ReplayExecutor

variable (capacity : ReplayCapacity) (io : RecoveryIo) (env : ℕ → Response) (expectedUuid : Vector UInt8 16)
  (domain : TargetDomain) (tagPolicy : DescriptorUuidPolicy)

def transfer {α : Type} (x : Eff Status Device α) : Eff Status ReplayExecutor α :=
  Eff.part ReplayExecutor.device (fun device executor => { executor with device := device }) x

def note (f : ReplayReport → ReplayReport) : Eff Status ReplayExecutor PUnit :=
  modify fun executor => { executor with report := f executor.report }

def flushNoted : Eff Status ReplayExecutor PUnit := do
  note fun report => { report with flushAttempts := report.flushAttempts + 1 }
  transfer (io.flush env)
  note fun report => { report with completedFlushes := report.completedFlushes + 1 }

def readPayload (c : Codec) (action : ReplayAction) : Eff Status ReplayExecutor (List UInt8) := do
  let block ← transfer (io.readBlock env action.journalBlock)
  liftExcept (c.payload block action.sequence ⟨action.targetBlock, action.checksum, action.restoreMagic⟩)
  pure block

def validate : Eff Status ReplayExecutor PUnit := do
  note fun report => { report with phase := .validating }
  if !domain.valid ∨ domain.filesystemBlocks ≠ io.layout.filesystemBlocks then
    throw (.invalidArgument "JBD2 replay target domain differs from device layout")
  else if domain.metadata.length > capacity.ranges then throw (.noMemory "JBD2 replay domain capacity")
  else if !domain.metadata.all io.permitsRange then
    throw (.denied "JBD2 replay domain overlaps journal or exceeds destination")
  else do
    flushNoted io env
    note fun report => { report with preflightFlushSucceeded := true }

def planReplay : Eff Status ReplayExecutor (Codec × ReplayPlan) := do
  note fun report => { report with phase := .planning }
  let record ← transfer (io.readBlock env 0)
  let c ← liftExcept (Codec.open record io.layout.journalBlocks expectedUuid tagPolicy)
  if c.superblock.blockSize ≠ io.layout.blockSize then
    throw (.invalidArgument "JBD2 superblock and recovery transfer size differ")
  else do
    let plan ← transfer (buildReplayPlan c (io.readBlock env) domain
      ⟨io.layout.blockSize, io.layout.blockSize, capacity.actions, capacity.revocations⟩)
    note fun report => { report with
      plannedActions := plan.actions.length, revokedActions := plan.revokedActions
      committedTransactions := plan.committedTransactions, nextSequence := plan.nextSequence
      emptyLog := plan.emptyLog, incompleteTail := plan.incompleteTail }
    pure (c, plan)

/-- The checks of the actions before the first write; `previous` is the order of the transaction before them. -/
def preflightActions (c : Codec) (plan : ReplayPlan) : ℕ → List ReplayAction → Eff Status ReplayExecutor PUnit
  | _, [] => pure ⟨⟩
  | previous, action :: actions =>
    let sb := c.superblock
    if !domain.permits action.targetBlock ∨ !io.permitsRange ⟨action.targetBlock, 1⟩ ∨
        action.journalBlock < sb.firstBlock ∨ action.journalBlock ≥ sb.maxBlocks ∨
        action.transactionOrder ≥ plan.committedTransactions ∨ action.transactionOrder < previous ∨
        action.sequence ≠ sb.sequence + BitVec.ofNat 32 action.transactionOrder then
      throw (.invalidArgument "JBD2 replay action bounds or transaction order")
    else do
      let _ ← readPayload io env c action
      preflightActions c plan action.transactionOrder actions

def preflight (c : Codec) (plan : ReplayPlan) : Eff Status ReplayExecutor PUnit := do
  note fun report => { report with phase := .preflight }
  if plan.nextSequence ≠ c.superblock.sequence + BitVec.ofNat 32 plan.committedTransactions then
    throw (.invalidArgument "JBD2 replay plan sequence invariant")
  else preflightActions io env domain c plan 0 plan.actions

def restored (action : ReplayAction) (payload : List UInt8) : List UInt8 :=
  if action.restoreMagic then [0xc0, 0x3b, 0x39, 0x98] ++ payload.drop 4 else payload

def replayAction (c : Codec) (action : ReplayAction) : Eff Status ReplayExecutor PUnit := do
  let payload ← readPayload io env c action
  note fun report => { report with writeAttempts := report.writeAttempts + 1 }
  transfer (io.writeBlock env action.targetBlock (restored action payload))
  note fun report => { report with completedWrites := report.completedWrites + 1 }

def prepare : Eff Status ReplayExecutor (Codec × ReplayPlan) := do
  validate capacity io env domain
  let planned ← planReplay capacity io env expectedUuid domain tagPolicy
  preflight io env domain planned.1 planned.2
  pure planned

def replay (planned : Codec × ReplayPlan) : Eff Status ReplayExecutor PUnit := do
  note fun report => { report with phase := .replaying }
  forM planned.2.actions (replayAction io env planned.1)
  note fun report => { report with phase := .flushing }
  flushNoted io env
  note fun report => { report with finalFlushSucceeded := true, phase := .complete, status := .ok ⟨⟩ }

def fail (status : Status) (report : ReplayReport) : ReplayReport :=
  { report with failedPhase := report.phase, phase := .failed, status := .error status }

def run : Eff Status ReplayExecutor PUnit := do
  let executor ← get
  if executor.report.phase ≠ .idle then throw (.alreadyExists "JBD2 replay executor is one-shot")
  else tryCatch (prepare capacity io env expectedUuid domain tagPolicy >>= replay io env) fun status => do
    note (fail status)
    throw status

end ReplayExecutor

end ObfuscationKernel.Fs.Jbd2
