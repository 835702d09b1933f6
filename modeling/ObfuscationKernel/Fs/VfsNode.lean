import ObfuscationKernel.Core.Status
import ObfuscationKernel.Library.Effect

/-! Nodes as the virtual file system sees them: callbacks that may fail, and the references that it takes and drops. -/

namespace ObfuscationKernel.Fs.Vfs

open ObfuscationKernel.Core Library

/-- A pathname or a name in it, one character for each byte. -/
abbrev Path := List Char

def maxPathSegment : ℕ := 32

inductive NodeType
  | directory | regular | device | symlink | socket
  deriving DecidableEq, Repr

structure Metadata where
  type : NodeType := .regular
  size : ℕ := 0
  mode : BitVec 32 := 0o100644
  uid : ℕ := 0
  gid : ℕ := 0
  linkCount : ℕ := 1
  deriving DecidableEq, Repr

structure Credentials where
  uid : ℕ := 0
  gid : ℕ := 0
  deriving DecidableEq, Repr

def accessExecute : BitVec 32 := 1
def accessWrite : BitVec 32 := 2
def accessRead : BitVec 32 := 4

def hasAccess (metadata : Metadata) (credentials : Credentials) (access : BitVec 32) : Bool :=
  if access &&& ~~~(accessRead ||| accessWrite ||| accessExecute) ≠ 0 then false
  else if access = 0 then true
  else if credentials.uid = 0 then true
  else
    let shift := if credentials.uid = metadata.uid then 6 else if credentials.gid = metadata.gid then 3 else 0
    decide ((metadata.mode >>> shift &&& 7) &&& access = access)

def requireAccess (metadata : Metadata) (credentials : Credentials) (access : BitVec 32) : Result PUnit :=
  if hasAccess metadata credentials access then .ok ⟨⟩ else .error (.denied "filesystem permission denied")

def validComponent (name : Path) : Bool :=
  decide (name ≠ [] ∧ name ≠ ['.'] ∧ name ≠ ['.', '.'] ∧ name.length < maxPathSegment ∧ '/' ∉ name ∧ Char.ofNat 0 ∉ name)

inductive Request
  | retain (node : ℕ)
  | release (node : ℕ)
  | expose (node : ℕ)
  | createSymlink (directory : ℕ) (name target : Path) (uid gid : ℕ)
  | link (directory : ℕ) (name : Path) (target : ℕ)
  | rename (directory : ℕ) (name : Path) (newDirectory : ℕ) (newName : Path)
  | remove (directory : ℕ) (name : Path) (isDirectory : Bool)
  | attachChild (directory : ℕ) (child : ℕ)
  | detachChild (directory : ℕ) (name : Path)
  | retireTree (root : ℕ)
  | abandon (node : ℕ)
  | admitIdentity (provider : ℕ)
  | validateRoot
  | releaseRoot
  | configureReadonly (node : ℕ) (name data : Path) (mode : BitVec 32)
  | chmod (node : ℕ) (mode : BitVec 32)
  | chown (node : ℕ) (uid gid : ℕ)
  | truncate (node : ℕ) (size : ℕ)
  | write (node : ℕ) (offset : ℕ) (data : Path)
  deriving DecidableEq, Repr

structure Answers where
  queryMetadata : ℕ → Result Metadata := fun _ => .error (.ioError "")
  lookupChild : ℕ → Path → Result ℕ := fun _ _ => .error (.notFound "directory entry not found")
  read : ℕ → ℕ → ℕ → Result Path := fun _ _ _ => .error (.ioError "")
  list : ℕ → Result (List Path) := fun _ => .error (.ioError "")
  createChild : ℕ → Path → NodeType → Result ℕ := fun _ _ _ => .error (.unsupported "")
  directoryPath : ℕ → ℕ → Result Path := fun _ _ => .error (.unsupported "")
  allocateNode : Path → NodeType → Bool → Option ℕ := fun _ _ _ => none
  mountedRoot : Result ℕ := .error (.fault "")
  identity : ℕ → ℕ := fun _ => 0
  lookup : ℕ → Path → Option ℕ := fun _ _ => none
  status : Request → Result PUnit := fun _ => .ok ⟨⟩

/-- The callbacks so far: how many, and for each node the retains less the releases. -/
structure Calls where
  clock : ℕ := 0
  references : ℕ → ℤ := fun _ => 0

namespace Calls

variable (env : ℕ → Answers)

def ask {α : Type} (f : Answers → Result α) : Eff Status Calls α := do
  let calls ← get
  set { calls with clock := calls.clock + 1 }
  liftExcept (f (env calls.clock))

lemma ask_exec {α : Type} (f : Answers → Result α) (calls : Calls) :
    (ask env f).exec calls = (f (env calls.clock), { calls with clock := calls.clock + 1 }) := by
  rw [ask, Eff.exec_bind_ok (Eff.exec_get _), Eff.exec_bind_ok (Eff.exec_set _ _), Eff.exec_liftExcept]

def count (node : ℕ) (n : ℤ) : Eff Status Calls PUnit :=
  modify fun calls => { calls with references := Function.update calls.references node (calls.references node + n) }

def retain (node : ℕ) : Eff Status Calls PUnit := do
  ask env fun answers => answers.status (.retain node)
  count node 1

def request (request : Request) : Eff Status Calls PUnit := ask env fun answers => answers.status request

def ignore (request : Request) : Eff Status Calls PUnit := tryCatch (Calls.request env request) fun _ => pure ⟨⟩

/-- A release consumes a reference also when it fails. -/
def release (node : ℕ) : Eff Status Calls PUnit := do
  count node (-1)
  ask env fun answers => answers.status (.release node)

def queryMetadata (node : ℕ) : Eff Status Calls Metadata := ask env fun answers => answers.queryMetadata node

def lookupChildRetained (node : ℕ) (name : Path) : Eff Status Calls ℕ := do
  let child ← ask env fun answers => answers.lookupChild node name
  count child 1
  pure child

def findChild (node : ℕ) (name : Path) : Eff Status Calls (Option ℕ) :=
  tryCatch (some <$> lookupChildRetained env node name) fun status =>
    if status.code = .notFound then pure none else throw status

def read (node : ℕ) (offset count : ℕ) : Eff Status Calls Path := ask env fun answers => answers.read node offset count

def drop (node : ℕ) : Eff Status Calls PUnit := tryCatch (release env node) fun _ => pure ⟨⟩

/-- `x` in the scope of a reference that it does not use up: a failure drops the reference. -/
def holding {α : Type} (node : ℕ) (x : Eff Status Calls α) : Eff Status Calls α :=
  tryCatch x fun status => do
    drop env node
    throw status

end Calls

end ObfuscationKernel.Fs.Vfs
