import ObfuscationKernel.Fs.VfsNode

/-! Resolution of a pathname: the walk from component to component, over mounts and symbolic links. -/

namespace ObfuscationKernel.Fs.Vfs

open ObfuscationKernel.Core Library

structure PathHandle where
  node : Option ℕ := none
  mountId : ℕ := 0
  deriving DecidableEq, Repr

structure Place where
  node : ℕ
  mountId : ℕ
  deriving DecidableEq, Repr

structure ResolveContext where
  root : PathHandle := {}
  start : PathHandle := {}
  credentials : Credentials := {}
  checkSearch : Bool := false

inductive FinalComponent
  | follow | noFollow | parent | createTarget | noSymlinks | createDirectory
  deriving DecidableEq, Repr

inductive MountPhase
  | unused | borrowed | owned | ownedRam | detached
  deriving DecidableEq, Repr

structure Mount where
  phase : MountPhase := .unused
  path : Path := []
  root : ℕ := 0
  covered : ℕ := 0
  coveredMountId : ℕ := 0
  deriving DecidableEq, Repr

def Mount.attached (mount : Mount) : Bool :=
  mount.phase = .borrowed || mount.phase = .owned || mount.phase = .ownedRam

structure Namespace where
  root : ℕ
  mounts : List Mount

namespace Namespace

variable (ns : Namespace)

def mountAt (mountId : ℕ) : Option Mount := if mountId = 0 then none else ns.mounts[mountId - 1]?

def rootHandle : Place :=
  match ns.mounts.zipIdx.find? fun row => row.1.attached && row.1.path = ['/'] with
  | some (mount, i) => ⟨mount.root, i + 1⟩
  | none => ⟨ns.root, 0⟩

def validateMountId (mountId : ℕ) : Result PUnit :=
  if mountId ≠ 0 ∧ (mountId > ns.mounts.length ∨ !(ns.mountAt mountId).any Mount.attached) then
    .error (.notFound "directory mount is unavailable")
  else .ok ⟨⟩

def mountedOn (place : Place) : Option Place :=
  ns.mounts.zipIdx.findSome? fun row =>
    if row.1.attached ∧ row.1.covered = place.node ∧ row.1.coveredMountId = place.mountId then some ⟨row.1.root, row.2 + 1⟩
    else none

def climb (root : Place) : ℕ → Place → Result Place
  | 0, _ => .error (.fault "mount table is cyclic")
  | fuel + 1, directory => do
    ns.validateMountId directory.mountId
    ns.validateMountId root.mountId
    if directory = root then pure directory
    else
      match ns.mountAt directory.mountId with
      | some mount => if directory.node = mount.root then climb root fuel ⟨mount.covered, mount.coveredMountId⟩ else pure directory
      | none => pure directory

/-- Each step of `climb` goes to an earlier mount, so that many steps are enough. -/
def parentReference (env : ℕ → Answers) (directory root : Place) : Eff Status Calls Place := do
  let directory ← liftExcept (ns.climb root (ns.mounts.length + 2) directory)
  if directory = root then do
    Calls.retain env directory.node
    pure directory
  else do
    let parent ← Calls.lookupChildRetained env directory.node ['.', '.']
    pure ⟨parent, directory.mountId⟩

end Namespace

def nextSegment (path : Path) (cursor : ℕ) : Option (Path × ℕ) :=
  let start := cursor + ((path.drop cursor).takeWhile (· = '/')).length
  if start ≥ path.length then none
  else
    let segment := (path.drop start).takeWhile (· ≠ '/')
    some (segment, start + segment.length)

structure Resolution where
  object : Place
  leaf : Path := []
  trailingSlash : Bool := false
  retained : Option ℕ
  deriving DecidableEq, Repr

structure Walk where
  calls : Calls
  current : Place
  held : Option ℕ
  pending : Path
  cursor : ℕ := 0
  expansions : ℕ := 0

namespace Walk

def begin (calls : Calls) (start : Place) (path : Path) : Walk :=
  { calls := calls, current := start, held := some start.node, pending := path }

variable (ns : Namespace) (env : ℕ → Answers) (context : ResolveContext) (root : Place) (policy : FinalComponent)

def callbacks {α : Type} (x : Eff Status Calls α) : Eff Status Walk α :=
  Eff.part Walk.calls (fun calls walk => { walk with calls := calls }) x

def transferRetained (node : ℕ) : Eff Status Walk PUnit := do
  let walk ← get
  set { walk with held := none }
  match walk.held with
  | some old => callbacks (Calls.holding env node (Calls.release env old))
  | none => pure ⟨⟩
  modify fun walk => { walk with held := some node }

def moveTo (place : Place) : Eff Status Walk PUnit := do
  transferRetained env place.node
  modify fun walk => { walk with current := place }

def atEntry (leaf : Path) (trailing : Bool) : Eff Status Walk (Option Resolution) := do
  let walk ← get
  set { walk with held := none }
  pure (some { object := walk.current, leaf := leaf, trailingSlash := trailing, retained := walk.held })

def atEnd : Eff Status Walk (Option Resolution) := do
  let walk ← get
  if policy = .parent then throw (.invalidArgument "root has no final pathname component")
  else do
    if walk.pending.getLast? = some '/' then do
      let metadata ← callbacks (Calls.queryMetadata env walk.current.node)
      if metadata.type ≠ .directory then throw (.notDirectory "trailing slash requires a directory")
    atEntry [] false

def symlinkTarget (node size : ℕ) (rest : Path) : Eff Status Calls Path := do
  if size = 0 then throw (.notFound "empty symlink target")
  else if size ≥ 256 then throw (.nameTooLong "symlink target exceeds pathname capacity")
  else do
    let target ← Calls.read env node 0 size
    if target.length ≠ size then throw (.ioError "incomplete symlink target")
    else if Char.ofNat 0 ∈ target then throw (.invalidArgument "symlink target contains a null byte")
    else if target.length ≥ 256 ∨ target.length + rest.length ≥ 256 then
      throw (.nameTooLong "expanded pathname exceeds capacity")
    else pure target

def followLink (node size : ℕ) : Eff Status Walk PUnit := do
  modify fun walk => { walk with expansions := walk.expansions + 1 }
  let walk ← get
  let rest := walk.pending.drop walk.cursor
  let target ← callbacks (Calls.holding env node
    (if walk.expansions > 40 then throw (.tooManySymlinks "symlink traversal limit exceeded")
      else symlinkTarget env node size rest))
  callbacks (Calls.release env node)
  if target.head? = some '/' then do
    callbacks (Calls.retain env root.node)
    moveTo env root
  modify fun walk => { walk with pending := target ++ rest, cursor := 0 }

def enter (place : Place) : Eff Status Walk PUnit := do
  moveTo env place
  match ns.mountedOn place with
  | some mounted => do
    callbacks (Calls.retain env mounted.node)
    moveTo env mounted
  | none => pure ⟨⟩

def follows (final trailing : Bool) : Bool :=
  !final || trailing || policy = .follow || policy = .createTarget

def atName (segment : Path) (final trailing : Bool) : Eff Status Walk (Option Resolution) := do
  let walk ← get
  if segment.length ≥ maxPathSegment then throw (.nameTooLong "pathname component exceeds capacity")
  else
    let found ← callbacks (Calls.findChild env walk.current.node segment)
    match found with
    | none =>
      if final ∧ policy = .createTarget then atEntry segment trailing
      else throw (.notFound "pathname component not found")
    | some node => do
      let metadata ← callbacks (Calls.holding env node do
        let metadata ← Calls.queryMetadata env node
        if metadata.type = .symlink ∧ policy = .noSymlinks then
          throw (.tooManySymlinks "mount path must not contain a symlink")
        else pure metadata)
      if metadata.type = .symlink ∧ follows policy final trailing then followLink env root node metadata.size
      else enter ns env ⟨node, walk.current.mountId⟩
      pure none

def search (metadata : Metadata) : Result PUnit :=
  if metadata.type ≠ .directory then .error (.notDirectory "path component is not a directory")
  else if context.checkSearch then requireAccess metadata context.credentials accessExecute
  else .ok ⟨⟩

def atComponent (segment : Path) : Eff Status Walk (Option Resolution) := do
  let walk ← get
  let final := (walk.pending.drop walk.cursor).all (· = '/')
  let trailing := final && decide (walk.cursor < walk.pending.length)
  if final ∧ (policy = .parent ∨ policy = .createDirectory ∧ segment ≠ ['.'] ∧ segment ≠ ['.', '.']) then
    if segment.length ≥ maxPathSegment then throw (.nameTooLong "pathname component exceeds capacity")
    else if !validComponent segment then throw (.invalidArgument "invalid final pathname component")
    else atEntry segment trailing
  else if segment = ['.'] then pure none
  else if segment = ['.', '.'] then do
    let parent ← callbacks (ns.parentReference env walk.current root)
    moveTo env parent
    pure none
  else atName ns env root policy segment final trailing

def step : Eff Status Walk (Option Resolution) := do
  let walk ← get
  match nextSegment walk.pending walk.cursor with
  | none => atEnd env policy
  | some (segment, cursor) => do
    set { walk with cursor := cursor }
    let parentMetadata ← callbacks (Calls.queryMetadata env walk.current.node)
    liftExcept (search context parentMetadata)
    atComponent ns env root policy segment

def run : ℕ → Walk → Option (Result Resolution × Walk)
  | 0, _ => none
  | n + 1, walk =>
    match (step ns env context root policy).exec walk with
    | (.error status, walk) => some (.error status, walk)
    | (.ok (some resolution), walk) => some (.ok resolution, walk)
    | (.ok none, walk) => run n walk

end Walk

/-- More components than a walk can have: a pathname has at most 255 characters, and there are at most 40 links. -/
def walkLimit : ℕ := 41 * 256

namespace Namespace

variable (ns : Namespace) (env : ℕ → Answers)

def walkFrom (context : ResolveContext) (root start : Place) (path : Path) (policy : FinalComponent) :
    Eff Status Calls Resolution := do
  Calls.retain env start.node
  let outcome ← ExceptT.mk fun calls =>
    match Walk.run ns env context root policy walkLimit (Walk.begin calls start path) with
    | some (outcome, walk) => (.ok (outcome, walk.held), walk.calls)
    | none => (.error (.fault "walk without end"), calls)
  match outcome.2 with
  | some node => Calls.drop env node
  | none => pure ⟨⟩
  liftExcept outcome.1

def rootOf (context : ResolveContext) : Place :=
  match context.root.node with
  | some node => ⟨node, context.root.mountId⟩
  | none => ns.rootHandle

def startOf (context : ResolveContext) (path : Path) : Place :=
  match context.start.node with
  | some node => if path.head? = some '/' then ns.rootOf context else ⟨node, context.start.mountId⟩
  | none => ns.rootOf context

def resolveUnlocked (context : ResolveContext) (path : Path) (policy : FinalComponent) : Eff Status Calls Resolution := do
  if path = [] then throw (.notFound "empty pathname")
  else if Char.ofNat 0 ∈ path then throw (.invalidArgument "pathname contains a null byte")
  else do
    liftExcept (ns.validateMountId context.root.mountId)
    liftExcept (ns.validateMountId context.start.mountId)
    if path.length ≥ 256 then throw (.nameTooLong "pathname exceeds capacity")
    else ns.walkFrom env context (ns.rootOf context) (ns.startOf context path) path policy

end Namespace

end ObfuscationKernel.Fs.Vfs
