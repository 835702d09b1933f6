import ObfuscationKernel.Fs.VfsResolve

/-! The operations of the virtual file system on its namespace, with the references that they take, store and hand out. -/

namespace ObfuscationKernel.Fs.Vfs

open ObfuscationKernel.Core Library

/-- A row of the mount table; while a mount is owned, its row holds a reference to the covered directory and, for a mount of
the pool, one to the root. -/
structure MountRow extends Mount where
  socketReferences : ℕ := 0
  deriving DecidableEq, Repr

structure FileSystem where
  calls : Calls
  root : ℕ
  rows : List MountRow
  serial : ℕ := 0
  socketPathReferences : ℕ := 0

def FileSystem.mountTable (vfs : FileSystem) : Namespace := ⟨vfs.root, vfs.rows.map MountRow.toMount⟩

structure MountHandle where
  ours : Bool
  id : ℕ
  deriving DecidableEq, Repr

structure PathReference where
  place : Place
  deriving DecidableEq, Repr

namespace FileSystem

variable (env : ℕ → Answers) (isRam : ℕ → Bool)

def callbacks {α : Type} (x : Eff Status Calls α) : Eff Status FileSystem α :=
  Eff.part FileSystem.calls (fun calls vfs => { vfs with calls := calls }) x

/-- An operation is admitted while its serial number fits; no other operation is active. -/
def operation {α : Type} (x : Eff Status FileSystem α) : Eff Status FileSystem α := do
  let vfs ← get
  if vfs.serial = 2 ^ 64 - 1 then throw (.overflow "VFS operation serial exhausted")
  else do
    set { vfs with serial := vfs.serial + 1 }
    x

def resolveIn (context : ResolveContext) (path : Path) (policy : FinalComponent) : Eff Status FileSystem Resolution := do
  let vfs ← get
  callbacks (vfs.mountTable.resolveUnlocked env context path policy)

def releaseHeld (held : Option ℕ) : Eff Status Calls PUnit :=
  match held with
  | some node => Calls.release env node
  | none => pure ⟨⟩

def dropHeld (held : Option ℕ) : Eff Status Calls PUnit := tryCatch (releaseHeld env held) fun _ => pure ⟨⟩

/-- `x` in the scope of a held reference, which is released at the end; a failure to release it is the outcome of a `x` that
succeeds, and the answer of `x` is then disposed of. -/
def scope {α : Type} (held : Option ℕ) (dispose : α → Eff Status Calls PUnit) (x : Eff Status FileSystem α) :
    Eff Status FileSystem α := do
  let answer ← tryCatch x fun status => do
    callbacks (dropHeld env held)
    throw status
  tryCatch (callbacks (releaseHeld env held)) fun status => do
    callbacks (dispose answer)
    throw status
  pure answer

def nothing {α : Type} (_ : α) : Eff Status Calls PUnit := pure ⟨⟩

def withRetained {α : Type} (resolution : Resolution) (x : Eff Status FileSystem α) : Eff Status FileSystem α :=
  scope env resolution.retained nothing x

def withReference {α : Type} (node : ℕ) (x : Eff Status FileSystem α) : Eff Status FileSystem α :=
  scope env (some node) nothing x

def parentAccess (context : ResolveContext) (parent : ℕ) (victim : Option ℕ) : Eff Status Calls PUnit := do
  let metadata ← Calls.queryMetadata env parent
  if metadata.linkCount = 0 then throw (.notFound "parent directory was removed")
  else if !context.checkSearch then pure ⟨⟩
  else do
    liftExcept (requireAccess metadata context.credentials (accessWrite ||| accessExecute))
    match victim with
    | none => pure ⟨⟩
    | some victim =>
      if metadata.mode &&& 0o1000 ≠ 0 ∧ context.credentials.uid ≠ 0 ∧ context.credentials.uid ≠ metadata.uid then do
        let victimMetadata ← Calls.queryMetadata env victim
        if context.credentials.uid ≠ victimMetadata.uid then
          throw (.permission "sticky directory protects another owner's file")
        else pure ⟨⟩
      else pure ⟨⟩

def maxRamNodes : ℕ := 128

def meets (ns : Namespace) (node mountRoot : ℕ) : ℕ → Place → Eff Status Calls Bool
  | 0, current => do
    Calls.release env current.node
    pure false
  | depth + 1, current =>
    if current.node = node ∨ mountRoot = node then do
      Calls.release env current.node
      pure true
    else do
      let parent ← Calls.holding env current.node (ns.parentReference env current ns.rootHandle)
      if parent = current then do
        Calls.holding env current.node (Calls.release env parent.node)
        Calls.release env current.node
        pure false
      else do
        Calls.holding env parent.node (Calls.release env current.node)
        meets ns node mountRoot depth parent

def protectsMount (ns : Namespace) (node : ℕ) : List Mount → Eff Status Calls Bool
  | [] => pure false
  | mount :: mounts =>
    if !mount.attached then protectsMount ns node mounts
    else do
      Calls.retain env mount.covered
      let met ← meets env ns node mount.root maxRamNodes ⟨mount.covered, mount.coveredMountId⟩
      if met then pure true else protectsMount ns node mounts

def protected? (node : ℕ) : Eff Status FileSystem Bool := do
  let vfs ← get
  callbacks (protectsMount env vfs.mountTable node vfs.mountTable.mounts)

def requireAbsent (directory : ℕ) (name : Path) (message : String) : Eff Status Calls PUnit := do
  match ← Calls.findChild env directory name with
  | some child => do
    Calls.drop env child
    throw (.alreadyExists message)
  | none => pure ⟨⟩

def anySegment (p : Path → Bool) (path : Path) : ℕ → ℕ → Bool
  | 0, _ => false
  | fuel + 1, cursor =>
    match nextSegment path cursor with
    | some (segment, next) => p segment || anySegment p path fuel next
    | none => false

def dotted (path : Path) : Bool := anySegment (fun s => s = ['.'] || s = ['.', '.']) path (path.length + 1) 0

def doubled (path : Path) : Bool := decide (['/', '/'] <:+: path)

def badMountPath (path : Path) : Bool :=
  path = [] || path.head? ≠ some '/' || path.length > 1 && path.getLast? = some '/'

def mountChecks (path : Path) (rootMetadata : Metadata) : Result PUnit :=
  if badMountPath path || rootMetadata.type ≠ .directory then .error (.invalidArgument "invalid mount root")
  else if dotted path then .error (.invalidArgument "mount path must be canonical")
  else if doubled path then .error (.invalidArgument "mount path must be canonical")
  else .ok ⟨⟩

def freeRow (rows : List MountRow) (path : Path) (message : String) : Result ℕ :=
  if rows.any fun row => row.attached && row.path = path then .error (.busy message)
  else
    match rows.findIdx? fun row => row.phase = .unused with
    | some index => .ok index
    | none => .error (.noMemory "mount table full")

def exposeRaw (node : ℕ) : Eff Status Calls PUnit :=
  tryCatch (Calls.request env (.expose node)) fun status => if status.code = .unsupported then pure ⟨⟩ else throw status

def admitIdentity (node : ℕ) : Eff Status Calls PUnit := do
  let calls ← get
  let provider := (env calls.clock).identity node
  if provider = 0 then pure ⟨⟩ else Calls.request env (.admitIdentity provider)

/-- The table keeps both nodes without a reference, so neither provider may recycle them. -/
def exposeBoth (root covered : ℕ) : Eff Status Calls PUnit := do
  admitIdentity env root
  Calls.retain env root
  Calls.holding env root do
    exposeRaw env root
    exposeRaw env covered
  Calls.release env root

def changeRow (index : ℕ) (f : MountRow → MountRow) : Eff Status FileSystem PUnit :=
  modify fun vfs => { vfs with rows := vfs.rows.modify index f }

def attach (index : ℕ) (phase : MountPhase) (path : Path) (root : ℕ) (covered : Place) : Eff Status FileSystem PUnit :=
  changeRow index fun row => { row with
    phase := phase, path := path, root := root, covered := covered.node, coveredMountId := covered.mountId }

def attachBorrowed (path : Path) (root : ℕ) (covered : Place) : Eff Status FileSystem PUnit := do
  let coveredMetadata ← callbacks (Calls.queryMetadata env covered.node)
  if coveredMetadata.type ≠ .directory then throw (.notFound "mount point is not a directory")
  else do
    let vfs ← get
    let index ← liftExcept (freeRow vfs.rows path "mount point is already mounted")
    if path.length ≥ 256 then throw (.overflow "fixed string capacity exceeded")
    else do
      changeRow index fun row => { row with path := path }
      callbacks (exposeBoth env root covered.node)
      attach index .borrowed path root covered

def mountBorrowed (path : Path) (root : ℕ) : Eff Status FileSystem PUnit := operation do
  let rootMetadata ← callbacks (Calls.queryMetadata env root)
  liftExcept (mountChecks path rootMetadata)
  let resolved ← resolveIn env {} path .noSymlinks
  withRetained env resolved (attachBorrowed env path root resolved.object)

/-- `anchored`: the token of the root is still the caller's, so a failure gives it back. -/
def finishRoot {α : Type} (anchored : Bool) (x : Eff Status FileSystem α) : Eff Status FileSystem α :=
  tryCatch x fun status => do
    if anchored then callbacks (Calls.ignore env .releaseRoot)
    throw status

def attachOwned (path : Path) (node : ℕ) (covered : Place) : Eff Status FileSystem MountHandle := do
  let coveredMetadata ← callbacks (Calls.queryMetadata env covered.node)
  if coveredMetadata.type ≠ .directory then throw (.notFound "mount point is not a directory")
  else do
    let vfs ← get
    let index ← liftExcept (freeRow vfs.rows path "mount point is already mounted")
    if path.length ≥ 256 then throw (.overflow "fixed string capacity exceeded")
    else do
      callbacks do
        admitIdentity env node
        Calls.request env .validateRoot
      attach index .owned path node covered
      pure ⟨true, index + 1⟩

def mountOwned (path : Path) (anchored : Bool) : Eff Status FileSystem MountHandle := finishRoot env anchored (operation do
  let node ← callbacks (Calls.ask env fun answers => answers.mountedRoot)
  let rootMetadata ← callbacks (Calls.queryMetadata env node)
  liftExcept (mountChecks path rootMetadata)
  let resolved ← resolveIn env {} path .noSymlinks
  tryCatch (attachOwned env path node resolved.object) fun status => do
    callbacks (dropHeld env resolved.retained)
    throw status)

def orAbandon {α : Type} (node : ℕ) (x : Eff Status Calls α) : Eff Status Calls α :=
  tryCatch x fun status => do
    Calls.ignore env (.abandon node)
    throw status

def allocateRoot (mode : BitVec 32) (uid gid : ℕ) : Eff Status Calls ℕ := do
  match ← Calls.ask env fun answers => .ok (answers.allocateNode ['/'] .directory false) with
  | none => throw (.noMemory "RAM mount node pool exhausted")
  | some root => do
    Calls.ignore env (.chmod root mode)
    Calls.ignore env (.chown root uid gid)
    orAbandon env root (Calls.retain env root)
    pure root

def attachRam (path : Path) (mode : BitVec 32) (uid gid : ℕ) (covered : Place) : Eff Status FileSystem MountHandle := do
  let metadata ← callbacks (Calls.queryMetadata env covered.node)
  if metadata.type ≠ .directory then throw (.notDirectory "RAM mount point is not a directory")
  else if metadata.linkCount = 0 then throw (.notFound "RAM mount point was removed")
  else do
    let vfs ← get
    let index ← liftExcept (freeRow vfs.rows path "RAM mount point is already mounted")
    if path.length ≥ 256 then throw (.overflow "fixed string capacity exceeded")
    else do
      let root ← callbacks (allocateRoot env mode uid gid)
      attach index .ownedRam path root covered
      pure ⟨true, index + 1⟩

def mountRamOwned (path : Path) (mode : BitVec 32) (uid gid : ℕ) : Eff Status FileSystem MountHandle := operation do
  if badMountPath path || doubled path || mode &&& ~~~0o7777 ≠ 0 then
    throw (.invalidArgument "invalid RAM mount path or permissions")
  else if dotted path then throw (.invalidArgument "RAM mount path must be canonical")
  else do
    let resolved ← resolveIn env {} path .noSymlinks
    tryCatch (attachRam env path mode uid gid resolved.object) fun status => do
      callbacks (dropHeld env resolved.retained)
      throw status

def releaseMount (row : MountRow) : Eff Status Calls PUnit := do
  Calls.holding env row.covered
    (if row.phase = .ownedRam then Calls.release env row.root else Calls.request env .releaseRoot)
  Calls.release env row.covered

def detach (mount : MountHandle) : Eff Status FileSystem PUnit := operation do
  let vfs ← get
  match if mount.ours && mount.id ≠ 0 then vfs.rows[mount.id - 1]? else none with
  | none => throw (.badDescriptor "mount handle is unavailable")
  | some row =>
    if row.phase ≠ .owned ∧ row.phase ≠ .ownedRam then
      throw (.badDescriptor "mount attachment is not owned or is detached")
    else if row.socketReferences ≠ 0 then throw (.busy "mount attachment has retained socket paths")
    else if vfs.rows.any fun child => child.attached && child.coveredMountId = mount.id then
      throw (.busy "mount attachment has an attached child")
    else do
      callbacks (if row.phase = .ownedRam then Calls.request env (.retireTree row.root) else pure ⟨⟩)
      changeRow (mount.id - 1) fun row => { row with phase := .detached, root := 0, covered := 0 }
      callbacks (releaseMount env row)

def resolve (context : ResolveContext) (path : Path) (policy : FinalComponent) : Eff Status FileSystem PathReference := operation do
  let resolved ← resolveIn env context path policy
  match resolved.retained with
  | some node => pure ⟨⟨node, resolved.object.mountId⟩⟩
  | none => throw (.fault "resolved pathname has no retained node")

def admitSocketReference (place : Place) : Eff Status FileSystem PUnit := do
  let vfs ← get
  if vfs.socketPathReferences = 2 ^ 64 - 1 then throw (.overflow "socket path reference count exceeded")
  else if place.mountId = 0 then pure ⟨⟩
  else
    match vfs.rows[place.mountId - 1]? with
    | some row =>
      if !row.attached then throw (.notFound "socket path mount is unavailable")
      else if row.socketReferences = 2 ^ 64 - 1 then throw (.overflow "socket mount reference count exceeded")
      else pure ⟨⟩
    | none => throw (.notFound "socket path mount is unavailable")

def addSocketReference (place : Place) : Eff Status FileSystem PUnit :=
  modify fun vfs => { vfs with
    socketPathReferences := vfs.socketPathReferences + 1
    rows := if place.mountId = 0 then vfs.rows
      else vfs.rows.modify (place.mountId - 1) fun row => { row with socketReferences := row.socketReferences + 1 } }

def releaseSocketReference (place : Place) : Eff Status FileSystem PUnit := do
  if !isRam place.node then throw (.fault "socket path does not name this VFS's RAM node")
  else do
    let vfs ← get
    if vfs.socketPathReferences = 0 ∨ place.mountId ≠ 0 ∧
        !(vfs.rows[place.mountId - 1]?).any fun row => row.attached && row.socketReferences ≠ 0 then
      throw (.fault "socket path attachment reference is unavailable")
    else do
      set { vfs with
        socketPathReferences := vfs.socketPathReferences - 1
        rows := if place.mountId = 0 then vfs.rows
          else vfs.rows.modify (place.mountId - 1) fun row => { row with socketReferences := row.socketReferences - 1 } }
      callbacks (Calls.release env place.node)

structure Creation where
  type : NodeType
  mode : BitVec 32
  uid : ℕ
  gid : ℕ
  target : Path := []
  followFinal : Bool := false
  socketReference : Bool := false

def Creation.policy (creation : Creation) : FinalComponent :=
  if creation.followFinal then .createTarget else if creation.type = .directory then .createDirectory else .parent

def Creation.inherit (creation : Creation) (parent : Metadata) : Creation :=
  let mode := creation.mode &&& 0o7777
  if parent.mode &&& 0o2000 ≠ 0 then { creation with
    gid := parent.gid, mode := if creation.type = .directory then mode ||| 0o2000 else mode }
  else { creation with mode := mode }

def createForeign (creation : Creation) (parent : ℕ) (leaf : Path) : Eff Status Calls ℕ :=
  if creation.type = .symlink then do
    Calls.request env (.createSymlink parent leaf creation.target creation.uid creation.gid)
    Calls.lookupChildRetained env parent leaf
  else do
    let child ← Calls.ask env fun answers => answers.createChild parent leaf creation.type
    Calls.count child 1
    pure child

def createRam (creation : Creation) (parent : ℕ) (leaf : Path) : Eff Status Calls ℕ := do
  match ← Calls.ask env fun answers => .ok (answers.allocateNode leaf creation.type false) with
  | none => throw (.noMemory "RAM VFS node pool exhausted")
  | some node => do
    Calls.ignore env (.chmod node creation.mode)
    Calls.ignore env (.chown node creation.uid creation.gid)
    if creation.type = .symlink then orAbandon env node (Calls.request env (.write node 0 creation.target))
    if creation.socketReference then do
      orAbandon env node (Calls.retain env node)
      Calls.holding env node (orAbandon env node (Calls.request env (.attachChild parent node)))
    else do
      orAbandon env node (Calls.request env (.attachChild parent node))
      Calls.retain env node
    pure node

def dropReference (reference : PathReference) : Eff Status Calls PUnit := Calls.drop env reference.place.node

def createUnlocked (context : ResolveContext) (path : Path) (creation : Creation) : Eff Status FileSystem PathReference := do
  let resolved ← resolveIn env context path creation.policy
  scope env resolved.retained (dropReference env) do
    if resolved.leaf = [] then throw (.alreadyExists "node already exists")
    else if resolved.trailingSlash ∧ creation.type ≠ .directory then
      throw (.notDirectory "trailing slash requires a directory")
    else do
      let parentMetadata ← callbacks (Calls.queryMetadata env resolved.object.node)
      if parentMetadata.type ≠ .directory then throw (.notDirectory "creation parent is not a directory")
      else if parentMetadata.linkCount = 0 then throw (.notFound "creation parent was removed")
      else do
        callbacks (requireAbsent env resolved.object.node resolved.leaf "node already exists")
        if context.checkSearch then
          liftExcept (requireAccess parentMetadata context.credentials (accessWrite ||| accessExecute))
        if creation.type = .symlink ∧ (creation.target = [] ∨ creation.target.length ≥ 256 ∨ Char.ofNat 0 ∈ creation.target) then
          throw (.invalidArgument "invalid symlink target")
        else if creation.type = .socket ∧ !isRam resolved.object.node then
          throw (.unsupported "socket creation requires this VFS's RAM namespace")
        else do
          if creation.socketReference then admitSocketReference resolved.object
          let creation := creation.inherit parentMetadata
          if !isRam resolved.object.node then do
            let child ← callbacks (createForeign env creation resolved.object.node resolved.leaf)
            pure ⟨⟨child, resolved.object.mountId⟩⟩
          else do
            let child ← callbacks (createRam env creation resolved.object.node resolved.leaf)
            if creation.socketReference then addSocketReference ⟨child, resolved.object.mountId⟩
            pure ⟨⟨child, resolved.object.mountId⟩⟩

def release (reference : PathReference) : Eff Status FileSystem PUnit := callbacks (Calls.release env reference.place.node)

def create (context : ResolveContext) (path : Path) (creation : Creation) : Eff Status FileSystem PUnit := operation do
  let created ← createUnlocked env isRam context path { creation with socketReference := false }
  release env created

def createFile (context : ResolveContext) (path : Path) (mode : BitVec 32) (uid gid : ℕ) (followFinal : Bool) :
    Eff Status FileSystem PathReference :=
  operation (createUnlocked env isRam context path ⟨.regular, mode, uid, gid, [], followFinal, false⟩)

def createSocket (context : ResolveContext) (path : Path) (mode : BitVec 32) : Eff Status FileSystem PathReference :=
  operation (createUnlocked env isRam context path
    ⟨.socket, mode, context.credentials.uid, context.credentials.gid, [], false, true⟩)

def resolveSocket (context : ResolveContext) (path : Path) : Eff Status FileSystem PathReference := operation do
  let resolved ← resolveIn env context path .follow
  tryCatch (do
    let metadata ← callbacks (Calls.queryMetadata env resolved.object.node)
    if metadata.type ≠ .socket then throw (.invalidArgument "pathname is not a socket")
    else if !isRam resolved.object.node then throw (.unsupported "socket paths require this VFS's RAM namespace")
    else do
      liftExcept (requireAccess metadata context.credentials accessWrite)
      admitSocketReference resolved.object) fun status => do
    callbacks (dropHeld env resolved.retained)
    throw status
  addSocketReference resolved.object
  pure ⟨resolved.object⟩

def link (sourceContext : ResolveContext) (oldPath : Path) (targetContext : ResolveContext) (newPath : Path) :
    Eff Status FileSystem PUnit := operation do
  let source ← resolveIn env sourceContext oldPath .noFollow
  withRetained env source do
    let metadata ← callbacks (Calls.queryMetadata env source.object.node)
    if metadata.type = .directory then throw (.permission "directories cannot be hard linked")
    else do
      let target ← resolveIn env targetContext newPath .parent
      withRetained env target do
        let vfs ← get
        let identity := (env vfs.calls.clock).identity
        if target.trailingSlash then throw (.notDirectory "hard link destination has a trailing slash")
        else if source.object.mountId ≠ target.object.mountId ∨ identity source.object.node ≠ identity target.object.node then
          throw (.crossDevice "hard link crosses mounts")
        else callbacks do
          parentAccess env targetContext target.object.node none
          requireAbsent env target.object.node target.leaf "hard link destination already exists"
          Calls.request env (.link target.object.node target.leaf source.object.node)

def renameHeld (sourceContext targetContext : ResolveContext) (old new : Resolution) (source : ℕ) (target : Option ℕ) :
    Eff Status FileSystem PUnit := do
  let vfs ← get
  let identity := (env vfs.calls.clock).identity
  let metadata ← callbacks (Calls.queryMetadata env source)
  if metadata.type ≠ .directory ∧ (old.trailingSlash ∨ new.trailingSlash) then
    throw (.notDirectory "file rename path has a trailing slash")
  else if old.object.mountId ≠ new.object.mountId ∨ identity old.object.node ≠ identity new.object.node then
    throw (.crossDevice "rename crosses mounts")
  else do
    callbacks (parentAccess env sourceContext old.object.node (some source))
    callbacks (parentAccess env targetContext new.object.node target)
    if ← protected? env source then throw (.busy "rename of a mount point or its ancestor is unavailable")
    else do
      let covered ← match target with
        | some target => protected? env target
        | none => pure false
      if covered then throw (.busy "rename of a mount point or its ancestor is unavailable")
      else callbacks (Calls.request env (.rename old.object.node old.leaf new.object.node new.leaf))

def rename (sourceContext : ResolveContext) (oldPath : Path) (targetContext : ResolveContext) (newPath : Path) :
    Eff Status FileSystem PUnit := operation do
  let old ← resolveIn env sourceContext oldPath .parent
  withRetained env old do
    let new ← resolveIn env targetContext newPath .parent
    withRetained env new do
      let source ← callbacks (Calls.lookupChildRetained env old.object.node old.leaf)
      withReference env source do
        let target ← callbacks (Calls.findChild env new.object.node new.leaf)
        scope env target nothing (renameHeld env sourceContext targetContext old new source target)

def remove (context : ResolveContext) (path : Path) (directory : Bool) : Eff Status FileSystem PUnit := operation do
  let resolved ← resolveIn env context path .parent
  withRetained env resolved do
    let node ← callbacks (Calls.lookupChildRetained env resolved.object.node resolved.leaf)
    withReference env node do
      let metadata ← callbacks (Calls.queryMetadata env node)
      callbacks (parentAccess env context resolved.object.node (some node))
      if resolved.trailingSlash ∧ metadata.type ≠ .directory then
        throw (.notDirectory "trailing slash requires a directory")
      else if directory ≠ decide (metadata.type = .directory) then
        throw (if directory then .notDirectory "path is not a directory" else .isDirectory "cannot unlink directory")
      else if ← protected? env node then throw (.busy "directory is a mount point")
      else do
        if directory then do
          let listing ← callbacks (Calls.ask env fun answers => answers.list node)
          if listing.length ≠ 0 then throw (.notEmpty "directory is not empty")
        callbacks (Calls.request env (if isRam resolved.object.node then .detachChild resolved.object.node resolved.leaf
          else .remove resolved.object.node resolved.leaf directory))

def onNode {α : Type} (context : ResolveContext) (path : Path) (policy : FinalComponent) (x : ℕ → Eff Status Calls α) :
    Eff Status FileSystem α := operation do
  let resolved ← resolveIn env context path policy
  withRetained env resolved (callbacks (x resolved.object.node))

def chmod (path : Path) (mode : BitVec 32) : Eff Status FileSystem PUnit :=
  onNode env {} path .follow fun node => Calls.request env (.chmod node mode)

def chown (path : Path) (uid gid : ℕ) : Eff Status FileSystem PUnit :=
  onNode env {} path .follow fun node => Calls.request env (.chown node uid gid)

def writeFile (path data : Path) : Eff Status FileSystem PUnit :=
  onNode env {} path .follow fun node => do
    Calls.request env (.truncate node 0)
    Calls.request env (.write node 0 data)

def readFile (path : Path) : Eff Status FileSystem Path :=
  onNode env {} path .follow fun node => do
    let metadata ← Calls.queryMetadata env node
    Calls.read env node 0 metadata.size

def list (path : Path) : Eff Status FileSystem (List Path) :=
  onNode env {} path .follow fun node => Calls.ask env fun answers => answers.list node

def stat (path : Path) : Eff Status FileSystem Metadata :=
  onNode env {} path .follow fun node => Calls.queryMetadata env node

def tryStatAbsolute (path : Path) (credentials : Credentials) (policy : FinalComponent) : Eff Status FileSystem Metadata :=
  if path = [] ∨ path.head? ≠ some '/' ∨ policy ≠ .follow ∧ policy ≠ .noFollow then
    throw (.unsupported "private admission stat requires an absolute path")
  else onNode env { credentials := credentials, checkSearch := true } path policy fun node => Calls.queryMetadata env node

def queryMetadata (node : ℕ) : Eff Status FileSystem Metadata := operation (callbacks (Calls.queryMetadata env node))

/-- The node keeps no reference; its identity is recorded as exposed. -/
def lookup (path : Path) : Eff Status FileSystem Place := operation do
  let resolved ← resolveIn env {} path .follow
  tryCatch (callbacks (Calls.request env (.expose resolved.object.node))) fun status => do
    callbacks (dropHeld env resolved.retained)
    throw status
  callbacks (releaseHeld env resolved.retained)
  pure resolved.object

def pathFrom (directory root : ℕ) (leading : Path) (expected : ℕ) : Eff Status FileSystem Path := do
  let relative ← callbacks (Calls.ask env fun answers => answers.directoryPath directory root)
  let path := (if leading = ['/'] then [] else leading) ++ relative
  if path.length ≥ 96 then throw (.overflow "directory path exceeds capacity")
  else do
    let path := if path = [] then ['/'] else path
    let actual ← resolveIn env {} path .follow
    withRetained env actual
      (if actual.object ≠ ⟨directory, expected⟩ then throw (.notFound "directory is covered or unreachable") else pure path)

def pathFromMounts (directory : ℕ) (first : Status) : List (MountRow × ℕ) → Eff Status FileSystem Path
  | [] => throw (if first.code = .unsupported then .notFound "directory is not reachable in the namespace" else first)
  | (row, i) :: rows =>
    if !row.attached then pathFromMounts directory first rows
    else tryCatch (pathFrom env directory row.root row.path (i + 1)) fun status =>
      if status.code ≠ .notFound ∧ status.code ≠ .unsupported then throw status else pathFromMounts directory first rows

def directoryPath (directory : ℕ) (mountId : Option ℕ) : Eff Status FileSystem Path := operation do
  let vfs ← get
  match mountId with
  | some mountId => liftExcept (vfs.mountTable.validateMountId mountId)
  | none => pure ⟨⟩
  let metadata ← callbacks (Calls.queryMetadata env directory)
  if metadata.type ≠ .directory then throw (.notDirectory "node is not a directory")
  else
    match mountId with
    | some mountId =>
      match vfs.mountTable.mountAt mountId with
      | some mount => pathFrom env directory mount.root mount.path mountId
      | none => pathFrom env directory vfs.root ['/'] 0
    | none => tryCatch (pathFrom env directory vfs.root ['/'] 0) fun status =>
      if status.code ≠ .notFound ∧ status.code ≠ .unsupported then throw status
      else pathFromMounts env directory status vfs.rows.zipIdx

def inspect (ns : Namespace) (node : ℕ) : Eff Status Calls Metadata := do
  if !isRam node then throw (.denied "archive directory requires owned RAM")
  else if ns.mounts.any fun mount => mount.attached && mount.coveredMountId = 0 && mount.covered = node then
    throw (.denied "archive directory path is mounted")
  else do
    let metadata ← Calls.queryMetadata env node
    if metadata.type ≠ .directory then throw (.notDirectory "archive directory collides with another node type")
    else if metadata.linkCount = 0 ∨ metadata.uid ≠ 0 ∨ metadata.gid ≠ 0 then
      throw (.denied "archive directory requires live root ownership")
    else pure metadata

def importFrom (ns : Namespace) (path : Path) (mode : BitVec 32) : ℕ → ℕ → ℕ → Eff Status Calls PUnit
  | 0, parent, _ => do
    Calls.drop env parent
    throw (.invalidArgument "archive directory has no final component")
  | fuel + 1, parent, cursor =>
    match nextSegment path cursor with
    | none => do
      Calls.drop env parent
      throw (.invalidArgument "archive directory has no final component")
    | some (segment, next) => do
      match ← Calls.holding env parent (Calls.findChild env parent segment) with
      | none => do
        Calls.holding env parent
          (if next ≠ path.length then throw (.notFound "archive directory parent is absent")
          else do
            match ← Calls.ask env fun answers => .ok (answers.allocateNode segment .directory false) with
            | none => throw (.noMemory "RAM VFS node pool exhausted")
            | some node => orAbandon env node do
              Calls.request env (.chmod node mode)
              Calls.request env (.chown node 0 0)
              Calls.request env (.attachChild parent node))
        Calls.release env parent
      | some node => do
        let metadata ← Calls.holding env parent (Calls.holding env node (inspect env isRam ns node))
        if next = path.length then do
          Calls.holding env parent do
            Calls.holding env node
              (if metadata.mode = 0o40000 ||| (mode &&& 0o7777) then pure ⟨⟩
              else throw (.alreadyExists "archive directory mode collision"))
            Calls.release env node
          Calls.release env parent
        else do
          Calls.holding env node (Calls.release env parent)
          importFrom ns path mode fuel node next

def importArchiveDirectory (path : Path) (mode : BitVec 32) : Eff Status FileSystem PUnit := operation do
  if mode &&& ~~~0o3777 ≠ 0 ∨ path.length < 2 ∨ path.length ≥ 128 ∨ path.head? ≠ some '/' ∨ path.getLast? = some '/' ∨
      doubled path ∨ Char.ofNat 0 ∈ path then
    throw (.invalidArgument "invalid archive directory path or permissions")
  else if anySegment (fun s => !validComponent s) path (path.length + 1) 0 then
    throw (.invalidArgument "invalid archive directory component")
  else do
    let vfs ← get
    callbacks do
      let _ ← inspect env isRam vfs.mountTable vfs.root
      Calls.retain env vfs.root
      importFrom env isRam vfs.mountTable path mode (path.length + 1) vfs.root 0

/-- `closed`: the file that is there is unshared and closed. -/
def createReadonlyFile (path data : Path) (mode : BitVec 32) (replace closed : Bool) : Eff Status FileSystem PUnit := operation do
  let resolved ← resolveIn env {} path .parent
  withRetained env resolved (callbacks do
    if resolved.leaf = [] then throw (.notFound "archive parent path not found")
    else if !isRam resolved.object.node then throw (.denied "archive requires RAM backing")
    else do
      match ← Calls.ask env fun answers => .ok (answers.lookup resolved.object.node resolved.leaf) with
      | some existing => do
        let metadata ← Calls.queryMetadata env existing
        if !replace ∨ metadata.type ≠ .regular then throw (.alreadyExists "archive path already exists")
        else if !closed then throw (.busy "archive replacement requires an unshared closed inode")
        else Calls.request env (.configureReadonly existing resolved.leaf data mode)
      | none => do
        match ← Calls.ask env fun answers => .ok (answers.allocateNode resolved.leaf .regular true) with
        | none => throw (.noMemory "RAM VFS node pool exhausted")
        | some node => orAbandon env node do
          Calls.request env (.configureReadonly node resolved.leaf data mode)
          Calls.request env (.attachChild resolved.object.node node))

end FileSystem

inductive Call
  | mountBorrowed (path : Path) (root : ℕ)
  | mountOwned (path : Path) (anchored : Bool)
  | mountRamOwned (path : Path) (mode : BitVec 32) (uid gid : ℕ)
  | detach (mount : MountHandle)
  | resolve (context : ResolveContext) (path : Path) (policy : FinalComponent)
  | create (context : ResolveContext) (path : Path) (creation : FileSystem.Creation)
  | createFile (context : ResolveContext) (path : Path) (mode : BitVec 32) (uid gid : ℕ) (followFinal : Bool)
  | createSocket (context : ResolveContext) (path : Path) (mode : BitVec 32)
  | resolveSocket (context : ResolveContext) (path : Path)
  | link (sourceContext : ResolveContext) (oldPath : Path) (targetContext : ResolveContext) (newPath : Path)
  | rename (sourceContext : ResolveContext) (oldPath : Path) (targetContext : ResolveContext) (newPath : Path)
  | remove (context : ResolveContext) (path : Path) (directory : Bool)
  | importArchiveDirectory (path : Path) (mode : BitVec 32)
  | createReadonlyFile (path data : Path) (mode : BitVec 32) (replace closed : Bool)
  | chmod (path : Path) (mode : BitVec 32)
  | chown (path : Path) (uid gid : ℕ)
  | writeFile (path data : Path)
  | readFile (path : Path)
  | list (path : Path)
  | stat (path : Path)
  | tryStatAbsolute (path : Path) (credentials : Credentials) (policy : FinalComponent)
  | queryMetadata (node : ℕ)
  | lookup (path : Path)
  | directoryPath (directory : ℕ) (mountId : Option ℕ)
  | release (reference : PathReference)
  | releaseSocket (reference : PathReference)

def Call.perform (env : ℕ → Answers) (isRam : ℕ → Bool) : Call → Eff Status FileSystem (Option PathReference)
  | mountBorrowed path root => (fun _ => none) <$> FileSystem.mountBorrowed env path root
  | mountOwned path anchored => (fun _ => none) <$> FileSystem.mountOwned env path anchored
  | mountRamOwned path mode uid gid => (fun _ => none) <$> FileSystem.mountRamOwned env path mode uid gid
  | detach mount => (fun _ => none) <$> FileSystem.detach env mount
  | resolve context path policy => some <$> FileSystem.resolve env context path policy
  | create context path creation => (fun _ => none) <$> FileSystem.create env isRam context path creation
  | createFile context path mode uid gid followFinal =>
    some <$> FileSystem.createFile env isRam context path mode uid gid followFinal
  | createSocket context path mode => some <$> FileSystem.createSocket env isRam context path mode
  | resolveSocket context path => some <$> FileSystem.resolveSocket env isRam context path
  | link sourceContext oldPath targetContext newPath =>
    (fun _ => none) <$> FileSystem.link env sourceContext oldPath targetContext newPath
  | rename sourceContext oldPath targetContext newPath =>
    (fun _ => none) <$> FileSystem.rename env sourceContext oldPath targetContext newPath
  | remove context path directory => (fun _ => none) <$> FileSystem.remove env isRam context path directory
  | importArchiveDirectory path mode => (fun _ => none) <$> FileSystem.importArchiveDirectory env isRam path mode
  | createReadonlyFile path data mode replace closed =>
    (fun _ => none) <$> FileSystem.createReadonlyFile env isRam path data mode replace closed
  | chmod path mode => (fun _ => none) <$> FileSystem.chmod env path mode
  | chown path uid gid => (fun _ => none) <$> FileSystem.chown env path uid gid
  | writeFile path data => (fun _ => none) <$> FileSystem.writeFile env path data
  | readFile path => (fun _ => none) <$> FileSystem.readFile env path
  | list path => (fun _ => none) <$> FileSystem.list env path
  | stat path => (fun _ => none) <$> FileSystem.stat env path
  | tryStatAbsolute path credentials policy => (fun _ => none) <$> FileSystem.tryStatAbsolute env path credentials policy
  | queryMetadata node => (fun _ => none) <$> FileSystem.queryMetadata env node
  | lookup path => (fun _ => none) <$> FileSystem.lookup env path
  | directoryPath directory mountId => (fun _ => none) <$> FileSystem.directoryPath env directory mountId
  | release reference => (fun _ => none) <$> FileSystem.release env reference
  | releaseSocket reference => (fun _ => none) <$> FileSystem.releaseSocketReference env isRam reference.place

end ObfuscationKernel.Fs.Vfs
