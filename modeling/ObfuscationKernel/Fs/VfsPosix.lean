import ObfuscationKernel.Fs.VfsResolve

/-! What a pathname means: a walk over a tree of nodes, component by component. -/

namespace ObfuscationKernel.Fs.Vfs

open ObfuscationKernel.Core

structure Tree where
  metadata : ℕ → Metadata
  entry : ℕ → Path → Option ℕ
  target : ℕ → Path

def Tree.isDirectory (tree : Tree) (place : Place) : Prop := (tree.metadata place.node).type = .directory

def components (path : Path) : List Path := (path.splitOn '/').filter (· ≠ [])

def endsInSlash (path : Path) : Bool := path.getLast? = some '/'

inductive Outcome
  | node (place : Place)
  | entry (directory : Place) (leaf : Path) (trailing : Bool)
  deriving DecidableEq, Repr

def Outcome.place : Outcome → Place
  | .node place => place
  | .entry directory _ _ => directory

def Resolution.outcome (resolution : Resolution) : Outcome :=
  if resolution.leaf = [] then .node resolution.object
  else .entry resolution.object resolution.leaf resolution.trailingSlash

/-- A component of a pathname leads down into an entry of a directory or back to a parent, before mounts are looked at. -/
inductive Turn
  | into (place : Place)
  | back (place : Place)
  deriving DecidableEq, Repr

def Turn.place : Turn → Place
  | into place => place
  | back place => place

inductive Pace
  | stay | link
  | turn (turn : Turn)
  deriving DecidableEq, Repr

def Pace.links : Pace → ℕ
  | link => 1
  | _ => 0

def Pace.places (land : Turn → Place) : Pace → List Place
  | turn t => [land t]
  | _ => []

/-- Where a walk stands: at a place with names to go, `trailing` if a slash follows the last of them. -/
structure Stand where
  place : Place
  names : List Path
  trailing : Bool

namespace Namespace

variable (ns : Namespace) (tree : Tree) (root : Place)

def uncovered : ℕ → Place → Place
  | 0, place => place
  | fuel + 1, place =>
    match ns.mountedOn place with
    | some mounted => uncovered fuel mounted
    | none => place

def Ordered : Prop := ∀ (i : ℕ) (mount : Mount), ns.mounts[i]? = some mount → mount.attached = true → mount.coveredMountId ≤ i

def beneathMounts (root : Place) : ℕ → Place → Place
  | 0, place => place
  | fuel + 1, place =>
    if place = root then place
    else
      match ns.mountAt place.mountId with
      | some mount => if place.node = mount.root then beneathMounts root fuel ⟨mount.covered, mount.coveredMountId⟩ else place
      | none => place

def parentOf (place : Place) : Option Place :=
  let directory := ns.beneathMounts root (ns.mounts.length + 2) place
  if directory = root then some root
  else (tree.entry directory.node ['.', '.']).map fun parent => ⟨parent, directory.mountId⟩

def posixLand (turn : Turn) : Place := ns.uncovered (ns.mounts.length + 1) turn.place

def walkLand : Turn → Place
  | .into place => (ns.mountedOn place).getD place
  | .back place => place

/-- No stack of mounts is entered, and no covered directory is gone back to. -/
def Clear : Turn → Prop
  | .into place => ∀ mounted, ns.mountedOn place = some mounted → ns.mountedOn mounted = none
  | .back place => ns.mountedOn place = none

end Namespace

section

variable (tree : Tree) (ns : Namespace) (land : Turn → Place) (context : ResolveContext) (root : Place) (policy : FinalComponent)

structure Searchable (place : Place) : Prop where
  directory : tree.isDirectory place
  execute : context.checkSearch = true → hasAccess (tree.metadata place.node) context.credentials accessExecute = true

def FinalComponent.stopsBefore (name : Path) : Prop :=
  policy = .parent ∨ policy = .createDirectory ∧ name ≠ ['.'] ∧ name ≠ ['.', '.']

def isDots (name : Path) : Prop := name = ['.'] ∨ name = ['.', '.']

inductive Moves : Stand → Pace → Stand → Prop
  | dot {place : Place} {rest : List Path} {trailing : Bool} (hs : Searchable tree context place)
      (hp : rest ≠ [] ∨ policy ≠ .parent) : Moves ⟨place, ['.'] :: rest, trailing⟩ .stay ⟨place, rest, trailing⟩
  | up {place parent : Place} {rest : List Path} {trailing : Bool} (hs : Searchable tree context place)
      (hp : rest ≠ [] ∨ policy ≠ .parent) (hu : ns.parentOf tree root place = some parent) :
      Moves ⟨place, ['.', '.'] :: rest, trailing⟩ (.turn (.back parent)) ⟨land (.back parent), rest, trailing⟩
  | follow {place : Place} {name : Path} {rest : List Path} {trailing : Bool} {node : ℕ} (hs : Searchable tree context place)
      (hd : ¬ isDots name) (hp : rest ≠ [] ∨ ¬ policy.stopsBefore name) (he : tree.entry place.node name = some node)
      (hl : (tree.metadata node).type = .symlink)
      (hf : rest ≠ [] ∨ trailing = true ∨ policy = .follow ∨ policy = .createTarget) :
      Moves ⟨place, name :: rest, trailing⟩ .link
        ⟨if (tree.target node).head? = some '/' then root else place, components (tree.target node) ++ rest,
          trailing || (decide (rest = []) && endsInSlash (tree.target node))⟩
  | down {place : Place} {name : Path} {rest : List Path} {trailing : Bool} {node : ℕ} (hs : Searchable tree context place)
      (hd : ¬ isDots name) (hp : rest ≠ [] ∨ ¬ policy.stopsBefore name) (he : tree.entry place.node name = some node)
      (hl : (tree.metadata node).type = .symlink → rest = [] ∧ trailing = false ∧ policy ≠ .follow ∧ policy ≠ .createTarget) :
      Moves ⟨place, name :: rest, trailing⟩ (.turn (.into ⟨node, place.mountId⟩))
        ⟨land (.into ⟨node, place.mountId⟩), rest, trailing⟩

inductive Ends : Stand → Outcome → Prop
  | done {place : Place} {trailing : Bool} (hp : policy ≠ .parent) (ht : trailing = true → tree.isDirectory place) :
      Ends ⟨place, [], trailing⟩ (.node place)
  | stop {place : Place} {name : Path} {trailing : Bool} (hs : Searchable tree context place) (hp : policy.stopsBefore name)
      (hd : ¬ isDots name) : Ends ⟨place, [name], trailing⟩ (.entry place name trailing)
  | absent {place : Place} {name : Path} {trailing : Bool} (hs : Searchable tree context place) (hd : ¬ isDots name)
      (hp : policy = .createTarget) (he : tree.entry place.node name = none) :
      Ends ⟨place, [name], trailing⟩ (.entry place name trailing)

/-- A whole walk: how many links it follows, the places on which its turns land, and its outcome. -/
inductive Walks : Stand → ℕ → List Place → Outcome → Prop
  | ends {stand : Stand} {outcome : Outcome} (h : Ends tree context policy stand outcome) : Walks stand 0 [] outcome
  | moves {stand next : Stand} {pace : Pace} {links : ℕ} {visited : List Place} {outcome : Outcome}
      (h : Moves tree ns land context root policy stand pace next) (hw : Walks next links visited outcome) :
      Walks stand (links + pace.links) (pace.places land ++ visited) outcome

/-- The turns of a walk, as far as it goes. -/
inductive Meets : Stand → Turn → Prop
  | here {stand next : Stand} {turn : Turn} (h : Moves tree ns land context root policy stand (.turn turn) next) : Meets stand turn
  | later {stand next : Stand} {pace : Pace} {turn : Turn} (h : Moves tree ns land context root policy stand pace next)
      (hm : Meets next turn) : Meets stand turn

end

end ObfuscationKernel.Fs.Vfs
