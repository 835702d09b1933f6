import ObfuscationKernel.Fs.VfsExact

/-! Where a resolution leads: to the place that a walk over the mounted tree has, and not out of its root. -/

namespace ObfuscationKernel.Fs.Vfs

open ObfuscationKernel.Core Library List Namespace

variable {ns : Namespace} {tree : Tree} {context : ResolveContext} {root : Place} {policy : FinalComponent}
  {land land' : Turn → Place}

section Unique

variable {stand next next' : Stand} {pace pace' : Pace} {links links' : ℕ} {visited visited' : List Place}
  {outcome outcome' : Outcome}

lemma not_follow {names : List Path} {trailing : Bool}
    (h : names = [] ∧ trailing = false ∧ policy ≠ .follow ∧ policy ≠ .createTarget) :
    ¬ (names ≠ [] ∨ trailing = true ∨ policy = .follow ∨ policy = .createTarget) := by
  obtain ⟨h1, h2, h3, h4⟩ := h
  simp [h1, h2, h3, h4]

/-- The stand after a move: where a turn lands is up to `land`, and nothing else is. -/
def Stand.landed (stand : Stand) (land : Turn → Place) : Pace → Stand
  | .turn turn => { stand with place := land turn }
  | _ => stand

lemma Moves.unique (h : Moves tree ns land context root policy stand pace next)
    (h' : Moves tree ns land' context root policy stand pace' next') : pace' = pace ∧ next' = next.landed land' pace := by
  cases h with
  | dot hs hp =>
    cases h' with
    | dot => exact ⟨rfl, rfl⟩
    | follow _ hd | down _ hd => exact absurd (.inl rfl) hd
  | up hs hp hu =>
    cases h' with
    | up _ _ hu' =>
      obtain rfl := Option.some.inj (hu.symm.trans hu')
      exact ⟨rfl, rfl⟩
    | follow _ hd | down _ hd => exact absurd (.inr rfl) hd
  | follow hs hd hp he hl hf =>
    cases h' with
    | dot => exact absurd (.inl rfl) hd
    | up => exact absurd (.inr rfl) hd
    | follow _ _ _ he' =>
      obtain rfl := Option.some.inj (he.symm.trans he')
      exact ⟨rfl, rfl⟩
    | down _ _ _ he' hl' =>
      obtain rfl := Option.some.inj (he.symm.trans he')
      exact absurd hf (not_follow (hl' hl))
  | down hs hd hp he hl =>
  cases h' with
  | dot => exact absurd (.inl rfl) hd
  | up => exact absurd (.inr rfl) hd
  | follow _ _ _ he' hl' hf' =>
    obtain rfl := Option.some.inj (he.symm.trans he')
    exact absurd hf' (not_follow (hl hl'))
  | down _ _ _ he' =>
  obtain rfl := Option.some.inj (he.symm.trans he')
  exact ⟨rfl, rfl⟩

lemma Moves.relanded (h : Moves tree ns land context root policy stand pace next) (land' : Turn → Place) :
    Moves tree ns land' context root policy stand pace (next.landed land' pace) := by
  cases h with
  | dot hs hp => exact .dot hs hp
  | up hs hp hu => exact .up hs hp hu
  | follow hs hd hp he hl hf => exact .follow hs hd hp he hl hf
  | down hs hd hp he hl => exact .down hs hd hp he hl

lemma Moves.turn_place {turn : Turn} (h : Moves tree ns land context root policy stand (.turn turn) next) :
    next.place = land turn := by
  cases h <;> rfl

lemma Ends.not_moves (h : Ends tree context policy stand outcome) : ¬ Moves tree ns land context root policy stand pace next := by
  intro h'
  cases h with
  | done => cases h'
  | stop hs hp hd =>
    cases h' with
    | dot => exact hd (.inl rfl)
    | up => exact hd (.inr rfl)
    | follow _ _ hp' | down _ _ hp' => exact hp'.resolve_left (fun h => h rfl) hp
  | absent hs hd hp he =>
  cases h' with
  | dot => exact hd (.inl rfl)
  | up => exact hd (.inr rfl)
  | follow _ _ _ he' | down _ _ _ he' => cases he.symm.trans he'

lemma Ends.not_meets {turn : Turn} (h : Ends tree context policy stand outcome) :
    ¬ Meets tree ns land context root policy stand turn := by
  rintro (h' | ⟨h', -⟩)
  · exact h.not_moves h'
  · exact h.not_moves h'

lemma Meets.step {turn : Turn} (hm : Meets tree ns land context root policy stand turn)
    (h : Moves tree ns land context root policy stand pace next) :
    pace = .turn turn ∨ Meets tree ns land context root policy next turn := by
  cases hm with
  | here hm => exact .inl (hm.unique h).1
  | later hm hmeets =>
    obtain ⟨rfl, rfl⟩ := h.unique hm
    obtain ⟨-, hself⟩ := h.unique h
    rw [hself]
    exact .inr hmeets

lemma Ends.unique (h : Ends tree context policy stand outcome) (h' : Ends tree context policy stand outcome') :
    outcome = outcome' := by
  cases h <;> cases h' <;> rfl

lemma Walks.unique (h : Walks tree ns land context root policy stand links visited outcome)
    (h' : Walks tree ns land context root policy stand links' visited' outcome') :
    links = links' ∧ visited = visited' ∧ outcome = outcome' := by
  induction h generalizing links' visited' outcome' with
  | ends h =>
    cases h' with
    | ends h' => exact ⟨rfl, rfl, h.unique h'⟩
    | moves h' => exact absurd h' h.not_moves
  | moves h _ ih =>
  cases h' with
  | ends h' => exact absurd h h'.not_moves
  | moves h' hw' =>
  obtain ⟨rfl, rfl⟩ := h.unique h'
  obtain ⟨-, hself⟩ := h.unique h
  rw [← hself] at hw'
  obtain ⟨rfl, rfl, rfl⟩ := ih hw'
  exact ⟨rfl, rfl, rfl⟩

end Unique

namespace Namespace

variable {place mounted : Place}

lemma Ordered.mountedOn_lt (ho : ns.Ordered) (h : ns.mountedOn place = some mounted) :
    place.mountId < mounted.mountId ∧ mounted.mountId ≤ ns.mounts.length := by
  obtain ⟨i, mount, hi, ha, rfl, rfl⟩ := mountedOn_some h
  have := ho i mount hi ha
  have := (List.getElem?_eq_some_iff.mp hi).1
  exact ⟨by dsimp only; omega, by dsimp only; omega⟩

lemma uncovered_of_none (h : ns.mountedOn place = none) (fuel : ℕ) : ns.uncovered fuel place = place := by
  cases fuel with
  | zero => rfl
  | succ fuel => rw [uncovered, h]

lemma Ordered.mountedOn_uncovered (ho : ns.Ordered) {fuel : ℕ} (hf : ns.mounts.length < fuel + place.mountId) :
    ns.mountedOn (ns.uncovered fuel place) = none := by
  induction fuel generalizing place with
  | zero =>
    rcases hm : ns.mountedOn place with _ | mounted
    · exact hm
    · have := ho.mountedOn_lt hm
      omega
  | succ fuel ih =>
  rw [uncovered]
  rcases hm : ns.mountedOn place with _ | mounted
  · exact hm
  · have := ho.mountedOn_lt hm
    exact ih (by omega)

end Namespace

section Posix

variable {stand : Stand} {links links' : ℕ} {visited visited' : List Place} {outcome : Outcome} {turn : Turn}

lemma Namespace.Ordered.mountedOn_posixLand (ho : ns.Ordered) (turn : Turn) : ns.mountedOn (ns.posixLand turn) = none :=
  ho.mountedOn_uncovered (by omega)

lemma Namespace.Clear.posixLand (h : ns.Clear turn) : ns.posixLand turn = ns.walkLand turn := by
  cases turn with
  | back place => exact uncovered_of_none h _
  | into place =>
  show ns.uncovered (ns.mounts.length + 1) place = (ns.mountedOn place).getD place
  rw [uncovered]
  rcases hm : ns.mountedOn place with _ | mounted
  · rfl
  · exact uncovered_of_none (h mounted hm) _

lemma Namespace.Ordered.clear_of_lands (ho : ns.Ordered) (h : ns.walkLand turn = ns.posixLand turn) : ns.Clear turn := by
  have hfree := ho.mountedOn_posixLand turn
  rw [← h] at hfree
  cases turn with
  | back place => exact hfree
  | into place =>
  intro mounted hm
  rwa [Namespace.walkLand, hm, Option.getD_some] at hfree

/-- A walk that meets no turn on which the two ways to land differ is a walk of the other kind. -/
lemma Walks.posix (h : Walks tree ns ns.walkLand context root policy stand links visited outcome)
    (hclear : ∀ turn, Meets tree ns ns.posixLand context root policy stand turn → ns.Clear turn) :
    Walks tree ns ns.posixLand context root policy stand links visited outcome := by
  induction h with
  | ends h => exact .ends h
  | @moves stand next pace links visited outcome h _ ih =>
  have hsame : next.landed ns.posixLand pace = next ∧ pace.places ns.walkLand = pace.places ns.posixLand := by
    cases pace with
    | stay | link => exact ⟨rfl, rfl⟩
    | turn turn =>
    have hland := (hclear turn (.here (h.relanded _))).posixLand
    rw [Stand.landed, hland, ← h.turn_place, Pace.places, Pace.places, hland]
    exact ⟨rfl, rfl⟩
  have hposix := h.relanded ns.posixLand
  rw [hsame.1] at hposix
  rw [hsame.2]
  exact .moves hposix (ih fun turn hm => hclear turn (.later hposix hm))

lemma Walks.clear (ho : ns.Ordered) (h : Walks tree ns ns.walkLand context root policy stand links visited outcome)
    (h' : Walks tree ns ns.posixLand context root policy stand links' visited' outcome) (hv : visited' = visited)
    (hm : Meets tree ns ns.posixLand context root policy stand turn) : ns.Clear turn := by
  induction h generalizing links' visited' with
  | ends h => exact absurd hm h.not_meets
  | @moves stand next pace links visited outcome h _ ih =>
  cases h' with
  | ends h' => exact absurd h h'.not_moves
  | @moves _ next' pace' _ rest _ h' hw' =>
  obtain ⟨rfl, rfl⟩ := h.unique h'
  -- Both walks land on the first of the places.
  have hsame : next.landed ns.posixLand pace' = next ∧ rest = visited ∧ ∀ t, pace' = .turn t → ns.Clear t := by
    cases pace' with
    | stay | link => exact ⟨rfl, hv, nofun⟩
    | turn t =>
    obtain ⟨hland, hrest⟩ := List.cons.inj hv
    refine ⟨?_, hrest, fun u hu => ?_⟩
    · rw [Stand.landed, hland, ← h.turn_place]
    · cases hu
      exact ho.clear_of_lands hland.symm
  rw [hsame.1] at h' hw'
  exact (hm.step h').elim (hsame.2.2 turn) (ih hw' hsame.2.1)

lemma Walks.place_free (ho : ns.Ordered) (h : Walks tree ns ns.posixLand context root policy stand links visited outcome) :
    outcome.place = stand.place ∨ outcome.place = root ∨ ns.mountedOn outcome.place = none := by
  induction h with
  | ends h => cases h <;> exact .inl rfl
  | @moves stand next pace links visited outcome h hw ih =>
  rcases ih with ih | ih
  · rw [ih]
    cases h with
    | dot => exact .inl rfl
    | up | down => exact .inr (.inr (ho.mountedOn_posixLand _))
    | follow =>
      dsimp only
      split_ifs
      · exact .inr (.inl rfl)
      · exact .inl rfl
  · exact .inr ih

end Posix

/-- The places at and below `root`: through the entries of directories and the mounts on them. -/
inductive Beneath (ns : Namespace) (tree : Tree) (root : Place) : Place → Prop
  | root : Beneath ns tree root root
  | child {directory : Place} {name : Path} {node : ℕ} (h : Beneath ns tree root directory) (hd : ¬ isDots name)
      (he : tree.entry directory.node name = some node) : Beneath ns tree root ⟨node, directory.mountId⟩
  | mounted {i : ℕ} {mount : Mount} (hm : ns.mounts[i]? = some mount) (ha : mount.attached = true)
      (h : Beneath ns tree root ⟨mount.covered, mount.coveredMountId⟩) : Beneath ns tree root ⟨mount.root, i + 1⟩

inductive Tree.Below (tree : Tree) (top : ℕ) : ℕ → Prop
  | top : Below tree top top
  | child {node child : ℕ} {name : Path} (h : Below tree top node) (hd : ¬ isDots name) (he : tree.entry node name = some child) :
      Below tree top child

/-- The directories form trees: each is in at most one directory, its parent, and none is below itself. -/
structure Tree.Sound (tree : Tree) : Prop where
  parent {node child up : ℕ} {name : Path} (hd : ¬ isDots name) (he : tree.entry node name = some child)
    (hp : tree.entry child ['.', '.'] = some up) : up = node
  acyclic {node child : ℕ} {name : Path} (hd : ¬ isDots name) (he : tree.entry node name = some child) : ¬ tree.Below child node

namespace Namespace

def Lies (ns : Namespace) (tree : Tree) (place : Place) : Prop :=
  ∀ mount, ns.mountAt place.mountId = some mount → mount.attached = true ∧ tree.Below mount.root place.node

lemma mountAt_succ (i : ℕ) : ns.mountAt (i + 1) = ns.mounts[i]? := rfl

lemma mountAt_le {mountId : ℕ} {mount : Mount} (h : ns.mountAt mountId = some mount) :
    0 < mountId ∧ mountId ≤ ns.mounts.length := by
  cases mountId with
  | zero => cases h
  | succ i =>
    have := (List.getElem?_eq_some_iff.mp h).1
    omega

variable {place : Place}

lemma Lies.of_beneath (hr : ns.Lies tree root) (h : Beneath ns tree root place) : ns.Lies tree place := by
  induction h with
  | root => exact hr
  | child _ hd he ih =>
    intro mount hm
    exact ⟨(ih mount hm).1, .child (ih mount hm).2 hd he⟩
  | @mounted i mount hm ha _ _ =>
  intro mount' hm'
  rw [mountAt_succ, hm] at hm'
  cases hm'
  exact ⟨ha, .top⟩

lemma Lies.covered (hr : ns.Lies tree root) (hs : tree.Sound) (h : Beneath ns tree root place) (hne : place ≠ root)
    {mount : Mount} (hm : ns.mountAt place.mountId = some mount) (hroot : place.node = mount.root) :
    Beneath ns tree root ⟨mount.covered, mount.coveredMountId⟩ := by
  cases h with
  | root => exact absurd rfl hne
  | child h hd he =>
    subst hroot
    exact absurd (hr.of_beneath h mount hm).2 (hs.acyclic hd he)
  | mounted hm' _ h =>
  rw [mountAt_succ, hm'] at hm
  cases hm
  exact h

lemma beneathMounts_beneath (hr : ns.Lies tree root) (hs : tree.Sound) (fuel : ℕ) (h : Beneath ns tree root place) :
    Beneath ns tree root (ns.beneathMounts root fuel place) := by
  induction fuel generalizing place with
  | zero => exact h
  | succ fuel ih =>
  rw [beneathMounts]
  split_ifs with he
  · exact h
  split
  next mount hm =>
    split_ifs with hroot
    · exact ih (hr.covered hs h he hm hroot)
    · exact h
  next => exact h

lemma Ordered.beneathMounts_end (ho : ns.Ordered) (hr : ns.Lies tree root) (hs : tree.Sound) {fuel : ℕ}
    (h : Beneath ns tree root place) (hf : ∀ mount, ns.mountAt place.mountId = some mount → place.mountId < fuel) :
    ns.beneathMounts root fuel place = root ∨ ∀ mount, ns.mountAt (ns.beneathMounts root fuel place).mountId = some mount →
      (ns.beneathMounts root fuel place).node ≠ mount.root := by
  induction fuel generalizing place with
  | zero => exact .inr fun mount hm => absurd (hf mount hm) (by omega)
  | succ fuel ih =>
  rw [beneathMounts]
  split_ifs with he
  · exact .inl he
  split
  next mount hm =>
    split_ifs with hroot
    · obtain ⟨i, hi⟩ := Nat.exists_eq_succ_of_ne_zero (mountAt_le hm).1.ne'
      have hat := hm
      rw [hi, mountAt_succ] at hat
      have hle := ho i mount hat (hr.of_beneath h mount hm).1
      have hlt := hf mount hm
      exact ih (hr.covered hs h he hm hroot) fun _ _ => by dsimp only; omega
    refine .inr fun mount' hm' => ?_
    rw [hm] at hm'
    cases hm'
    exact hroot
  next hm =>
    refine .inr fun mount' hm' => ?_
    rw [hm] at hm'
    cases hm'

lemma Ordered.parentOf_beneath (ho : ns.Ordered) (hr : ns.Lies tree root) (hs : tree.Sound) {parent : Place}
    (h : Beneath ns tree root place) (hp : ns.parentOf tree root place = some parent) : Beneath ns tree root parent := by
  have hid (mount : Mount) (hm : ns.mountAt place.mountId = some mount) : place.mountId < ns.mounts.length + 2 := by
    have := (mountAt_le hm).2
    omega
  unfold parentOf at hp
  dsimp only at hp
  split_ifs at hp with he
  · cases hp
    exact .root
  obtain ⟨up, hup, rfl⟩ := Option.map_eq_some_iff.mp hp
  have hend := (ho.beneathMounts_end hr hs h hid).resolve_left he
  have hbelow := beneathMounts_beneath hr hs (ns.mounts.length + 2) h
  generalize ns.beneathMounts root (ns.mounts.length + 2) place = directory at *
  cases hbelow with
  | root => exact absurd rfl he
  | child hd hn hentry =>
    rw [hs.parent hn hentry hup]
    exact hd
  | mounted hm _ _ => exact absurd rfl (hend _ hm)

end Namespace

lemma Walks.beneath (ho : ns.Ordered) (hr : ns.Lies tree root) (hs : tree.Sound) {stand : Stand} {links : ℕ}
    {visited : List Place} {outcome : Outcome} (h : Walks tree ns ns.walkLand context root policy stand links visited outcome)
    (hb : Beneath ns tree root stand.place) : (∀ p ∈ visited, Beneath ns tree root p) ∧ Beneath ns tree root outcome.place := by
  induction h with
  | ends h => cases h <;> exact ⟨by simp, hb⟩
  | @moves stand next pace links visited outcome h _ ih =>
  suffices hstep : Beneath ns tree root next.place ∧ ∀ p ∈ pace.places ns.walkLand, Beneath ns tree root p by
    obtain ⟨h1, h2⟩ := ih hstep.1
    exact ⟨fun p hp => (mem_append.mp hp).elim (hstep.2 p) (h1 p), h2⟩
  cases h with
  | dot => exact ⟨hb, by simp [Pace.places]⟩
  | up _ _ hu =>
    have hp := ho.parentOf_beneath hr hs hb hu
    exact ⟨hp, by simpa [Pace.places, walkLand] using hp⟩
  | follow =>
    refine ⟨?_, by simp [Pace.places]⟩
    dsimp only
    split_ifs
    · exact .root
    · exact hb
  | @down place _ _ _ node _ hd _ he =>
  have hc : Beneath ns tree root ⟨node, place.mountId⟩ := .child hb hd he
  have hp : Beneath ns tree root (ns.walkLand (.into ⟨node, place.mountId⟩)) := by
    rw [walkLand]
    rcases hm : ns.mountedOn ⟨node, place.mountId⟩ with _ | mounted
    · exact hc
    obtain ⟨i, mount, hi, ha, hplace, rfl⟩ := mountedOn_some hm
    rw [hplace] at hc
    exact .mounted hi ha hc
  exact ⟨hp, by simpa [Pace.places] using hp⟩

section Resolve

variable {env : ℕ → Answers} {calls later : Calls} {path : Path}

/-- Where the walk of a resolution begins. -/
def Namespace.standOf (ns : Namespace) (context : ResolveContext) (path : Path) : Stand :=
  ⟨ns.startOf context path, components path, endsInSlash path⟩

lemma resolveUnlocked_walks (hshow : ∀ k, (env k).Shows tree) {resolution : Resolution}
    (h : (ns.resolveUnlocked env context path policy).exec calls = (.ok resolution, later)) :
    ∃ links visited, links ≤ 40 ∧ Walks tree ns ns.walkLand context (ns.rootOf context) policy (ns.standOf context path) links
      visited resolution.outcome := by
  obtain ⟨calls, walk, hrun⟩ := resolveUnlocked_run h
  obtain ⟨links, visited, hl, hw⟩ := Walk.run_walks hshow (Nat.zero_le 40) hrun
  exact ⟨links, visited, (Nat.le_add_left _ _).trans hl, hw⟩

lemma outcome_place (resolution : Resolution) : resolution.outcome.place = resolution.object := by
  unfold Resolution.outcome
  split_ifs <;> rfl

/-- A resolution ends after at most 40 links. One that succeeds is a walk in directories that the caller may search, and does not
leave its root. It lands where POSIX does exactly if the POSIX walk enters no stack of mounts and goes back to no covered
directory, and then its outcome is the only POSIX outcome; a covered place that it has come to is never that. -/
theorem resolve_posix (hshow : ∀ k, (env k).Shows tree) (ho : ns.Ordered) (context : ResolveContext) (path : Path)
    (policy : FinalComponent) (calls : Calls) :
    (path.length < 256 → ∃ outcome later, Walk.run ns env context (ns.rootOf context) policy walkLimit
      (.begin calls (ns.startOf context path) path) = some (outcome, later)) ∧
    ∀ resolution later, (ns.resolveUnlocked env context path policy).exec calls = (.ok resolution, later) →
      ∃ links visited, links ≤ 40 ∧
        Walks tree ns ns.walkLand context (ns.rootOf context) policy (ns.standOf context path) links visited resolution.outcome ∧
        (Walks tree ns ns.posixLand context (ns.rootOf context) policy (ns.standOf context path) links visited resolution.outcome ↔
          ∀ turn, Meets tree ns ns.posixLand context (ns.rootOf context) policy (ns.standOf context path) turn → ns.Clear turn) ∧
        ((∀ turn, Meets tree ns ns.posixLand context (ns.rootOf context) policy (ns.standOf context path) turn → ns.Clear turn) →
          ∀ links' visited' outcome, Walks tree ns ns.posixLand context (ns.rootOf context) policy (ns.standOf context path)
            links' visited' outcome → outcome = resolution.outcome) ∧
        (∀ links' visited', Walks tree ns ns.posixLand context (ns.rootOf context) policy (ns.standOf context path) links' visited'
            resolution.outcome → resolution.object = ns.startOf context path ∨ resolution.object = ns.rootOf context ∨
          ns.mountedOn resolution.object = none) ∧
        (tree.Sound → ns.Lies tree (ns.rootOf context) → Beneath ns tree (ns.rootOf context) (ns.startOf context path) →
          (∀ place ∈ visited, Beneath ns tree (ns.rootOf context) place) ∧
            Beneath ns tree (ns.rootOf context) resolution.object) := by
  refine ⟨fun hlen => Walk.run_ends hlen ?_, fun resolution later h => ?_⟩
  · simp only [Walk.remaining, Walk.begin, walkLimit]
    omega
  obtain ⟨links, visited, hl, hw⟩ := resolveUnlocked_walks hshow h
  refine ⟨links, visited, hl, hw, ⟨fun hw' turn hm => hw.clear ho hw' rfl hm, hw.posix⟩,
    fun hclear links' visited' outcome hw' => ?_, fun links' visited' hw' => ?_, fun hs hr hb => ?_⟩
  · exact ((hw.posix hclear).unique hw').2.2.symm
  · have hfree := hw'.place_free ho
    rwa [outcome_place] at hfree
  · have hbeneath := hw.beneath ho hr hs hb
    rwa [outcome_place] at hbeneath

def Tree.answers (tree : Tree) : Answers where
  queryMetadata node := .ok (tree.metadata node)
  lookupChild node name :=
    match tree.entry node name with
    | some child => .ok child
    | none => .error (.notFound "directory entry not found")
  read node _ _ := .ok (tree.target node)

lemma Tree.answers_shows (tree : Tree) : tree.answers.Shows tree where
  metadata h := by
    cases h
    rfl
  entry {node child name} h := by
    unfold Tree.answers at h
    dsimp only at h
    split at h
    next he =>
      cases h
      exact he
    next => cases h
  absent {node name status} h _ := by
    unfold Tree.answers at h
    dsimp only at h
    split at h
    next => cases h
    next he => exact he
  target h _ := by
    cases h
    rfl

def fewDirectories : Tree where
  metadata _ := { type := .directory }
  entry node name :=
    match node, name with
    | 0, ['a'] => some 1
    | 1, ['b'] => some 2
    | 0, ['.', '.'] => some 0
    | 1, ['.', '.'] => some 0
    | 2, ['.', '.'] => some 1
    | 3, ['.', '.'] => some 3
    | 4, ['.', '.'] => some 4
    | _, _ => none
  target _ := []

def oneMount : Namespace := ⟨0, [⟨.ownedRam, ['/', 'a'], 3, 1, 0⟩]⟩

def stackedMounts : Namespace := ⟨0, [⟨.ownedRam, ['/', 'a'], 3, 1, 0⟩, ⟨.ownedRam, ['/', 'A'], 4, 3, 1⟩]⟩

lemma fewDirectories_searchable {context : ResolveContext} (hc : context.checkSearch = false) (place : Place) :
    Searchable fewDirectories context place :=
  ⟨rfl, fun h => by rw [hc] at h; cases h⟩

section

variable {land : Turn → Place} {place : Place} {rest : List Path} {trailing : Bool}

lemma fewDirectories_down (hc : context.checkSearch = false) (hp : place.node = 0) :
    Moves fewDirectories ns land context root .follow ⟨place, ['a'] :: rest, trailing⟩ (.turn (.into ⟨1, place.mountId⟩))
      ⟨land (.into ⟨1, place.mountId⟩), rest, trailing⟩ :=
  .down (fewDirectories_searchable hc _) (by simp [isDots]) (.inr (by simp [FinalComponent.stopsBefore])) (by rw [hp]; rfl) nofun

lemma fewDirectories_up (hc : context.checkSearch = false) (parent : Place)
    (hu : ns.parentOf fewDirectories root place = some parent) :
    Moves fewDirectories ns land context root .follow ⟨place, ['.', '.'] :: rest, trailing⟩ (.turn (.back parent))
      ⟨land (.back parent), rest, trailing⟩ :=
  .up (fewDirectories_searchable hc _) (.inr (by decide)) hu

lemma fewDirectories_ends : Ends fewDirectories context .follow ⟨place, [], false⟩ (.node place) := .done (by decide) nofun

end

theorem resolve_posix_oneMount : ∃ links visited, links ≤ 40 ∧
    Walks fewDirectories oneMount oneMount.posixLand {} ⟨0, 0⟩ .follow
      (oneMount.standOf {} ['/', 'a', '/', '.', '.', '/', 'a']) links
      visited (.node ⟨3, 1⟩) := by
  have ho : oneMount.Ordered := by
    rintro (_ | i) mount hm _
    · cases hm
      exact le_rfl
    · cases hm
  have hresult : ((oneMount.resolveUnlocked (fun _ => fewDirectories.answers) {} ['/', 'a', '/', '.', '.', '/', 'a'] .follow).exec
      {}).1 = .ok ⟨⟨3, 1⟩, [], false, some 3⟩ := by decide +kernel
  have hclear (place : Place) : oneMount.Clear (.into place) := by
    intro mounted hm
    obtain ⟨_ | i, mount, hi, -, -, rfl⟩ := mountedOn_some hm
    · cases hi
      rfl
    · cases hi
  obtain ⟨-, h⟩ := resolve_posix (fun _ => fewDirectories.answers_shows) ho {} ['/', 'a', '/', '.', '.', '/', 'a'] .follow {}
  obtain ⟨links, visited, hl, -, hposix, -⟩ := h _ _ (Prod.ext hresult rfl)
  refine ⟨links, visited, hl, hposix.mpr fun turn hm => ?_⟩
  rcases hm.step (fewDirectories_down rfl rfl) with he | hm
  · cases he
    exact hclear _
  rcases hm.step (fewDirectories_up rfl ⟨0, 0⟩ rfl) with he | hm
  · cases he
    rfl
  rcases hm.step (fewDirectories_down rfl rfl) with he | hm
  · cases he
    exact hclear _
  · exact absurd hm fewDirectories_ends.not_meets

/-- A walk down comes to the root of the first mount and a walk up to the directory under it, and both are covered. A walk that
goes down and up again comes to the right place, over the wrong one. -/
theorem resolve_not_posix :
    (((stackedMounts.resolveUnlocked (fun _ => fewDirectories.answers) {} ['/', 'a'] .follow).exec {}).1 =
        .ok ⟨⟨3, 1⟩, [], false, some 3⟩ ∧
      Walks fewDirectories stackedMounts stackedMounts.posixLand {} ⟨0, 0⟩ .follow (stackedMounts.standOf {} ['/', 'a'])
        0 [⟨4, 2⟩] (.node ⟨4, 2⟩) ∧
      ¬ ∃ links visited, Walks fewDirectories stackedMounts stackedMounts.posixLand {} ⟨0, 0⟩ .follow
        (stackedMounts.standOf {} ['/', 'a']) links visited (.node ⟨3, 1⟩)) ∧
    (((oneMount.resolveUnlocked (fun _ => fewDirectories.answers) { start := ⟨some 2, 0⟩ } ['.', '.'] .follow).exec {}).1 =
        .ok ⟨⟨1, 0⟩, [], false, some 1⟩ ∧
      Walks fewDirectories oneMount oneMount.posixLand { start := ⟨some 2, 0⟩ } ⟨0, 0⟩ .follow
        (oneMount.standOf { start := ⟨some 2, 0⟩ } ['.', '.']) 0 [⟨3, 1⟩] (.node ⟨3, 1⟩) ∧
      ¬ ∃ links visited, Walks fewDirectories oneMount oneMount.posixLand { start := ⟨some 2, 0⟩ } ⟨0, 0⟩ .follow
        (oneMount.standOf { start := ⟨some 2, 0⟩ } ['.', '.']) links visited (.node ⟨1, 0⟩)) ∧
    ((stackedMounts.resolveUnlocked (fun _ => fewDirectories.answers) {} ['/', 'a', '/', '.', '.'] .follow).exec {}).1 =
        .ok ⟨⟨0, 0⟩, [], false, some 0⟩ ∧
      Walks fewDirectories stackedMounts stackedMounts.posixLand {} ⟨0, 0⟩ .follow
        (stackedMounts.standOf {} ['/', 'a', '/', '.', '.']) 0 [⟨4, 2⟩, ⟨0, 0⟩] (.node ⟨0, 0⟩) := by
  have hdown : Walks fewDirectories stackedMounts stackedMounts.posixLand {} ⟨0, 0⟩ .follow (stackedMounts.standOf {} ['/', 'a'])
      0 [⟨4, 2⟩] (.node ⟨4, 2⟩) := .moves (fewDirectories_down rfl rfl) (.ends fewDirectories_ends)
  have hup : Walks fewDirectories oneMount oneMount.posixLand { start := ⟨some 2, 0⟩ } ⟨0, 0⟩ .follow
      (oneMount.standOf { start := ⟨some 2, 0⟩ } ['.', '.']) 0 [⟨3, 1⟩] (.node ⟨3, 1⟩) :=
    .moves (fewDirectories_up rfl ⟨1, 0⟩ rfl) (.ends fewDirectories_ends)
  refine ⟨⟨by decide +kernel, hdown, ?_⟩, ⟨by decide +kernel, hup, ?_⟩, by decide +kernel,
    .moves (fewDirectories_down rfl rfl) (.moves (fewDirectories_up rfl ⟨0, 0⟩ rfl) (.ends fewDirectories_ends))⟩
  · rintro ⟨links, visited, h⟩
    exact absurd (hdown.unique h).2.2 (by decide)
  · rintro ⟨links, visited, h⟩
    exact absurd (hup.unique h).2.2 (by decide)

end Resolve

end ObfuscationKernel.Fs.Vfs
