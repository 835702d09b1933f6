import ObfuscationKernel.Fs.VfsPosix

/-! Every resolution ends, and one that succeeds is a walk over the tree that the nodes show. -/

namespace ObfuscationKernel.Fs.Vfs

open ObfuscationKernel.Core Library List Library.Eff

section Components

variable {path rest segment : Path} {cursor next : ℕ}

@[simp] lemma components_nil : components [] = [] := by
  simp [components]

lemma components_append_slash (path rest : Path) : components (path ++ '/' :: rest) = components path ++ components rest := by
  rw [components, splitOn_append_cons_self, filter_append]
  rfl

@[simp] lemma components_slash (rest : Path) : components ('/' :: rest) = components rest := by
  have h := components_append_slash [] rest
  rwa [components_nil, nil_append, nil_append] at h

lemma components_segment (hne : segment ≠ []) (hs : '/' ∉ segment) : components segment = [segment] := by
  rw [components, splitOn_eq_singleton hs]
  simp [hne]

def AfterName (rest : Path) : Prop := rest = [] ∨ ∃ tail, rest = '/' :: tail

lemma components_append (h : AfterName rest) : components (path ++ rest) = components path ++ components rest := by
  rcases h with rfl | ⟨tail, rfl⟩
  · simp
  · rw [components_append_slash, components_slash]

lemma components_skip (path : Path) : components (path.dropWhile (· = '/')) = components path := by
  induction path with
  | nil => rfl
  | cons c path ih =>
  by_cases hc : c = '/'
  · rw [hc, dropWhile_cons_of_pos (by simp), components_slash, ih]
  · rw [dropWhile_cons_of_neg (by simpa using hc)]

lemma drop_takeWhile_length (p : Char → Bool) (l : Path) : l.drop (l.takeWhile p).length = l.dropWhile p := by
  induction l with
  | nil => rfl
  | cons c l ih =>
  by_cases hc : p c = true
  · rw [takeWhile_cons_of_pos hc, dropWhile_cons_of_pos hc, length_cons, drop_succ_cons, ih]
  · rw [takeWhile_cons_of_neg hc, dropWhile_cons_of_neg hc, length_nil, drop_zero]

lemma nextSegment_none (h : nextSegment path cursor = none) : components (path.drop cursor) = [] := by
  unfold nextSegment at h
  dsimp only at h
  split_ifs at h with hs
  rw [← components_skip, ← drop_takeWhile_length, drop_drop, drop_eq_nil_of_le hs, components_nil]

lemma slash_not_mem_takeWhile (path : Path) : '/' ∉ path.takeWhile (· ≠ '/') := by
  intro hmem
  have h := all_eq_true.mp (all_takeWhile (p := (· ≠ '/')) (l := path)) '/' hmem
  simp at h

lemma afterName_dropWhile (path : Path) : AfterName (path.dropWhile (· ≠ '/')) := by
  induction path with
  | nil => exact .inl rfl
  | cons c path ih =>
  by_cases hc : c = '/'
  · rw [hc, dropWhile_cons_of_neg (by simp)]
    exact .inr ⟨path, rfl⟩
  · rwa [dropWhile_cons_of_pos (by simpa using hc)]

lemma nextSegment_some (h : nextSegment path cursor = some (segment, next)) :
    segment ≠ [] ∧ '/' ∉ segment ∧ cursor < next ∧ next ≤ path.length ∧ AfterName (path.drop next) ∧
      components (path.drop cursor) = segment :: components (path.drop next) := by
  unfold nextSegment at h
  dsimp only at h
  split_ifs at h with hs
  set start := cursor + ((path.drop cursor).takeWhile (· = '/')).length with hstart
  rw [not_le] at hs
  obtain ⟨rfl, rfl⟩ := Prod.mk.inj (Option.some.inj h)
  have hskip : path.drop start = (path.drop cursor).dropWhile (· = '/') := by
    rw [← drop_takeWhile_length, drop_drop]
  have hsplit := takeWhile_append_dropWhile (p := (· ≠ '/')) (l := path.drop start)
  set segment := (path.drop start).takeWhile (· ≠ '/') with hsegment
  have hdrop : path.drop (start + segment.length) = (path.drop start).dropWhile (· ≠ '/') := by
    rw [← drop_takeWhile_length, drop_drop]
  have hslash : '/' ∉ segment := slash_not_mem_takeWhile _
  have hne : segment ≠ [] := by
    intro he
    obtain ⟨c, l, hc⟩ := exists_cons_of_ne_nil (drop_eq_nil_iff.not.mpr (not_le.mpr hs))
    have hhead := head?_dropWhile_not (· = '/') (path.drop cursor)
    rw [← hskip, hc] at hhead
    rw [hsegment, hc, takeWhile_cons] at he
    simp at hhead he
    exact hhead he
  have hlength : segment.length ≤ (path.drop start).length := by
    rw [← hsplit, length_append]
    exact Nat.le_add_right _ _
  have hpos := length_pos_iff.mpr hne
  rw [length_drop] at hlength
  refine ⟨hne, hslash, by omega, by omega, ?_, ?_⟩
  · rw [hdrop]
    exact afterName_dropWhile _
  · rw [← components_skip, ← hskip, ← hsplit, components_append (afterName_dropWhile _), components_segment hne hslash, hdrop]
    rfl

lemma components_eq_nil (path : Path) : components path = [] ↔ path.all (· = '/') = true := by
  induction path with
  | nil => simp
  | cons c path ih =>
  by_cases hc : c = '/'
  · rw [hc, components_slash, ih]
    simp
  simp only [all_cons, hc, decide_false, Bool.false_and, Bool.false_eq_true, iff_false]
  have hs := takeWhile_append_dropWhile (p := (· ≠ '/')) (l := c :: path)
  rw [← hs, components_append (afterName_dropWhile _), components_segment _ _]
  · simp
  · rw [takeWhile_cons_of_pos (by simpa using hc)]
    simp
  · exact slash_not_mem_takeWhile _

lemma endsInSlash_append (path : Path) (hr : rest ≠ []) : endsInSlash (path ++ rest) = endsInSlash rest := by
  rw [endsInSlash, getLast?_append, endsInSlash, getLast?_eq_some_getLast hr]
  rfl

lemma endsInSlash_slashes (hr : rest ≠ []) (hs : rest.all (· = '/') = true) : endsInSlash rest = true := by
  rw [endsInSlash, getLast?_eq_some_getLast hr]
  have := all_eq_true.mp hs _ (getLast_mem hr)
  simpa using this

lemma endsInSlash_of_last (h : nextSegment path cursor = some (segment, next)) (hf : (path.drop next).all (· = '/') = true) :
    endsInSlash path = decide (next < path.length) := by
  obtain ⟨hne, hslash, hlt, hle, -, -⟩ := nextSegment_some h
  have hsplit := (take_append_drop next path).symm
  by_cases hend : path.drop next = []
  · have hlen := drop_eq_nil_iff.mp hend
    rw [decide_eq_false (by omega)]
    unfold nextSegment at h
    dsimp only at h
    split_ifs at h with hs
    obtain ⟨hsegment, hnext⟩ := Prod.mk.inj (Option.some.inj h)
    set start := cursor + ((path.drop cursor).takeWhile (· = '/')).length
    have hlast : path.drop start = segment := by
      have hdrop : (path.drop start).dropWhile (· ≠ '/') = [] := by
        rw [← drop_takeWhile_length, drop_drop, hsegment]
        rw [hsegment] at hnext
        rw [hnext, hend]
      have hwhole := takeWhile_append_dropWhile (p := (· ≠ '/')) (l := path.drop start)
      rw [hdrop, append_nil, hsegment] at hwhole
      exact hwhole.symm
    rw [← take_append_drop start path, hlast, endsInSlash_append _ hne, endsInSlash, getLast?_eq_some_getLast hne]
    simp only [Option.some.injEq, decide_eq_false_iff_not]
    exact fun he => hslash (he ▸ getLast_mem hne)
  · rw [hsplit, endsInSlash_append _ hend, endsInSlash_slashes hend hf, ← hsplit, eq_comm, decide_eq_true_iff]
    exact not_le.mp fun hle => hend (drop_eq_nil_of_le hle)

lemma endsInSlash_follow (h : nextSegment path cursor = some (segment, next)) (target : Path) :
    endsInSlash (target ++ path.drop next) =
      (endsInSlash path || (decide (components (path.drop next) = []) && endsInSlash target)) := by
  by_cases hend : path.drop next = []
  · rw [endsInSlash_of_last h (by rw [hend]; rfl), hend, append_nil, components_nil,
      decide_eq_false (not_lt.mpr (drop_eq_nil_iff.mp hend))]
    simp
  have hlast : endsInSlash path = endsInSlash (path.drop next) := by
    conv_lhs => rw [← take_append_drop next path]
    exact endsInSlash_append _ hend
  rw [endsInSlash_append _ hend, hlast]
  by_cases hnil : components (path.drop next) = []
  · rw [endsInSlash_slashes hend ((components_eq_nil _).mp hnil)]
    rfl
  · rw [decide_eq_false hnil]
    simp

end Components

structure Answers.Shows (answers : Answers) (tree : Tree) : Prop where
  metadata {node : ℕ} {m : Metadata} (h : answers.queryMetadata node = .ok m) : m = tree.metadata node
  entry {node child : ℕ} {name : Path} (h : answers.lookupChild node name = .ok child) : tree.entry node name = some child
  absent {node : ℕ} {name : Path} {status : Status} (h : answers.lookupChild node name = .error status)
    (hs : status.code = .notFound) : tree.entry node name = none
  target {node : ℕ} {data : Path} (h : answers.read node 0 (tree.metadata node).size = .ok data)
    (hd : data.length = (tree.metadata node).size) : data = tree.target node

namespace Calls

variable {env : ℕ → Answers} {calls later : Calls} {tree : Tree}

lemma ask_ok {α : Type} {f : Answers → Result α} {a : α} (h : (ask env f).exec calls = (.ok a, later)) :
    ∃ k, f (env k) = .ok a := by
  rw [ask_exec] at h
  exact ⟨_, (Prod.mk.inj h).1⟩

variable {node : ℕ}

lemma holding_ok {α : Type} {x : Eff Status Calls α} {a : α}
    (h : (holding env node x).exec calls = (.ok a, later)) : x.exec calls = (.ok a, later) := by
  rw [holding, exec_tryCatch] at h
  rcases hx : x.exec calls with ⟨e | r, mid⟩
  · rw [hx] at h
    dsimp only at h
    rw [exec_bind] at h
    rcases hd : (drop env node).exec mid with ⟨e' | r', mid'⟩ <;> rw [hd] at h <;> cases h
  · rw [hx] at h
    exact h

variable (hshow : ∀ k, (env k).Shows tree)

include hshow

lemma queryMetadata_ok {m : Metadata} (h : (queryMetadata env node).exec calls = (.ok m, later)) :
    m = tree.metadata node := by
  obtain ⟨k, hk⟩ := ask_ok h
  exact (hshow k).metadata hk

lemma lookupChildRetained_ok {child : ℕ} {name : Path} (h : (lookupChildRetained env node name).exec calls = (.ok child, later)) :
    tree.entry node name = some child := by
  obtain ⟨c, mid, h1, h2⟩ := bind_ok_iff.mp h
  obtain ⟨k, hk⟩ := ask_ok h1
  obtain ⟨-, mid', -, h3⟩ := bind_ok_iff.mp h2
  cases h3
  exact (hshow k).entry hk

lemma findChild_ok {name : Path} {found : Option ℕ} (h : (findChild env node name).exec calls = (.ok found, later)) :
    tree.entry node name = found := by
  rw [findChild, exec_tryCatch, map_eq_pure_bind, exec_bind] at h
  rcases hl : (lookupChildRetained env node name).exec calls with ⟨e | c, mid⟩
  · rw [hl] at h
    dsimp only at h
    split_ifs at h with he
    · cases h
      rw [lookupChildRetained, exec_bind, ask_exec] at hl
      rcases hk : (env calls.clock).lookupChild node name with e' | c
      · rw [hk] at hl
        cases hl
        exact (hshow _).absent hk he
      · rw [hk] at hl
        cases hl
    · cases h
  rw [hl] at h
  cases h
  exact lookupChildRetained_ok hshow hl

end Calls

namespace Namespace

variable {ns : Namespace} {place mounted root : Place} {n : ℕ}

lemma mountedOn_some (h : ns.mountedOn place = some mounted) : ∃ i mount, ns.mounts[i]? = some mount ∧ mount.attached = true ∧
    place = ⟨mount.covered, mount.coveredMountId⟩ ∧ mounted = ⟨mount.root, i + 1⟩ := by
  obtain ⟨⟨mount, i⟩, hmem, hrow⟩ := exists_of_findSome?_eq_some h
  split_ifs at hrow with hc
  cases hrow
  refine ⟨i, mount, ?_, hc.1, ?_, rfl⟩
  · exact mem_zipIdx_iff_getElem?.mp hmem
  · rw [hc.2.1, hc.2.2]

/-- The attached mounts, and those that they cover, are among the first `n`. -/
def Within (ns : Namespace) (n : ℕ) : Prop :=
  ∀ (i : ℕ) (mount : Mount), ns.mounts[i]? = some mount → mount.attached = true → i < n ∧ mount.coveredMountId ≤ n

lemma Within.walkLand (h : ns.Within n) (turn : Turn) (ht : turn.place.mountId ≤ n) : (ns.walkLand turn).mountId ≤ n := by
  cases turn with
  | back => exact ht
  | into place =>
  show ((ns.mountedOn place).getD place).mountId ≤ n
  rcases hm : ns.mountedOn place with _ | mounted
  · exact ht
  · obtain ⟨i, mount, hi, ha, -, rfl⟩ := mountedOn_some hm
    exact (h i mount hi ha).1

lemma validateMountId_attached {mountId : ℕ} {mount : Mount} (h : ns.validateMountId mountId = .ok ⟨⟩)
    (hm : ns.mountAt mountId = some mount) : ∃ i : ℕ, ns.mounts[i]? = some mount ∧ mount.attached = true := by
  unfold validateMountId at h
  split_ifs at h with hv
  unfold mountAt at hm
  split_ifs at hm with h0
  refine ⟨_, hm, ?_⟩
  by_contra ha
  refine hv ⟨h0, .inr ?_⟩
  rw [mountAt, if_neg h0, hm]
  simpa using ha

lemma climb_ok {fuel : ℕ} {directory : Place} (h : ns.climb root fuel place = .ok directory) :
    ns.beneathMounts root fuel place = directory ∧ ∀ n, ns.Within n → place.mountId ≤ n → directory.mountId ≤ n := by
  induction fuel generalizing place with
  | zero => cases h
  | succ fuel ih =>
  unfold Namespace.climb at h
  unfold Namespace.beneathMounts
  rcases hv : ns.validateMountId place.mountId with e | _
  · rw [hv] at h
    cases h
  rcases hr : ns.validateMountId root.mountId with e | _
  · rw [hv, hr] at h
    cases h
  rw [hv, hr] at h
  split_ifs at h ⊢ with he
  · cases h
    exact ⟨rfl, fun _ _ hn => hn⟩
  cases hm : ns.mountAt place.mountId with
  | some mount =>
    rw [hm] at h
    dsimp only at h ⊢
    split_ifs at h ⊢
    · obtain ⟨hb, hn⟩ := ih h
      obtain ⟨i, hi, ha⟩ := validateMountId_attached hv hm
      exact ⟨hb, fun n hw _ => hn n hw (hw i mount hi ha).2⟩
    · cases h
      exact ⟨rfl, fun _ _ hn => hn⟩
  | none =>
  rw [hm] at h
  cases h
  exact ⟨rfl, fun _ _ hn => hn⟩

end Namespace

namespace Walk

variable {ns : Namespace} {env : ℕ → Answers} {context : ResolveContext} {root : Place} {policy : FinalComponent} {tree : Tree}
  {walk later : Walk}

lemma callbacks_ok {α : Type} {x : Eff Status Calls α} {a : α} (h : (callbacks x).exec walk = (.ok a, later)) :
    ∃ calls, x.exec walk.calls = (.ok a, calls) ∧ later = { walk with calls := calls } := by
  obtain ⟨h1, h2⟩ := Prod.mk.inj h
  exact ⟨_, Prod.ext h1 rfl, h2.symm⟩

variable {place : Place} {u : PUnit}

lemma moveTo_ok (h : (moveTo env place).exec walk = (.ok u, later)) :
    ∃ calls, later = { walk with calls := calls, current := place, held := some place.node } := by
  obtain ⟨_, mid, h1, h2⟩ := bind_ok_iff.mp h
  rw [transferRetained, exec_bind_ok (exec_get _), exec_bind_ok (exec_set _ _)] at h1
  split at h1
  · obtain ⟨_, mid', h3, h4⟩ := bind_ok_iff.mp h1
    obtain ⟨calls, -, rfl⟩ := callbacks_ok h3
    cases h4
    cases h2
    exact ⟨calls, rfl⟩
  cases h1
  cases h2
  exact ⟨walk.calls, rfl⟩

lemma atEntry_ok {leaf : Path} {trailing : Bool} {r : Option Resolution} (h : (atEntry leaf trailing).exec walk = (.ok r, later)) :
    r = some ⟨walk.current, leaf, trailing, walk.held⟩ ∧ later = { walk with held := none } := by
  cases h
  exact ⟨rfl, rfl⟩

lemma enter_ok (h : (enter ns env place).exec walk = (.ok u, later)) :
    ∃ calls, later = { walk with
      calls := calls
      held := some ((ns.mountedOn place).getD place).node
      current := (ns.mountedOn place).getD place } := by
  obtain ⟨_, mid, h1, h2⟩ := bind_ok_iff.mp h
  obtain ⟨calls, rfl⟩ := moveTo_ok h1
  split at h2
  next mounted hm =>
    obtain ⟨_, mid', h3, h4⟩ := bind_ok_iff.mp h2
    obtain ⟨calls', -, rfl⟩ := callbacks_ok h3
    obtain ⟨calls'', rfl⟩ := moveTo_ok h4
    rw [hm]
    exact ⟨calls'', rfl⟩
  next hm =>
    cases h2
    rw [hm]
    exact ⟨calls, rfl⟩

lemma symlinkTarget_ok {node size : ℕ} {rest target : Path} {calls after : Calls}
    (h : (symlinkTarget env node size rest).exec calls = (.ok target, after)) :
    (∃ k, (env k).read node 0 size = .ok target ∧ target.length = size) ∧ target ≠ [] ∧ target.length + rest.length < 256 := by
  unfold symlinkTarget at h
  split_ifs at h with h0 h1
  · cases h
  · cases h
  obtain ⟨data, mid, hr, h2⟩ := bind_ok_iff.mp h
  split_ifs at h2 with h3 h4 h5
  iterate 3 cases h2
  cases h2
  rw [not_or, not_le, not_le] at h5
  obtain ⟨k, hk⟩ := Calls.ask_ok hr
  refine ⟨⟨k, hk, not_not.mp h3⟩, ?_, h5.2⟩
  rintro rfl
  exact h0 (not_not.mp h3).symm

lemma followLink_ok {node size : ℕ} (h : (followLink env root node size).exec walk = (.ok u, later)) :
    walk.expansions < 40 ∧ ∃ target, (∃ k, (env k).read node 0 size = .ok target ∧ target.length = size) ∧
      target ≠ [] ∧ target.length + (walk.pending.drop walk.cursor).length < 256 ∧
      ∃ calls, later = { walk with
        calls := calls
        current := if target.head? = some '/' then root else walk.current
        held := if target.head? = some '/' then some root.node else walk.held
        pending := target ++ walk.pending.drop walk.cursor
        cursor := 0
        expansions := walk.expansions + 1 } := by
  rw [followLink, exec_bind_ok (exec_modify _ _), exec_bind_ok (exec_get _)] at h
  dsimp only at h
  obtain ⟨target, mid, h1, h2⟩ := bind_ok_iff.mp h
  obtain ⟨calls, h3, rfl⟩ := callbacks_ok h1
  have h4 := Calls.holding_ok h3
  split_ifs at h4 with hx
  · cases h4
  obtain ⟨hread, hne, hlen⟩ := symlinkTarget_ok h4
  obtain ⟨_, mid', h5, h6⟩ := bind_ok_iff.mp h2
  obtain ⟨calls', -, rfl⟩ := callbacks_ok h5
  refine ⟨by omega, target, hread, hne, hlen, ?_⟩
  split_ifs at h6 ⊢ with habs
  · obtain ⟨_, mid'', h7, h8⟩ := bind_ok_iff.mp h6
    obtain ⟨calls'', -, rfl⟩ := callbacks_ok h7
    obtain ⟨_, mid3, h9, h10⟩ := bind_ok_iff.mp h8
    obtain ⟨calls3, rfl⟩ := moveTo_ok h9
    cases h10
    exact ⟨calls3, rfl⟩
  · cases h6
    exact ⟨calls', rfl⟩

def Advances (walk later : Walk) : Prop :=
  walk.cursor < later.cursor ∧ later.cursor ≤ later.pending.length ∧ later.pending = walk.pending ∧
      later.expansions = walk.expansions ∨
    later.cursor = 0 ∧ later.pending.length < 256 ∧ later.expansions = walk.expansions + 1 ∧ later.expansions ≤ 40

def remaining (walk : Walk) : ℕ := (40 - walk.expansions) * 256 + (walk.pending.length - walk.cursor) + 1

lemma Advances.remaining_lt (h : Advances walk later) (hlen : walk.pending.length < 256) :
    later.pending.length < 256 ∧ remaining later < remaining walk := by
  rcases h with ⟨h1, h2, h3, h4⟩ | ⟨h1, h2, h3, h4⟩
  · rw [h3] at h2 ⊢
    exact ⟨hlen, by simp only [remaining, h3, h4]; omega⟩
  · exact ⟨h2, by simp only [remaining, h1, h3]; omega⟩

/-- What a walk of the code has before it, as a walk over the tree. -/
def stand (walk : Walk) : Stand := ⟨walk.current, components (walk.pending.drop walk.cursor), endsInSlash walk.pending⟩

lemma stand_eq {segment : Path} {next : ℕ} (h : nextSegment walk.pending walk.cursor = some (segment, next)) :
    walk.stand = ⟨walk.current, segment :: components (walk.pending.drop next), endsInSlash walk.pending⟩ := by
  rw [stand, (nextSegment_some h).2.2.2.2.2]

def Stepped (ns : Namespace) (tree : Tree) (context : ResolveContext) (root : Place) (policy : FinalComponent) (walk : Walk)
    (r : Option Resolution) (later : Walk) : Prop :=
  match r with
  | some resolution => Ends tree context policy walk.stand resolution.outcome
  | none => ∃ pace, Moves tree ns ns.walkLand context root policy walk.stand pace later.stand ∧
    later.expansions = walk.expansions + pace.links

def Holds (walk : Walk) : Prop := walk.held = some walk.current.node

def Kept (r : Option Resolution) (walk : Walk) : Prop :=
  match r with
  | some resolution => resolution.retained = some resolution.object.node
  | none => Holds walk

structure Taken (ns : Namespace) (env : ℕ → Answers) (context : ResolveContext) (root : Place) (policy : FinalComponent)
    (walk : Walk)
    (r : Option Resolution) (later : Walk) : Prop where
  stepped : ∀ tree, (∀ k, (env k).Shows tree) → Stepped ns tree context root policy walk r later
  advances : r = none → Advances walk later
  kept : Holds walk → Kept r later
  mount : ∀ n, ns.Within n → root.mountId ≤ n → walk.current.mountId ≤ n → (r.elim later.current Resolution.object).mountId ≤ n

lemma search_ok (h : search context (tree.metadata place.node) = .ok ⟨⟩) : Searchable tree context place := by
  unfold search at h
  split_ifs at h with hd hc
  · refine ⟨not_not.mp hd, fun _ => ?_⟩
    unfold requireAccess at h
    split_ifs at h with ha
    exact ha
  · exact ⟨not_not.mp hd, fun h => absurd h hc⟩

variable {r : Option Resolution} {calls after : Calls}

lemma atEnd_ok (hn : nextSegment walk.pending walk.cursor = none)
    (h : (atEnd env policy).exec walk = (.ok r, later)) : Taken ns env context root policy walk r later := by
  have hstand : walk.stand = ⟨walk.current, [], endsInSlash walk.pending⟩ := by
    rw [stand, nextSegment_none hn]
  rw [atEnd, exec_bind_ok (exec_get _)] at h
  split_ifs at h with hp hslash
  · cases h
  · obtain ⟨m, mid, h1, h2⟩ := bind_ok_iff.mp h
    obtain ⟨calls, hm, rfl⟩ := callbacks_ok h1
    split_ifs at h2 with hd
    · cases h2
    obtain ⟨rfl, rfl⟩ := atEntry_ok h2
    refine ⟨fun tree hshow => ?_, nofun, fun hw => hw, fun _ _ _ hc => hc⟩
    rw [Stepped, hstand]
    rw [Calls.queryMetadata_ok hshow hm, not_not] at hd
    exact .done hp fun _ => hd
  · obtain ⟨rfl, rfl⟩ := atEntry_ok h
    refine ⟨fun tree _ => ?_, nofun, fun hw => hw, fun _ _ _ hc => hc⟩
    rw [Stepped, hstand]
    exact .done hp fun he => absurd (by simpa [endsInSlash] using he) hslash

lemma parentReference_ok {place parent : Place} (h : (ns.parentReference env place root).exec calls = (.ok parent, after)) :
    (∀ tree, (∀ k, (env k).Shows tree) → ns.parentOf tree root place = some parent) ∧
      ∀ n, ns.Within n → place.mountId ≤ n → parent.mountId ≤ n := by
  obtain ⟨directory, mid, h1, h2⟩ := bind_ok_iff.mp h
  rw [exec_liftExcept] at h1
  obtain ⟨hc, rfl⟩ := Prod.mk.inj h1
  obtain ⟨hbeneath, hn⟩ := Namespace.climb_ok hc
  unfold Namespace.parentOf
  dsimp only
  rw [hbeneath]
  split_ifs at h2 ⊢ with hr
  · obtain ⟨_, mid', h3, h4⟩ := bind_ok_iff.mp h2
    cases h4
    rw [hr] at hn ⊢
    exact ⟨fun _ _ => rfl, hn⟩
  obtain ⟨node, mid', h3, h4⟩ := bind_ok_iff.mp h2
  cases h4
  refine ⟨fun tree hshow => ?_, hn⟩
  rw [Calls.lookupChildRetained_ok hshow h3]
  rfl

lemma atName_ok {segment : Path} {next : ℕ} {final trailing : Bool}
    (hn : nextSegment walk.pending walk.cursor = some (segment, next))
    (hs : ∀ tree, (∀ k, (env k).Shows tree) → Searchable tree context walk.current)
    (hfinal : final = true ↔ components (walk.pending.drop next) = [])
    (htrailing : final = true → trailing = endsInSlash walk.pending)
    (hv : ¬ isDots segment) (hp : components (walk.pending.drop next) ≠ [] ∨ ¬ policy.stopsBefore segment)
    (h : (atName ns env root policy segment final trailing).exec { walk with calls := calls, cursor := next } = (.ok r, later)) :
    Taken ns env context root policy walk r later := by
  obtain ⟨hne, -, hlt, hle, hafter, -⟩ := nextSegment_some hn
  rw [atName, exec_bind_ok (exec_get _)] at h
  split at h
  · cases h
  obtain ⟨found, mid, h1, h2⟩ := bind_ok_iff.mp h
  obtain ⟨calls', h3, rfl⟩ := callbacks_ok h1
  cases found with
  | none =>
    split_ifs at h2 with hc
    · obtain ⟨rfl, rfl⟩ := atEntry_ok h2
      refine ⟨fun tree hshow => ?_, nofun, fun hw => hw, fun _ _ _ hc => hc⟩
      rw [Stepped, stand_eq hn, hfinal.mp hc.1, Resolution.outcome, if_neg hne, htrailing hc.1]
      exact .absent (hs tree hshow) hv hc.2 (Calls.findChild_ok hshow h3)
    · cases h2
  | some node =>
  obtain ⟨m, mid', h4, h5⟩ := bind_ok_iff.mp h2
  obtain ⟨calls'', h6, rfl⟩ := callbacks_ok h4
  obtain ⟨m', mid'', h7, h8⟩ := bind_ok_iff.mp (Calls.holding_ok h6)
  split_ifs at h8 with hno
  · cases h8
  cases h8
  split_ifs at h5 with hlink
  · obtain ⟨_, mid3, h9, h10⟩ := bind_ok_iff.mp h5
    cases h10
    obtain ⟨hx, target, ⟨k, hread, hsize⟩, -, hlen, calls3, rfl⟩ := followLink_ok h9
    refine ⟨fun tree hshow => ⟨.link, ?_, rfl⟩, fun _ => .inr ⟨rfl, by rwa [← length_append] at hlen, rfl, hx⟩, fun hw => ?_,
      fun n _ hr hc => ?_⟩
    rotate_left
    · show (if target.head? = some '/' then some root.node else walk.held) = some (Place.node (if _ then root else walk.current))
      split_ifs
      · rfl
      · exact hw
    · show Place.mountId (if _ then root else walk.current) ≤ n
      split_ifs
      · exact hr
      · exact hc
    obtain rfl := Calls.queryMetadata_ok hshow h7
    obtain rfl := (hshow k).target hread hsize
    rw [stand_eq hn, stand, drop_zero, components_append hafter, endsInSlash_follow hn]
    refine .follow (hs tree hshow) hv hp (Calls.findChild_ok hshow h3) hlink.1 ?_
    have hf := hlink.2
    simp only [follows, Bool.or_eq_true, Bool.not_eq_true', decide_eq_true_eq] at hf
    rcases hf with ((hf | hf) | hf) | hf
    · exact .inl fun hc => by rw [hfinal.mpr hc] at hf; cases hf
    · rcases hb : final with _ | _
      · exact .inl fun hc => by rw [hfinal.mpr hc] at hb; cases hb
      · exact .inr (.inl (by rw [← htrailing hb, hf]))
    · exact .inr (.inr (.inl hf))
    · exact .inr (.inr (.inr hf))
  obtain ⟨_, mid3, h9, h10⟩ := bind_ok_iff.mp h5
  cases h10
  obtain ⟨calls3, rfl⟩ := enter_ok h9
  refine ⟨fun tree hshow => ⟨.turn (.into ⟨node, walk.current.mountId⟩), ?_, rfl⟩, fun _ => .inl ⟨hlt, hle, rfl, rfl⟩, fun _ => rfl,
    fun n hn _ hc => hn.walkLand (.into ⟨node, walk.current.mountId⟩) hc⟩
  obtain rfl := Calls.queryMetadata_ok hshow h7
  rw [stand_eq hn]
  refine .down (hs tree hshow) hv hp (Calls.findChild_ok hshow h3) fun hl => ?_
  have hf : ¬ follows policy final trailing = true := fun hf => hlink ⟨hl, hf⟩
  simp only [follows, Bool.or_eq_true, Bool.not_eq_true', decide_eq_true_eq, not_or, Bool.not_eq_false, Bool.not_eq_true] at hf
  obtain ⟨⟨⟨hb, ht⟩, hfo⟩, hct⟩ := hf
  exact ⟨hfinal.mp hb, by rw [← htrailing hb, ht], hfo, hct⟩

lemma step_ok (h : (step ns env context root policy).exec walk = (.ok r, later)) :
    Taken ns env context root policy walk r later := by
  rw [step, exec_bind_ok (exec_get _)] at h
  rcases hn : nextSegment walk.pending walk.cursor with _ | ⟨segment, next⟩
  · rw [hn] at h
    exact atEnd_ok hn h
  rw [hn] at h
  rw [exec_bind_ok (exec_set _ _)] at h
  obtain ⟨m, mid, h1, h2⟩ := bind_ok_iff.mp h
  obtain ⟨calls, hm, rfl⟩ := callbacks_ok h1
  obtain ⟨_, mid', h3, h4⟩ := bind_ok_iff.mp h2
  rw [exec_liftExcept] at h3
  obtain ⟨hsearch, rfl⟩ := Prod.mk.inj h3
  have hs tree (hshow : ∀ k, (env k).Shows tree) : Searchable tree context walk.current :=
    search_ok (Calls.queryMetadata_ok hshow hm ▸ hsearch)
  obtain ⟨hne, -, hlt, hle, -⟩ := nextSegment_some hn
  have hfinal := components_eq_nil (walk.pending.drop next)
  have htrailing (hf : (walk.pending.drop next).all (· = '/') = true) :
      ((walk.pending.drop next).all (· = '/') && decide (next < walk.pending.length)) = endsInSlash walk.pending := by
    rw [hf, Bool.true_and, endsInSlash_of_last hn hf]
  rw [atComponent, exec_bind_ok (exec_get _)] at h4
  dsimp only at h4
  split at h4
  next hstop =>
    split_ifs at h4 with hlong hvalid
    · cases h4
    · cases h4
    obtain ⟨rfl, rfl⟩ := atEntry_ok h4
    refine ⟨fun tree hshow => ?_, nofun, fun hw => hw, fun _ _ _ hc => hc⟩
    rw [Stepped, stand_eq hn, hfinal.mpr hstop.1, Resolution.outcome, if_neg hne, htrailing hstop.1]
    refine .stop (hs tree hshow) hstop.2 fun hdots => hvalid ?_
    rcases hdots with rfl | rfl <;> rfl
  next hstop =>
  have hpass : components (walk.pending.drop next) ≠ [] ∨ ¬ policy.stopsBefore segment := by
    by_contra hcon
    rw [not_or, not_not, not_not] at hcon
    exact hstop ⟨hfinal.mp hcon.1, hcon.2⟩
  have hgoes := hpass.imp_right fun hno hp => hno (.inl hp)
  split at h4
  next hdot =>
    subst hdot
    cases h4
    refine ⟨fun tree hshow => ⟨.stay, ?_, rfl⟩, fun _ => .inl ⟨hlt, hle, rfl, rfl⟩, fun hw => hw, fun _ _ _ hc => hc⟩
    rw [stand_eq hn]
    exact .dot (hs tree hshow) hgoes
  next hdot =>
  split at h4
  next hdots =>
    subst hdots
    obtain ⟨parent, mid, h5, h6⟩ := bind_ok_iff.mp h4
    obtain ⟨calls', hp, rfl⟩ := callbacks_ok h5
    obtain ⟨_, mid', h7, h8⟩ := bind_ok_iff.mp h6
    obtain ⟨calls'', rfl⟩ := moveTo_ok h7
    cases h8
    obtain ⟨hparent, hmount⟩ := parentReference_ok hp
    refine ⟨fun tree hshow => ⟨.turn (.back parent), ?_, rfl⟩, fun _ => .inl ⟨hlt, hle, rfl, rfl⟩, fun _ => rfl,
      fun n hn _ hc => hmount n hn hc⟩
    rw [stand_eq hn]
    exact .up (hs tree hshow) hgoes (hparent tree hshow)
  next hdots =>
    exact atName_ok hn hs hfinal.symm htrailing (fun h => h.elim hdot hdots) hpass h4

lemma run_ends {n : ℕ} (hlen : walk.pending.length < 256) (hn : remaining walk ≤ n) :
    ∃ outcome later, run ns env context root policy n walk = some (outcome, later) := by
  induction n generalizing walk with
  | zero =>
    simp only [remaining] at hn
    omega
  | succ n ih =>
  rw [run]
  rcases hx : (step ns env context root policy).exec walk with ⟨e | (_ | r), later⟩
  · exact ⟨_, _, rfl⟩
  · obtain ⟨hlen', hlt⟩ := ((step_ok hx).advances rfl).remaining_lt hlen
    exact ih hlen' (by omega)
  · exact ⟨_, _, rfl⟩

lemma run_walks {n : ℕ} {resolution : Resolution} (hshow : ∀ k, (env k).Shows tree) (hx : walk.expansions ≤ 40)
    (h : run ns env context root policy n walk = some (.ok resolution, later)) :
    ∃ links visited, walk.expansions + links ≤ 40 ∧
      Walks tree ns ns.walkLand context root policy walk.stand links visited resolution.outcome := by
  induction n generalizing walk with
  | zero => cases h
  | succ n ih =>
  rw [run] at h
  rcases hstep : (step ns env context root policy).exec walk with ⟨e | (_ | r), next⟩ <;> rw [hstep] at h
  · cases h
  · have ht := step_ok hstep
    obtain ⟨pace, hmoves, hcount⟩ := ht.stepped tree hshow
    have hnext : next.expansions ≤ 40 := by
      rcases ht.advances rfl with ⟨-, -, -, he⟩ | ⟨-, -, -, he⟩
      · exact he.trans_le hx
      · exact he
    obtain ⟨links, visited, hl, hw⟩ := ih hnext h
    exact ⟨_, _, by omega, .moves hmoves hw⟩
  · cases h
    exact ⟨0, [], hx, .ends ((step_ok hstep).stepped tree hshow)⟩

lemma run_mount {n : ℕ} {resolution : Resolution} (h : run ns env context root policy n walk = some (.ok resolution, later))
    {limit : ℕ} (hn : ns.Within limit) (hr : root.mountId ≤ limit) (hw : walk.current.mountId ≤ limit) :
    resolution.object.mountId ≤ limit := by
  induction n generalizing walk with
  | zero => cases h
  | succ n ih =>
  rw [run] at h
  rcases hstep : (step ns env context root policy).exec walk with ⟨e | (_ | r), next⟩ <;> rw [hstep] at h
  · cases h
  · exact ih h ((step_ok hstep).mount limit hn hr hw)
  · cases h
    exact (step_ok hstep).mount limit hn hr hw

end Walk

lemma Namespace.resolveUnlocked_run {ns : Namespace} {env : ℕ → Answers} {context : ResolveContext} {policy : FinalComponent}
    {path : Path} {calls later : Calls} {resolution : Resolution}
    (h : (ns.resolveUnlocked env context path policy).exec calls = (.ok resolution, later)) :
    ∃ calls walk, Walk.run ns env context (ns.rootOf context) policy walkLimit
      (.begin calls (ns.startOf context path) path) = some (.ok resolution, walk) := by
  unfold resolveUnlocked at h
  split at h
  · cases h
  split at h
  · cases h
  obtain ⟨_, _, -, h1⟩ := bind_ok_iff.mp h
  obtain ⟨_, _, -, h2⟩ := bind_ok_iff.mp h1
  split at h2
  · cases h2
  obtain ⟨_, c, -, h3⟩ := bind_ok_iff.mp h2
  obtain ⟨⟨result, held⟩, c', h4, h5⟩ := bind_ok_iff.mp h3
  rw [exec_mk] at h4
  split at h4
  next outcome walk hrun =>
    cases h4
    have hlift : ∃ c'', (liftExcept result : Eff Status Calls Resolution).exec c'' = (.ok resolution, later) := by
      split at h5
      · obtain ⟨_, c'', -, h6⟩ := bind_ok_iff.mp h5
        exact ⟨c'', h6⟩
      · exact ⟨_, h5⟩
    obtain ⟨c'', h6⟩ := hlift
    rw [exec_liftExcept] at h6
    obtain ⟨rfl, -⟩ := Prod.mk.inj h6
    exact ⟨c, walk, hrun⟩
  next => cases h4

lemma Namespace.Within.rootHandle {ns : Namespace} {n : ℕ} (h : ns.Within n) : ns.rootHandle.mountId ≤ n := by
  unfold Namespace.rootHandle
  split
  next mount i hfind =>
    have hattached := find?_some hfind
    rw [Bool.and_eq_true] at hattached
    exact (h i mount (mem_zipIdx_iff_getElem?.mp (mem_of_find?_eq_some hfind)) hattached.1).1
  next => exact Nat.zero_le n

lemma Namespace.resolveUnlocked_mount {ns : Namespace} {env : ℕ → Answers} {policy : FinalComponent} {path : Path}
    {calls later : Calls} {resolution : Resolution} {n : ℕ}
    (h : (ns.resolveUnlocked env {} path policy).exec calls = (.ok resolution, later)) (hn : ns.Within n) :
    resolution.object.mountId ≤ n := by
  obtain ⟨calls, walk, hrun⟩ := resolveUnlocked_run h
  exact Walk.run_mount hrun hn hn.rootHandle hn.rootHandle

end ObfuscationKernel.Fs.Vfs
