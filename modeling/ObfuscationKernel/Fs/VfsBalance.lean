import ObfuscationKernel.Library.Ledger
import ObfuscationKernel.Fs.VfsExact
import ObfuscationKernel.Fs.VfsOps

/-! The references that a resolution takes are those that it hands out. -/

namespace ObfuscationKernel.Fs.Vfs

open ObfuscationKernel.Core Library Calls

def one (node : ℕ) : ℕ → ℤ := Pi.single node 1

def owed (held : Option ℕ) : ℕ → ℤ := held.elim 0 one

@[simp] lemma owed_none : owed none = 0 := rfl

@[simp] lemma owed_some (node : ℕ) : owed (some node) = one node := rfl

namespace Calls

variable {env : ℕ → Answers} {α : Type}

abbrev Owes (h : ℕ → ℤ) (x : Eff Status Calls α) (g : α → ℕ → ℤ) : Prop := Eff.Owes Calls.references h x g

lemma count_owes (node : ℕ) (n : ℤ) {h g : ℕ → ℤ} (hg : g = h + Pi.single node n) : Owes h (count node n) fun _ => g := by
  intro calls
  funext i
  rw [hg]
  by_cases hi : i = node
  · subst hi
    simp only [Pi.add_apply, Function.update_self, Pi.single_eq_same]
    ring
  · simp [hi]

lemma ask_owes (f : Answers → Result α) : Owes 0 (ask env f) fun _ => 0 := by
  intro calls
  rw [ask_exec]
  rcases f (env calls.clock) with e | b
  · exact add_zero _
  · rfl

lemma request_owes (r : Request) : Owes 0 (request env r) fun _ => 0 := ask_owes _

lemma ignore_owes (r : Request) : Owes 0 (ignore env r) fun _ => 0 := .tryCatch (request_owes r) fun _ => .pure rfl

lemma queryMetadata_owes (node : ℕ) : Owes 0 (queryMetadata env node) fun _ => 0 := ask_owes _

lemma read_owes (node offset n : ℕ) : Owes 0 (read env node offset n) fun _ => 0 := ask_owes _

lemma retain_owes (node : ℕ) : Owes 0 (retain env node) fun _ => one node :=
  .bind (ask_owes _) fun _ => count_owes node 1 (zero_add _).symm

lemma release_owes (node : ℕ) : Owes (one node) (release env node) fun _ => 0 :=
  .bind (count_owes node (-1) (by rw [one, ← Pi.single_add]; simp)) fun _ => ask_owes _

lemma lookupChildRetained_owes (node : ℕ) (name : Path) : Owes 0 (lookupChildRetained env node name) one :=
  .bind (ask_owes _) fun child => .bind (count_owes child 1 (zero_add _).symm) fun _ => .pure rfl

lemma findChild_owes (node : ℕ) (name : Path) : Owes 0 (findChild env node name) owed := by
  refine .tryCatch ?_ fun status => ?_
  · rw [map_eq_pure_bind]
    exact .bind (lookupChildRetained_owes node name) fun child => .pure rfl
  split_ifs
  · exact .pure rfl
  · exact .throw

lemma drop_owes (node : ℕ) : Owes (one node) (drop env node) fun _ => 0 := .tryCatch (release_owes node) fun _ => .pure rfl

lemma drop_ok (node : ℕ) (calls : Calls) : ∃ u later, (drop env node).exec calls = (.ok u, later) := by
  rw [drop, Eff.exec_tryCatch]
  rcases (release env node).exec calls with ⟨e | u, later⟩
  · exact ⟨_, _, rfl⟩
  · exact ⟨_, _, rfl⟩

variable {x : Eff Status Calls α}

lemma holding_owes {node : ℕ} {h : ℕ → ℤ} {g : α → ℕ → ℤ} (hx : Owes h x g) :
    Owes (h + one node) (holding env node x) fun b => g b + one node := .onFailure hx (drop_owes node)

lemma holding_owes_self {node : ℕ} (hx : Owes 0 x fun _ => 0) : Owes (one node) (holding env node x) fun _ => one node := by
  have h : Owes (0 + one node) (holding env node x) fun _ => 0 + one node := holding_owes hx
  rwa [zero_add] at h

end Calls

lemma Namespace.parentReference_owes {env : ℕ → Answers} (ns : Namespace) (directory root : Place) :
    Calls.Owes 0 (ns.parentReference env directory root) fun place => one place.node := by
  refine .bind (.liftExcept fun _ _ => rfl) fun directory => ?_
  split_ifs
  · exact .bind (retain_owes _) fun _ => .pure rfl
  · exact .bind (lookupChildRetained_owes _ _) fun parent => .pure rfl

namespace Walk

variable {ns : Namespace} {env : ℕ → Answers} {context : ResolveContext} {root : Place} {policy : FinalComponent} {α : Type}

def free (walk : Walk) : ℕ → ℤ := walk.calls.references - owed walk.held

abbrev Owes (h : ℕ → ℤ) (x : Eff Status Walk α) (g : α → ℕ → ℤ) : Prop := Eff.Owes Walk.free h x g

def handed (r : Option Resolution) : ℕ → ℤ := owed (r.bind Resolution.retained)

lemma callbacks_owes {x : Eff Status Calls α} {h : ℕ → ℤ} {g : α → ℕ → ℤ} (hx : Calls.Owes h x g) : Owes h (callbacks x) g := by
  refine .part (fun walk calls => ?_) hx
  simp only [free]
  abel

lemma transferRetained_owes (node : ℕ) : Owes (one node) (transferRetained env node) fun _ => 0 := by
  intro walk
  rw [transferRetained, Eff.exec_bind_ok (Eff.exec_get _), Eff.exec_bind_ok (Eff.exec_set _ _)]
  rcases hh : walk.held with _ | old
  · show walk.calls.references - owed (some node) + one node = walk.calls.references - owed walk.held + 0
    rw [hh, owed_some, owed_none]
    abel
  have h : Calls.Owes (one old + one node) (holding env node (release env old)) fun _ => 0 + one node :=
    holding_owes (release_owes old)
  have h := h walk.calls
  rw [Eff.exec_bind, callbacks, Eff.exec_part]
  rcases hr : (holding env node (release env old)).exec walk.calls with ⟨e | u, later⟩ <;> rw [hr] at h <;>
    dsimp only [free, Eff.exec_modify] at h ⊢ <;> rw [hh]
  · simp only [owed_some, owed_none]
    linear_combination h
  · simp only [owed_some]
    linear_combination h

lemma modify_owes {m : Walk → Walk} {h : ℕ → ℤ} (hc : ∀ walk, (m walk).calls = walk.calls)
    (hh : ∀ walk, (m walk).held = walk.held) : Owes h (modify m) fun _ => h := by
  refine .modify fun walk => ?_
  rw [free, hc, hh, free]

lemma moveTo_owes (place : Place) : Owes (one place.node) (moveTo env place) fun _ => 0 :=
  .bind (transferRetained_owes _) fun _ => modify_owes (fun _ => rfl) fun _ => rfl

lemma atEntry_owes (leaf : Path) (trailing : Bool) : Owes 0 (atEntry leaf trailing) handed := by
  intro walk
  show walk.calls.references - owed none + 0 = walk.calls.references - owed walk.held + owed walk.held
  abel

lemma atEnd_owes : Owes 0 (atEnd env policy) handed := by
  refine .get_bind fun walk => ?_
  split_ifs
  · exact .throw
  · refine .bind (callbacks_owes (queryMetadata_owes _)) fun metadata => ?_
    split_ifs
    · exact .throw
    · exact atEntry_owes _ _
  · exact atEntry_owes _ _

lemma symlinkTarget_owes (node size : ℕ) (rest : Path) : Calls.Owes 0 (symlinkTarget env node size rest) fun _ => 0 := by
  unfold symlinkTarget
  split_ifs
  · exact .throw
  · exact .throw
  refine .bind (read_owes _ _ _) fun target => ?_
  split_ifs
  iterate 3 exact .throw
  · exact .pure rfl

lemma followLink_owes (node size : ℕ) : Owes (one node) (followLink env root node size) fun _ => 0 := by
  refine .bind (modify_owes (fun _ => rfl) fun _ => rfl) fun _ => .get_bind fun walk => ?_
  refine .bind (g := fun _ => one node) (callbacks_owes (holding_owes_self ?_)) fun target =>
    .bind (callbacks_owes (release_owes node)) fun _ => ?_
  · split_ifs
    · exact .throw
    · exact symlinkTarget_owes _ _ _
  split_ifs
  · exact .bind (callbacks_owes (retain_owes _)) fun _ => .bind (moveTo_owes root) fun _ =>
      modify_owes (fun _ => rfl) fun _ => rfl
  · exact modify_owes (fun _ => rfl) fun _ => rfl

lemma enter_owes (place : Place) : Owes (one place.node) (enter ns env place) fun _ => 0 := by
  refine .bind (moveTo_owes place) fun _ => ?_
  split
  · exact .bind (callbacks_owes (retain_owes _)) fun _ => moveTo_owes _
  · exact .pure rfl

lemma atName_owes (segment : Path) (final trailing : Bool) : Owes 0 (atName ns env root policy segment final trailing) handed := by
  refine .get_bind fun walk => ?_
  split
  · exact .throw
  refine .bind (callbacks_owes (findChild_owes _ _)) fun found => ?_
  cases found with
  | none =>
    split_ifs
    · exact atEntry_owes _ _
    · exact .throw
  | some node =>
  refine .bind (g := fun _ => one node) (callbacks_owes (holding_owes_self ?_)) fun metadata => ?_
  · refine .bind (queryMetadata_owes _) fun metadata => ?_
    split_ifs
    · exact .throw
    · exact .pure rfl
  split_ifs
  · exact .bind (followLink_owes _ _) fun _ => .pure rfl
  · exact .bind (enter_owes ⟨node, walk.current.mountId⟩) fun _ => .pure rfl

lemma atComponent_owes (segment : Path) : Owes 0 (atComponent ns env root policy segment) handed := by
  refine .get_bind fun walk => ?_
  dsimp only
  split
  · split_ifs
    · exact .throw
    · exact .throw
    · exact atEntry_owes _ _
  split_ifs
  · exact .pure rfl
  · exact .bind (callbacks_owes (ns.parentReference_owes _ _)) fun parent => .bind (moveTo_owes parent) fun _ => .pure rfl
  · exact atName_owes _ _ _

lemma step_owes : Owes 0 (step ns env context root policy) handed := by
  intro walk
  rw [step, Eff.exec_bind_ok (Eff.exec_get _)]
  rcases nextSegment walk.pending walk.cursor with _ | ⟨segment, next⟩
  · exact atEnd_owes walk
  have h : Owes 0 (do
      let parentMetadata ← callbacks (queryMetadata env walk.current.node)
      liftExcept (search context parentMetadata)
      atComponent ns env root policy segment) handed :=
    .bind (callbacks_owes (queryMetadata_owes _)) fun _ => .bind (.liftExcept fun _ _ => rfl) fun _ => atComponent_owes _
  exact h { walk with cursor := next }

lemma run_free (n : ℕ) (walk : Walk) {outcome : Result Resolution} {later : Walk}
    (h : run ns env context root policy n walk = some (outcome, later)) :
    later.free = walk.free + owed (outcome.toOption.bind Resolution.retained) := by
  induction n generalizing walk with
  | zero => cases h
  | succ n ih =>
  rw [run] at h
  have hs : Owes 0 (step ns env context root policy) handed := step_owes
  have hs := hs walk
  rcases hx : (step ns env context root policy).exec walk with ⟨e | (_ | r), next⟩ <;> rw [hx] at hs h <;> dsimp only at hs h <;>
    rw [add_zero] at hs
  · cases h
    rw [hs]
    exact (add_zero _).symm
  · rw [ih next h, hs]
    exact congrArg (· + _) (add_zero _)
  · cases h
    exact hs

lemma run_keeps (n : ℕ) {walk later : Walk} {resolution : Resolution} (hw : Holds walk)
    (h : run ns env context root policy n walk = some (.ok resolution, later)) :
    resolution.retained = some resolution.object.node := by
  induction n generalizing walk with
  | zero => cases h
  | succ n ih =>
  rw [run] at h
  rcases hx : (step ns env context root policy).exec walk with ⟨e | (_ | r), next⟩ <;> rw [hx] at h
  · cases h
  · exact ih ((step_ok hx).kept hw) h
  · cases h
    exact (step_ok hx).kept hw

end Walk

namespace Namespace

variable {ns : Namespace} {env : ℕ → Answers} {context : ResolveContext} {root start : Place} {policy : FinalComponent}
  {path : Path}

lemma walkFrom_owes (hlen : path.length < 256) :
    Calls.Owes 0 (ns.walkFrom env context root start path policy) fun r => owed r.retained := by
  refine .bind (retain_owes _) fun _ => ?_
  refine .bind (g := fun outcome => owed outcome.2 + owed (outcome.1.toOption.bind Resolution.retained)) ?_ fun outcome => ?_
  · intro calls
    rw [Eff.exec_mk]
    obtain ⟨outcome, walk, hr⟩ : ∃ outcome walk,
        Walk.run ns env context root policy walkLimit (.begin calls start path) = some (outcome, walk) := by
      refine Walk.run_ends hlen ?_
      simp only [Walk.remaining, Walk.begin, walkLimit]
      omega
    rw [hr]
    have h := Walk.run_free _ _ hr
    simp only [Walk.free, Walk.begin, owed_some] at h
    linear_combination h
  obtain ⟨result, held⟩ := outcome
  have hend : Calls.Owes (owed (result.toOption.bind Resolution.retained)) (liftExcept result) fun r => owed r.retained := by
    cases result with
    | error e => exact .throw
    | ok r => exact .pure rfl
  cases held with
  | none =>
    rw [owed_none, zero_add]
    exact hend
  | some node =>
  refine .bind (g := fun _ => owed (result.toOption.bind Resolution.retained)) ?_ fun _ => hend
  have h : Calls.Owes (one node + _) (drop env node) fun _ => 0 + owed (result.toOption.bind Resolution.retained) :=
    (drop_owes node).frame (drop_ok node)
  rwa [zero_add] at h

lemma resolveUnlocked_owes : Calls.Owes 0 (ns.resolveUnlocked env context path policy) fun r => owed r.retained := by
  unfold resolveUnlocked
  split
  · exact .throw
  split
  · exact .throw
  refine .bind (.liftExcept fun _ _ => rfl) fun _ => .bind (.liftExcept fun _ _ => rfl) fun _ => ?_
  split
  · exact .throw
  next hlen => exact walkFrom_owes (not_le.mp hlen)

lemma resolveUnlocked_retained {calls later : Calls} {r : Resolution}
    (h : (ns.resolveUnlocked env context path policy).exec calls = (.ok r, later)) : r.retained = some r.object.node := by
  obtain ⟨c, walk, hrun⟩ := resolveUnlocked_run h
  have hw : Walk.Holds (.begin c (ns.startOf context path) path) := rfl
  exact Walk.run_keeps _ hw hrun

end Namespace

end ObfuscationKernel.Fs.Vfs
