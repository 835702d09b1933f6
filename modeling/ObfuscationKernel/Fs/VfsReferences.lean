import ObfuscationKernel.Fs.VfsBalance

/-! Every operation leaves as many references as it hands out and stores. -/

namespace ObfuscationKernel.Fs.Vfs

open ObfuscationKernel.Core Library List Calls

def MountRow.stored (row : MountRow) : ℕ → ℤ :=
  match row.phase with
  | .owned => one row.covered
  | .ownedRam => one row.covered + one row.root
  | _ => 0

def stored (rows : List MountRow) : ℕ → ℤ := (rows.map MountRow.stored).sum

variable {rows : List MountRow}

lemma stored_modify {index : ℕ} {row : MountRow} (h : rows[index]? = some row) (f : MountRow → MountRow) :
    stored (rows.modify index f) + row.stored = stored rows + (f row).stored := by
  induction rows generalizing index with
  | nil => cases h
  | cons first rows ih =>
  cases index with
  | zero =>
    cases h
    simp only [stored, modify_zero_cons, map_cons, sum_cons]
    abel
  | succ index =>
  have ih := ih h
  simp only [stored, modify_succ_cons, map_cons, sum_cons] at ih ⊢
  linear_combination ih

lemma stored_modify_same {index : ℕ} {f : MountRow → MountRow} (hf : ∀ row, (f row).stored = row.stored) :
    stored (rows.modify index f) = stored rows := by
  rcases hi : rows[index]? with _ | row
  · rw [modify_eq_self (getElem?_eq_none_iff.mp hi)]
  have h := stored_modify hi f
  rw [hf] at h
  exact add_right_cancel h

namespace FileSystem

variable {env : ℕ → Answers} {isRam : ℕ → Bool} {α : Type} {h : ℕ → ℤ} {g : α → ℕ → ℤ}

def free (vfs : FileSystem) : ℕ → ℤ := vfs.calls.references - stored vfs.rows

abbrev Owes (h : ℕ → ℤ) (x : Eff Status FileSystem α) (g : α → ℕ → ℤ) : Prop := Eff.Owes FileSystem.free h x g

def record (vfs : FileSystem) : List MountRow × ℕ := (vfs.rows, vfs.socketPathReferences)

/-- Beside the references, what `ν` makes of the record is accounted for; where `ν` is arbitrary, the record is kept. -/
abbrev Frames (ν : List MountRow × ℕ → ℤ) (h : ℕ → ℤ) (x : Eff Status FileSystem α) (g : α → ℕ → ℤ) : Prop :=
  Eff.Owes (fun vfs => (vfs.free, ν vfs.record)) (h, 0) x fun b => (g b, 0)

lemma frames_zero {x : Eff Status FileSystem α} : Frames 0 h x g ↔ Owes h x g := by
  refine forall_congr' fun vfs => ?_
  rcases x.exec vfs with ⟨e | b, later⟩ <;> simp [Prod.ext_iff]

variable {x : Eff Status Calls α} {context : ResolveContext} {path : Path} {policy : FinalComponent} {node index : ℕ}
  {message : String} {m : ℕ → ℤ} {ν : List MountRow × ℕ → ℤ}

lemma callbacks_owes (hx : Calls.Owes h x g) : Owes h (callbacks x) g := by
  refine .part (fun vfs calls => ?_) hx
  simp only [free]
  abel

lemma callbacks_frames (hx : Calls.Owes h x g) : Frames ν h (callbacks x) g := by
  intro vfs
  have hx := callbacks_owes hx vfs
  rw [callbacks, Eff.exec_part] at hx ⊢
  rcases hr : x.exec vfs.calls with ⟨e | b, calls⟩ <;> rw [hr] at hx
  · exact Prod.ext hx (add_zero _)
  · exact Prod.ext hx rfl

lemma operation_owes {x : Eff Status FileSystem α} (hx : Frames ν 0 x g) : Frames ν 0 (operation x) g := by
  intro vfs
  rw [operation, Eff.exec_bind_ok (Eff.exec_get _)]
  split
  next hr =>
    split_ifs at hr
    · cases hr
    rw [Eff.exec_bind_ok (Eff.exec_set _ _)] at hr
    have hx := hx { vfs with serial := vfs.serial + 1 }
    rw [hr] at hx
    exact hx
  next hr =>
    split_ifs at hr
    · cases hr
      exact add_zero _
    rw [Eff.exec_bind_ok (Eff.exec_set _ _)] at hr
    have hx := hx { vfs with serial := vfs.serial + 1 }
    rw [hr] at hx
    exact hx

lemma resolveIn_owes (context : ResolveContext) (path : Path) (policy : FinalComponent) :
    Frames ν 0 (resolveIn env context path policy) fun r => owed r.retained :=
  .get_bind fun _ => callbacks_frames Namespace.resolveUnlocked_owes

lemma resolveIn_retained (vfs : FileSystem) (r : Resolution)
    (later : FileSystem) (hr : (resolveIn env context path policy).exec vfs = (.ok r, later)) :
    r.retained = some r.object.node := by
  exact Namespace.resolveUnlocked_retained (Prod.ext (Prod.mk.inj hr).1 rfl)

lemma releaseHeld_owes (held : Option ℕ) : Calls.Owes (owed held) (releaseHeld env held) fun _ => 0 := by
  cases held with
  | none => exact .pure rfl
  | some node => exact release_owes node

lemma dropHeld_owes (held : Option ℕ) : Calls.Owes (owed held) (dropHeld env held) fun _ => 0 :=
  .tryCatch (releaseHeld_owes held) fun _ => .pure rfl

lemma scope_owes {held : Option ℕ} {dispose : α → Eff Status Calls PUnit} {x : Eff Status FileSystem α} (hx : Frames ν 0 x g)
    (hd : ∀ a, Calls.Owes (g a) (dispose a) fun _ => 0) : Frames ν (owed held) (scope env held dispose x) g := by
  refine .bind (g := fun a => (g a, 0) + (owed held, 0)) ?_ fun a => .bind (g := fun _ => (g a, 0)) ?_ fun _ => .pure rfl
  · exact .of_eq (zero_add _) (.onFailure hx (callbacks_frames (dropHeld_owes held)))
  · exact .of_eq (add_comm _ _)
      (.weaken (.onFailure (callbacks_frames (releaseHeld_owes held)) (callbacks_frames (hd a))) fun _ => zero_add _)

lemma withRetained_owes {resolution : Resolution} {x : Eff Status FileSystem α} (hx : Frames ν 0 x fun _ => 0) :
    Frames ν (owed resolution.retained) (withRetained env resolution x) fun _ => 0 := scope_owes hx fun _ => .pure rfl

lemma withReference_owes {x : Eff Status FileSystem α} (hx : Frames ν 0 x fun _ => 0) :
    Frames ν (one node) (withReference env node x) fun _ => 0 :=
  scope_owes hx fun _ => .pure rfl

lemma resolving_owes {x : Resolution → Eff Status FileSystem α}
    (hx : ∀ r, Frames ν 0 (x r) fun _ => 0) :
    Frames ν 0 (do let r ← resolveIn env context path policy; withRetained env r (x r)) fun _ => 0 :=
  .bind (resolveIn_owes _ _ _) fun r => withRetained_owes (hx r)

lemma parentAccess_owes (context : ResolveContext) (parent : ℕ) (victim : Option ℕ) :
    Calls.Owes 0 (parentAccess env context parent victim) fun _ => 0 := by
  refine .bind (queryMetadata_owes _) fun metadata => .guard ?_
  split
  · exact .pure rfl
  refine .bind (.liftExcept fun _ _ => rfl) fun _ => ?_
  split
  · exact .pure rfl
  split
  · refine .bind (queryMetadata_owes _) fun metadata => ?_
    exact .guard (.pure rfl)
  · exact .pure rfl

lemma meets_owes (ns : Namespace) (node mountRoot depth : ℕ) (current : Place) :
    Calls.Owes (one current.node) (meets env ns node mountRoot depth current) fun _ => 0 := by
  induction depth generalizing current with
  | zero => exact .bind (release_owes _) fun _ => .pure rfl
  | succ depth ih =>
  unfold meets
  split_ifs
  · exact .bind (release_owes _) fun _ => .pure rfl
  refine .bind (g := fun parent => one parent.node + one current.node) ?_ fun parent => ?_
  · exact .of_eq (zero_add _) (holding_owes (ns.parentReference_owes current ns.rootHandle))
  split_ifs
  · exact .bind (holding_owes (release_owes _)) fun _ => .of_eq (zero_add _).symm
      (.bind (release_owes _) fun _ => .pure rfl)
  · exact .of_eq (add_comm _ _) (.bind (holding_owes (release_owes _)) fun _ =>
      .of_eq (zero_add _).symm (ih parent))

lemma protectsMount_owes (ns : Namespace) (node : ℕ) (mounts : List Mount) :
    Calls.Owes 0 (protectsMount env ns node mounts) fun _ => 0 := by
  induction mounts with
  | nil => exact .pure rfl
  | cons mount mounts ih =>
  unfold protectsMount
  split_ifs
  · exact ih
  refine .bind (retain_owes _) fun _ => .bind (meets_owes _ _ _ _ ⟨mount.covered, mount.coveredMountId⟩) fun met => ?_
  split_ifs
  · exact .pure rfl
  · exact ih

lemma protected?_owes (node : ℕ) : Frames ν 0 (protected? env node) fun _ => 0 :=
  .get_bind fun _ => callbacks_frames (protectsMount_owes _ _ _)

lemma requireAbsent_owes (directory : ℕ) (name : Path) (message : String) :
    Calls.Owes 0 (requireAbsent env directory name message) fun _ => 0 := by
  refine .bind (findChild_owes _ _) fun found => ?_
  cases found with
  | none => exact .pure rfl
  | some child => exact .bind (drop_owes child) fun _ => .throw

lemma admitIdentity_owes (node : ℕ) : Calls.Owes 0 (admitIdentity env node) fun _ => 0 := by
  refine .get_bind fun calls => ?_
  dsimp only
  split_ifs
  · exact .pure rfl
  · exact request_owes _

lemma exposeRaw_owes (node : ℕ) : Calls.Owes 0 (exposeRaw env node) fun _ => 0 := by
  refine .tryCatch (request_owes _) fun status => ?_
  split_ifs
  · exact .pure rfl
  · exact .throw

lemma exposeBoth_owes (root covered : ℕ) : Calls.Owes 0 (exposeBoth env root covered) fun _ => 0 :=
  .bind (admitIdentity_owes _) fun _ => .bind (retain_owes _) fun _ =>
    .bind (holding_owes_self (.bind (exposeRaw_owes _) fun _ => exposeRaw_owes _)) fun _ => release_owes _

lemma orAbandon_owes (hx : Calls.Owes h x g) : Calls.Owes h (orAbandon env node x) g :=
  .tryCatch hx fun _ => .bind (ignore_owes _) fun _ => .throw

lemma allocateRoot_owes (mode : BitVec 32) (uid gid : ℕ) : Calls.Owes 0 (allocateRoot env mode uid gid) one := by
  refine .bind (ask_owes _) fun found => ?_
  cases found with
  | none => exact .throw
  | some root =>
    exact .bind (ignore_owes _) fun _ => .bind (ignore_owes _) fun _ =>
      .bind (orAbandon_owes (retain_owes _)) fun _ => .pure rfl

lemma freeRow_unused {rows : List MountRow} (hr : freeRow rows path message = .ok index) :
    ∃ row, rows[index]? = some row ∧ row.phase = .unused := by
  unfold freeRow at hr
  split_ifs at hr
  split at hr
  next hi =>
    cases hr
    obtain ⟨hlt, hp, -⟩ := findIdx?_eq_some_iff_getElem.mp hi
    exact ⟨_, getElem?_eq_getElem hlt, by simpa using hp⟩
  next => cases hr

def Ready (index : ℕ) (m : ℕ → ℤ) (vfs : FileSystem) : Prop :=
  (∃ row, vfs.rows[index]? = some row ∧ row.phase = .unused) ∧ vfs.free = m

lemma callbacks_rows {P : List MountRow → Prop} (hx : Calls.Owes 0 x g) :
    Eff.Triple (fun vfs => P vfs.rows ∧ vfs.free = m) (callbacks x) (fun b vfs => P vfs.rows ∧ vfs.free = m + g b)
      fun vfs => vfs.free = m := by
  rintro vfs ⟨hrows, hm⟩
  have hfree := (Eff.owes_iff.mp (callbacks_owes hx) m) vfs (hm.trans (add_zero m).symm)
  rcases hr : (callbacks x).exec vfs with ⟨e | b, later⟩ <;> rw [hr] at hfree
  · exact hfree
  rw [callbacks, Eff.exec_part] at hr
  obtain ⟨-, rfl⟩ := Prod.mk.inj hr
  exact ⟨hrows, hfree⟩

lemma callbacks_ready (hx : Calls.Owes 0 x g) :
    Eff.Triple (Ready index m) (callbacks x) (fun b => Ready index (m + g b)) fun vfs => vfs.free = m :=
  callbacks_rows (P := fun rows => ∃ row, rows[index]? = some row ∧ row.phase = .unused) hx

lemma attach_ready {phase : MountPhase} {root : ℕ} {covered : Place} {E : FileSystem → Prop}
    (hs : ∀ row : MountRow, row.phase = phase → row.covered = covered.node → row.root = root → row.stored = h) :
    Eff.Triple (Ready index m) (attach index phase path root covered) (fun _ vfs => vfs.free = m - h) E := by
  refine .modify ?_
  rintro vfs ⟨⟨row, hi, hu⟩, rfl⟩
  have hstored := stored_modify hi fun row => { row with
    phase := phase, path := path, root := root, covered := covered.node, coveredMountId := covered.mountId }
  rw [hs { row with
    phase := phase, path := path, root := root, covered := covered.node, coveredMountId := covered.mountId } rfl rfl rfl] at hstored
  have hzero : row.stored = 0 := by rw [MountRow.stored, hu]
  rw [hzero, add_zero] at hstored
  simp only [free]
  rw [hstored]
  abel

lemma freeRow_owes {x : ℕ → Eff Status FileSystem α}
    (hx : ∀ index m, Eff.Triple (Ready index m) (x index) (fun b vfs => vfs.free = m + g b) fun vfs => vfs.free = m) :
    Owes 0 (do let vfs ← get; let index ← liftExcept (freeRow vfs.rows path message); x index) g := by
  refine Eff.owes_iff.mpr fun m => .get_bind fun vfs => ?_
  refine .bind (Q := fun index => Ready index m) (.liftExcept ?_ fun _ h => h.2.trans (add_zero m)) fun index => hx index m
  rintro index hr _ ⟨rfl, hm⟩
  exact ⟨freeRow_unused hr, hm.trans (add_zero m)⟩

lemma attachBorrowed_owes (path : Path) (root : ℕ) (covered : Place) :
    Owes 0 (attachBorrowed env path root covered) fun _ => 0 := by
  refine .bind (callbacks_owes (queryMetadata_owes _)) fun metadata => .guard ?_
  refine freeRow_owes fun index m => ?_
  split
  · exact .throw fun vfs h => h.2
  refine .bind (Q := fun _ => Ready index m) (.modify ?_) fun _ => .bind (callbacks_ready (exposeBoth_owes _ _)) fun _ =>
    (attach_ready (h := 0) fun row hp _ _ => by rw [MountRow.stored, hp]).weaken (fun _ h => h) fun _ vfs h => ?_
  · rintro vfs ⟨⟨row, hi, hu⟩, rfl⟩
    refine ⟨⟨{ row with path := path }, ?_, hu⟩, ?_⟩
    · rw [getElem?_modify_eq, hi]
      rfl
    simp only [free]
    rw [stored_modify_same]
    exact fun _ => rfl
  · rw [h, sub_zero]

lemma attachOwned_owes (path : Path) (node : ℕ) (covered : Place) :
    Owes 0 (attachOwned env path node covered) fun _ => -one covered.node := by
  refine .bind (callbacks_owes (queryMetadata_owes _)) fun metadata => .guard ?_
  refine freeRow_owes fun index m => ?_
  split
  · exact .throw fun vfs h => h.2
  refine .bind (callbacks_ready (.bind (admitIdentity_owes _) fun _ => request_owes _)) fun _ =>
    .bind (attach_ready (h := one covered.node) fun row hp hc _ => by rw [MountRow.stored, hp, ← hc]) fun _ => .pure fun vfs h => ?_
  rw [h, add_zero, sub_eq_add_neg]

lemma attachRam_owes (path : Path) (mode : BitVec 32) (uid gid : ℕ) (covered : Place) :
    Owes 0 (attachRam env path mode uid gid covered) fun _ => -one covered.node := by
  refine .bind (callbacks_owes (queryMetadata_owes _)) fun metadata => .guard (.guard ?_)
  refine freeRow_owes fun index m => ?_
  split
  · exact .throw fun vfs h => h.2
  refine .bind (callbacks_ready (allocateRoot_owes _ _ _)) fun root => .bind (attach_ready (h := one covered.node + one root)
    fun row hp hc hr => by rw [MountRow.stored, hp, ← hc, ← hr]) fun _ => .pure fun vfs h => ?_
  rw [h]
  abel

lemma attaching_owes {x : Place → Eff Status FileSystem α}
    (hx : ∀ place, Frames ν 0 (x place) fun _ => -one place.node) :
    Frames ν 0 (do
      let r ← resolveIn env context path policy
      tryCatch (x r.object) fun status => do
        callbacks (dropHeld env r.retained)
        throw status) fun _ => 0 := by
  refine .bind_of (resolveIn_owes _ _ _) resolveIn_retained fun r hr => ?_
  refine .of_eq (zero_add _) (.weaken (.onFailure (hx r.object) (callbacks_frames (dropHeld_owes _))) fun _ => ?_)
  dsimp only
  rw [hr, owed_some]
  exact Prod.ext (neg_add_cancel _) (add_zero 0)

lemma mountBorrowed_owes (path : Path) (root : ℕ) : Frames 0 0 (mountBorrowed env path root) fun _ => 0 :=
  operation_owes (.bind (callbacks_frames (queryMetadata_owes _)) fun _ => .bind (.liftExcept fun _ _ => rfl) fun _ =>
    resolving_owes fun _ => frames_zero.mpr (attachBorrowed_owes _ _ _))

lemma mountOwned_owes (path : Path) (anchored : Bool) : Frames 0 0 (mountOwned env path anchored) fun _ => 0 := by
  refine .tryCatch (operation_owes (.bind (callbacks_frames (ask_owes _)) fun node =>
    .bind (callbacks_frames (queryMetadata_owes _)) fun _ => .bind (.liftExcept fun _ _ => rfl) fun _ =>
    attaching_owes fun place => frames_zero.mpr (attachOwned_owes path node place))) fun status => ?_
  cases anchored with
  | true => exact .bind (callbacks_frames (ignore_owes _)) fun _ => .throw
  | false => exact .throw

lemma mountRamOwned_owes (path : Path) (mode : BitVec 32) (uid gid : ℕ) :
    Frames 0 0 (mountRamOwned env path mode uid gid) fun _ => 0 := by
  refine operation_owes (.guard (.guard ?_))
  exact attaching_owes fun place => frames_zero.mpr (attachRam_owes path mode uid gid place)

lemma releaseMount_owes {row : MountRow} (hp : row.phase = .owned ∨ row.phase = .ownedRam) :
    Calls.Owes row.stored (releaseMount env row) fun _ => 0 := by
  rcases hp with hp | hp
  · rw [MountRow.stored, releaseMount, hp]
    exact .bind (holding_owes_self (request_owes _)) fun _ => release_owes _
  rw [MountRow.stored, releaseMount, hp]
  exact .of_eq (add_comm _ _) (.bind (holding_owes (release_owes _)) fun _ =>
    .of_eq (zero_add _).symm (release_owes _))

lemma detach_owes (mount : MountHandle) : Frames 0 0 (detach env mount) fun _ => 0 := by
  refine operation_owes (frames_zero.mpr (Eff.owes_iff.mpr fun m => .get_bind fun vfs => ?_))
  have hstart : ∀ now, now = vfs ∧ now.free = m + 0 → now.free = m := fun now h => h.2.trans (add_zero m)
  split
  · exact .throw hstart
  next row hrow =>
  split
  · exact .throw hstart
  next hp =>
  split
  · exact .throw hstart
  split
  · exact .throw hstart
  have hp : row.phase = .owned ∨ row.phase = .ownedRam := by tauto
  have hrow : vfs.rows[mount.id - 1]? = some row := by
    split at hrow
    · exact hrow
    · cases hrow
  have hretire : Calls.Owes 0 (if row.phase = .ownedRam then request env (.retireTree row.root) else pure ⟨⟩) fun _ => 0 := by
    split
    · exact request_owes _
    · exact .pure rfl
  refine .bind (Q := fun _ now => now.rows = vfs.rows ∧ now.free = m + 0) ?_ fun _ =>
    .bind (Q := fun _ now => now.free = m + row.stored) (.modify ?_) fun _ =>
    Eff.owes_iff.mp (callbacks_owes (releaseMount_owes hp)) m
  · exact (callbacks_rows (P := (· = vfs.rows)) hretire).weaken (fun now h => ⟨congrArg rows h.1, hstart now h⟩) fun _ _ h => h
  rintro now ⟨hrows, hm⟩
  have hstored := stored_modify (hrows ▸ hrow) fun row => { row with phase := .detached, root := 0, covered := 0 }
  have hnone : MountRow.stored { row with phase := .detached, root := 0, covered := 0 } = 0 := rfl
  rw [hnone, add_zero] at hstored
  simp only [free] at hm ⊢
  linear_combination hm - hstored

lemma resolve_owes (context : ResolveContext) (path : Path) (policy : FinalComponent) :
    Frames ν 0 (resolve env context path policy) fun reference => one reference.place.node := by
  refine operation_owes (.bind (resolveIn_owes _ _ _) fun resolved => ?_)
  dsimp only
  cases resolved.retained with
  | none => exact .throw
  | some node => exact .pure rfl

lemma admitSocketReference_owes (place : Place) : Frames ν 0 (admitSocketReference place) fun _ => 0 := by
  refine .get_bind fun vfs => .guard ?_
  split
  · exact .pure rfl
  split
  · split
    · exact .throw
    exact .guard (.pure rfl)
  · exact .throw

lemma addSocketReference_owes (place : Place) : Frames 0 h (addSocketReference place) fun _ => h := by
  refine frames_zero.mpr (.modify fun vfs => ?_)
  simp only [free]
  split
  · rfl
  · rw [stored_modify_same]
    exact fun _ => rfl

lemma createForeign_owes (creation : Creation) (parent : ℕ) (leaf : Path) :
    Calls.Owes 0 (createForeign env creation parent leaf) one := by
  unfold createForeign
  split
  · exact .bind (request_owes _) fun _ => lookupChildRetained_owes _ _
  · exact .bind (ask_owes _) fun child => .bind (count_owes child 1 (zero_add _).symm) fun _ => .pure rfl

lemma createRam_owes (creation : Creation) (parent : ℕ) (leaf : Path) : Calls.Owes 0 (createRam env creation parent leaf) one := by
  refine .bind (ask_owes _) fun found => ?_
  cases found with
  | none => exact .throw
  | some node =>
  refine .bind (ignore_owes _) fun _ => .bind (ignore_owes _) fun _ => ?_
  extract_lets answer rest
  have hrest : ∀ u, Calls.Owes 0 (rest u) one := by
    intro u
    dsimp only [rest]
    split
    · exact .bind (orAbandon_owes (retain_owes _)) fun _ =>
        .bind (holding_owes_self (orAbandon_owes (request_owes _))) fun _ => .pure rfl
    · exact .bind (orAbandon_owes (request_owes _)) fun _ => .bind (retain_owes _) fun _ => .pure rfl
  split
  · exact .bind (orAbandon_owes (request_owes _)) hrest
  · exact hrest ()

lemma createAdmitted_owes (creation : Creation) (place : Place) (leaf : Path) : Frames 0 0 (if !isRam place.node then do
      let child ← callbacks (createForeign env creation place.node leaf)
      pure ⟨⟨child, place.mountId⟩⟩
    else do
      let child ← callbacks (createRam env creation place.node leaf)
      if creation.socketReference then addSocketReference ⟨child, place.mountId⟩
      pure ⟨⟨child, place.mountId⟩⟩) fun reference : PathReference => one reference.place.node := by
  split
  · exact .bind (callbacks_frames (createForeign_owes _ _ _)) fun child => .pure rfl
  refine .bind (callbacks_frames (createRam_owes _ _ _)) fun child => ?_
  split
  · exact .bind (addSocketReference_owes _) fun _ => .pure rfl
  · exact .pure rfl

lemma createUnlocked_owes (context : ResolveContext) (path : Path) (creation : Creation) :
    Frames 0 0 (createUnlocked env isRam context path creation) fun reference => one reference.place.node := by
  refine .bind (resolveIn_owes _ _ _) fun resolved => scope_owes ?_ fun reference => drop_owes _
  split
  · exact .throw
  split
  · exact .throw
  refine .bind (callbacks_frames (queryMetadata_owes _)) fun metadata => .guard (.guard ?_)
  refine .bind (callbacks_frames (requireAbsent_owes _ _ _)) fun _ => ?_
  extract_lets inherited admitted afterAccess
  have hafter : ∀ u, Frames 0 0 (afterAccess u) fun reference => one reference.place.node := by
    intro u
    dsimp only [afterAccess]
    split
    · exact .throw
    split
    · exact .throw
    split
    · exact .bind (admitSocketReference_owes _) fun _ => createAdmitted_owes _ _ _
    · exact createAdmitted_owes _ _ _
  split
  · exact .bind (.liftExcept fun _ _ => rfl) hafter
  · exact hafter ()

lemma create_owes (context : ResolveContext) (path : Path) (creation : Creation) :
    Frames 0 0 (create env isRam context path creation) fun _ => 0 :=
  operation_owes (.bind (createUnlocked_owes _ _ _) fun _ => callbacks_frames (release_owes _))

lemma resolveSocket_owes (context : ResolveContext) (path : Path) :
    Frames 0 0 (resolveSocket env isRam context path) fun reference => one reference.place.node := by
  refine operation_owes (.bind_of (resolveIn_owes _ _ _) resolveIn_retained fun resolved hr => ?_)
  dsimp only
  rw [hr, owed_some]
  refine .bind (g := fun _ => (one resolved.object.node, 0)) (.of_eq (zero_add _) (.weaken (.onFailure (g := fun _ => 0) ?_
    (callbacks_frames (dropHeld_owes _))) fun _ => zero_add _)) fun _ => .bind (addSocketReference_owes _) fun _ => .pure rfl
  refine .bind (callbacks_frames (queryMetadata_owes _)) fun metadata => .guard (.guard ?_)
  exact .bind (.liftExcept fun _ _ => rfl) fun _ => admitSocketReference_owes _

lemma link_owes (sourceContext : ResolveContext) (oldPath : Path) (targetContext : ResolveContext) (newPath : Path) :
    Frames ν 0 (link env sourceContext oldPath targetContext newPath) fun _ => 0 := by
  refine operation_owes (resolving_owes fun source => .bind (callbacks_frames (queryMetadata_owes _)) fun metadata => .guard ?_)
  refine resolving_owes fun target => .get_bind fun vfs => ?_
  exact .guard (.guard (callbacks_frames (.bind (parentAccess_owes _ _ _) fun _ => .bind (requireAbsent_owes _ _ _)
    fun _ => request_owes _)))

lemma renameHeld_owes (sourceContext targetContext : ResolveContext) (old new : Resolution) (source : ℕ) (target : Option ℕ) :
    Frames ν 0 (renameHeld env sourceContext targetContext old new source target) fun _ => 0 := by
  refine .get_bind fun vfs => ?_
  refine .bind (callbacks_frames (queryMetadata_owes _)) fun metadata => .guard (.guard ?_)
  refine .bind (callbacks_frames (parentAccess_owes _ _ _)) fun _ => .bind (callbacks_frames (parentAccess_owes _ _ _)) fun _ =>
    .bind (protected?_owes _) fun covered => ?_
  split
  · exact .throw
  cases target with
  | none => exact callbacks_frames (request_owes _)
  | some target =>
  refine .bind (protected?_owes _) fun covered => .guard ?_
  exact callbacks_frames (request_owes _)

lemma rename_owes (sourceContext : ResolveContext) (oldPath : Path) (targetContext : ResolveContext) (newPath : Path) :
    Frames ν 0 (rename env sourceContext oldPath targetContext newPath) fun _ => 0 :=
  operation_owes (resolving_owes fun _ => resolving_owes fun _ =>
    .bind (callbacks_frames (lookupChildRetained_owes _ _)) fun _ => withReference_owes
      (.bind (callbacks_frames (findChild_owes _ _)) fun _ =>
        scope_owes (renameHeld_owes _ _ _ _ _ _) fun _ => .pure rfl))

lemma remove_owes (context : ResolveContext) (path : Path) (directory : Bool) :
    Frames ν 0 (remove env isRam context path directory) fun _ => 0 := by
  refine operation_owes (resolving_owes fun resolved => .bind (callbacks_frames (lookupChildRetained_owes _ _)) fun node =>
    withReference_owes (.bind (callbacks_frames (queryMetadata_owes _)) fun metadata =>
      .bind (callbacks_frames (parentAccess_owes _ _ _)) fun _ => ?_))
  split
  · exact .throw
  split
  · exact .throw
  refine .bind (protected?_owes _) fun covered => .guard ?_
  extract_lets request
  have hrequest : ∀ u, Frames ν 0 (request u) fun _ => 0 := fun _ => callbacks_frames (request_owes _)
  split
  · refine .bind (callbacks_frames (ask_owes _)) fun listing => ?_
    split
    · exact .bind .throw hrequest
    · exact hrequest ()
  · exact hrequest ()

lemma onNode_owes {x : ℕ → Eff Status Calls α}
    (hx : ∀ node, Calls.Owes 0 (x node) fun _ => 0) : Frames ν 0 (onNode env context path policy x) fun _ => 0 :=
  operation_owes (resolving_owes fun _ => callbacks_frames (hx _))

lemma lookup_owes (path : Path) : Frames ν 0 (lookup env path) fun _ => 0 :=
  operation_owes (.bind (resolveIn_owes _ _ _) fun resolved =>
    .bind (g := fun _ => (owed resolved.retained, 0)) (.of_eq (zero_add _) (.weaken (.onFailure (callbacks_frames (request_owes _))
      (callbacks_frames (dropHeld_owes _))) fun _ => zero_add _)) fun _ =>
      .bind (callbacks_frames (releaseHeld_owes _)) fun _ => .pure rfl)

lemma pathFrom_owes (directory root : ℕ) (leading : Path) (expected : ℕ) :
    Frames ν 0 (pathFrom env directory root leading expected) fun _ => 0 := by
  refine .bind (callbacks_frames (ask_owes _)) fun relative => ?_
  extract_lets path
  split
  · exact .throw
  refine resolving_owes fun actual => .guard ?_
  exact .pure rfl

lemma pathFromMounts_owes (directory : ℕ) (first : Status) (rows : List (MountRow × ℕ)) :
    Frames ν 0 (pathFromMounts env directory first rows) fun _ => 0 := by
  induction rows with
  | nil => exact .throw
  | cons row rows ih =>
  unfold pathFromMounts
  split
  · exact ih
  refine .tryCatch (pathFrom_owes _ _ _ _) fun status => .guard ?_
  exact ih

lemma directoryPath_owes (directory : ℕ) (mountId : Option ℕ) : Frames ν 0 (directoryPath env directory mountId) fun _ => 0 := by
  refine operation_owes (.get_bind fun vfs => ?_)
  have hmetadata : ∀ {x : Eff Status FileSystem Path}, Frames ν 0 x (fun _ => 0) → Frames ν 0 (do
      let metadata ← callbacks (Calls.queryMetadata env directory)
      if metadata.type ≠ .directory then throw (.notDirectory "node is not a directory") else x) fun _ => 0 := by
    intro x hx
    refine .bind (callbacks_frames (Calls.queryMetadata_owes _)) fun metadata => .guard ?_
    exact hx
  cases mountId with
  | none =>
    refine hmetadata (.tryCatch (pathFrom_owes _ _ _ _) fun status => .guard ?_)
    exact pathFromMounts_owes _ _ _
  | some mountId =>
  refine .bind (.liftExcept fun _ _ => rfl) fun _ => hmetadata ?_
  dsimp only
  split
  · exact pathFrom_owes _ _ _ _
  · exact pathFrom_owes _ _ _ _

lemma inspect_owes (ns : Namespace) (node : ℕ) : Calls.Owes 0 (inspect env isRam ns node) fun _ => 0 := by
  unfold inspect
  split
  · exact .throw
  split
  · exact .throw
  refine .bind (queryMetadata_owes _) fun metadata => .guard (.guard ?_)
  exact .pure rfl

lemma importFrom_owes (ns : Namespace) (path : Path) (mode : BitVec 32) (fuel parent cursor : ℕ) :
    Calls.Owes (one parent) (importFrom env isRam ns path mode fuel parent cursor) fun _ => 0 := by
  induction fuel generalizing parent cursor with
  | zero => exact .bind (drop_owes _) fun _ => .throw
  | succ fuel ih =>
  unfold importFrom
  split
  · exact .bind (drop_owes _) fun _ => .throw
  refine .bind (g := fun found => owed found + one parent) (.of_eq (zero_add _) (holding_owes (findChild_owes _ _)))
    fun found => ?_
  cases found with
  | none =>
    refine .of_eq (zero_add _).symm (.bind (holding_owes_self ?_) fun _ => release_owes _)
    split
    · exact .throw
    refine .bind (ask_owes _) fun found => ?_
    cases found with
    | none => exact .throw
    | some node =>
      exact orAbandon_owes (.bind (request_owes _) fun _ => .bind (request_owes _) fun _ => request_owes _)
  | some node =>
  refine .bind (holding_owes (holding_owes_self (inspect_owes _ _))) fun metadata => ?_
  split
  · refine .bind (holding_owes (.bind (holding_owes_self ?_) fun _ => release_owes _)) fun _ =>
      .of_eq (zero_add _).symm (release_owes _)
    split
    · exact .pure rfl
    · exact .throw
  · exact .of_eq (add_comm _ _) (.bind (holding_owes (release_owes _)) fun _ => .of_eq (zero_add _).symm (ih _ _))

lemma importArchiveDirectory_owes (path : Path) (mode : BitVec 32) :
    Frames ν 0 (importArchiveDirectory env isRam path mode) fun _ => 0 := by
  refine operation_owes (.guard (.guard ?_))
  exact .get_bind fun vfs => callbacks_frames (.bind (inspect_owes _ _) fun _ => .bind (retain_owes _) fun _ =>
    importFrom_owes _ _ _ _ _ _)

lemma createReadonlyFile_owes (path data : Path) (mode : BitVec 32) (replace closed : Bool) :
    Frames ν 0 (createReadonlyFile env isRam path data mode replace closed) fun _ => 0 := by
  refine operation_owes (resolving_owes fun resolved => callbacks_frames (.guard (.guard ?_)))
  refine .bind (ask_owes _) fun found => ?_
  cases found with
  | some existing =>
    refine .bind (queryMetadata_owes _) fun metadata => .guard (.guard ?_)
    exact request_owes _
  | none =>
  refine .bind (ask_owes _) fun found => ?_
  cases found with
  | none => exact .throw
  | some node => exact orAbandon_owes (.bind (request_owes _) fun _ => request_owes _)

end FileSystem

end ObfuscationKernel.Fs.Vfs
