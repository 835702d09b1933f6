import ObfuscationKernel.Fs.VfsReferences

/-! Clients of the virtual file system: what they hold is what the counts say, over whole runs. -/

namespace ObfuscationKernel.Fs.Vfs

open ObfuscationKernel.Core Library List Library.Eff FileSystem Calls

def Call.mounts : Call → Bool
  | mountBorrowed .. | mountOwned .. | mountRamOwned .. | detach .. => true
  | _ => false

namespace FileSystem

variable {env : ℕ → Answers} {isRam : ℕ → Bool} {α : Type} {P : List MountRow × ℕ → Prop}

abbrev Keeps (P : List MountRow × ℕ → Prop) (x : Eff Status FileSystem α) : Prop :=
  Eff.Triple (fun vfs => P vfs.record) x (fun _ vfs => P vfs.record) fun vfs => P vfs.record

lemma pure_keeps {a : α} : Keeps P (pure a : Eff Status FileSystem α) := .pure fun _ h => h

lemma throw_keeps {status : Status} : Keeps P (throw status : Eff Status FileSystem α) := .throw fun _ h => h

lemma guard_keeps {c : Prop} [Decidable c] {status : Status} {x : Eff Status FileSystem α} (hx : Keeps P x) :
    Keeps P (if c then throw status else x) := by
  split
  · exact throw_keeps
  · exact hx

variable {x : Eff Status Calls α} {context sourceContext targetContext : ResolveContext} {path oldPath newPath : Path}
  {policy : FinalComponent} {held : Option ℕ} {dispose : α → Eff Status Calls PUnit} {directory : ℕ}
  {mode : BitVec 32} {place : Place} {E : FileSystem → Prop} {creation : Creation} {vfs : FileSystem}

lemma callbacks_triple {B : α → Prop}
    (hx : Triple (fun _ => True) x (fun b _ => B b) fun _ => True) (hE : ∀ vfs : FileSystem, P vfs.record → E vfs) :
    Triple (fun vfs => P vfs.record) (callbacks x) (fun b vfs => P vfs.record ∧ B b) E :=
  .part hx (fun _ _ => trivial) (fun _ _ _ h hb => ⟨h, hb⟩) fun _ _ h _ => hE _ h

lemma callbacks_frame (hE : ∀ vfs : FileSystem, P vfs.record → E vfs) :
    Triple (fun vfs => P vfs.record) (callbacks x) (fun _ vfs => P vfs.record) E :=
  (callbacks_triple (.any _) hE).weaken (fun _ h => h) fun _ _ h => h.1

lemma callbacks_keeps : Keeps P (callbacks x) := callbacks_frame fun _ h => h

lemma liftExcept_keeps {r : Result α} : Keeps P (liftExcept r : Eff Status FileSystem α) :=
  .liftExcept (fun _ _ _ h => h) fun _ h => h

lemma operation_triple {x : Eff Status FileSystem α} {Q : α → FileSystem → Prop}
    (hx : Triple (fun vfs => P vfs.record) x Q fun vfs => P vfs.record) :
    Triple (fun vfs => P vfs.record) (operation x) Q fun vfs => P vfs.record := by
  refine .get_bind fun vfs => ?_
  split
  · exact .throw fun _ h => h.2
  · rintro _ ⟨rfl, h⟩
    exact hx _ h

open Classical in
lemma keeps_of_frames {x : Eff Status FileSystem α} {h : ℕ → ℤ} {g : α → ℕ → ℤ}
    (hx : Frames (fun r => if P r then 1 else 0) h x g) : Keeps P x := by
  intro vfs hP
  have hx := hx vfs
  rcases hr : x.exec vfs with ⟨e | b, later⟩ <;> rw [hr] at hx <;> simpa [hP] using congrArg Prod.snd hx

lemma resolveIn_keeps : Keeps P (resolveIn env context path policy) := keeps_of_frames (resolveIn_owes _ _ _)

lemma scope_triple {x : Eff Status FileSystem α} {Q : α → List MountRow × ℕ → Prop}
    (hx : Triple (fun vfs => P vfs.record) x (fun b vfs => Q b vfs.record) fun vfs => P vfs.record) (hQ : ∀ b r, Q b r → P r) :
    Triple (fun vfs => P vfs.record) (scope env held dispose x) (fun b vfs => Q b vfs.record) fun vfs => P vfs.record := by
  refine .bind (.tryCatch hx fun _ => .bind callbacks_keeps fun _ => .throw fun _ h => h) fun b => ?_
  refine .bind (Q := fun _ vfs => Q b vfs.record) (.tryCatch callbacks_keeps fun _ => ?_) fun _ => .pure fun _ h => h
  exact .bind (Q := fun _ vfs => P vfs.record) (callbacks_keeps.weaken (fun _ h => hQ b _ h) fun _ _ h => h)
    fun _ => .throw fun _ h => h

def counted (r : List MountRow × ℕ) (mountId : ℕ) : List MountRow × ℕ :=
  (if mountId = 0 then r.1
    else r.1.modify (mountId - 1) fun row => { row with socketReferences := row.socketReferences + 1 }, r.2 + 1)

def Admits (r : List MountRow × ℕ) (mountId : ℕ) : Prop :=
  mountId = 0 ∨ ∃ row, r.1[mountId - 1]? = some row ∧ row.attached

lemma admitSocketReference_triple :
    Triple (fun vfs => P vfs.record) (admitSocketReference place) (fun _ vfs => P vfs.record ∧ Admits vfs.record place.mountId)
      fun vfs => P vfs.record := by
  refine .get_bind fun vfs => ?_
  split
  · exact .throw fun _ h => h.2
  split
  next h0 => exact .pure fun _ h => ⟨h.2, .inl h0⟩
  split
  next row hrow =>
    split
    · exact .throw fun _ h => h.2
    next ha =>
    split
    · exact .throw fun _ h => h.2
    refine .pure ?_
    rintro _ ⟨rfl, h⟩
    exact ⟨h, .inr ⟨row, hrow, by simpa using ha⟩⟩
  next => exact .throw fun _ h => h.2

def Adds (P : List MountRow × ℕ → Prop) (isRam : ℕ → Bool) (reference : PathReference) (r : List MountRow × ℕ) : Prop :=
  ∃ r', P r' ∧ Admits r' reference.place.mountId ∧ isRam reference.place.node ∧ r = counted r' reference.place.mountId

lemma addSocketReference_triple (place : Place) :
    Triple (fun vfs => (P vfs.record ∧ Admits vfs.record place.mountId) ∧ isRam place.node) (addSocketReference place)
      (fun _ vfs => Adds P isRam ⟨place⟩ vfs.record) E :=
  .modify fun vfs h => ⟨vfs.record, h.1.1, h.1.2, h.2, rfl⟩

lemma resolveSocket_triple :
    Triple (fun vfs => P vfs.record) (resolveSocket env isRam context path) (fun b vfs => Adds P isRam b vfs.record)
      fun vfs => P vfs.record := by
  refine operation_triple (.bind resolveIn_keeps fun resolved => ?_)
  by_cases hram : isRam resolved.object.node
  · refine .bind (Q := fun _ vfs => P vfs.record ∧ Admits vfs.record resolved.object.mountId) (.tryCatch
      (E := fun vfs => P vfs.record) ?_ fun _ => .bind callbacks_keeps fun _ => .throw fun _ h => h)
      fun _ => .bind ((addSocketReference_triple _).weaken (fun _ h => ⟨h, hram⟩) fun _ _ h => h)
      fun _ => .pure fun _ h => h
    refine .bind callbacks_keeps fun metadata => ?_
    split
    · exact .throw fun _ h => h
    split
    · exact .throw fun _ h => h
    · exact .bind liftExcept_keeps fun _ => admitSocketReference_triple
  refine .bind (Q := fun _ _ => False) (.tryCatch (E := fun vfs => P vfs.record) ?_ fun _ =>
    .bind callbacks_keeps fun _ => .throw fun _ h => h) fun _ _ h => h.elim
  refine .bind callbacks_keeps fun metadata => ?_
  split
  · exact .throw fun _ h => h
  split
  · exact .throw fun _ h => h
  next h => exact absurd h (by simpa using hram)

lemma createRam_ram {parent : ℕ} {leaf : Path}
    (halloc : ∀ t name type readonly node, (env t).allocateNode name type readonly = some node → isRam node) :
    Triple (fun _ => True) (createRam env creation parent leaf) (fun node _ => isRam node) fun _ => True := by
  refine .bind (Q := fun found _ => ∀ node, found = some node → isRam node) ?_ fun found => ?_
  · intro calls _
    exact fun node h => halloc _ _ _ _ node h
  cases found with
  | none => exact .throw fun _ _ => trivial
  | some node =>
  intro calls hram
  have hram := hram node rfl
  revert calls
  suffices h : Triple (fun _ => True) _ (fun node _ => isRam node) fun _ => True from fun calls => h calls trivial
  refine .bind (.any _) fun _ => .bind (.any _) fun _ => ?_
  extract_lets answer rest
  have hrest : ∀ u, Triple (fun _ => True) (rest u) (fun node _ => isRam node) fun _ => True := by
    intro u
    dsimp only [rest]
    split
    iterate 2 exact .bind (.any _) fun _ => .bind (.any _) fun _ => .pure fun _ _ => hram
  split
  · exact .bind (.any _) hrest
  · exact hrest ()

lemma inherit_socketReference (creation : Creation) (parent : Metadata) :
    (creation.inherit parent).socketReference = creation.socketReference := by
  unfold Creation.inherit
  split <;> rfl

abbrev Opens (P : List MountRow × ℕ → Prop) (isRam : ℕ → Bool) (counts : Bool) (Q : FileSystem → Prop)
    (x : Eff Status FileSystem PathReference) : Prop :=
  Triple Q x (fun b vfs => P vfs.record ∧ (counts → Adds P isRam b vfs.record)) fun vfs => P vfs.record

lemma createUnlocked_opens
    (halloc : ∀ t name type readonly node, (env t).allocateNode name type readonly = some node → isRam node)
    (hs : creation.socketReference → creation.type = .socket) (hP : ∀ r mountId, P r → P (counted r mountId)) :
    Opens P isRam creation.socketReference (fun vfs => P vfs.record) (createUnlocked env isRam context path creation) := by
  refine .bind resolveIn_keeps fun resolved => scope_triple
    (Q := fun b r => P r ∧ (creation.socketReference → Adds P isRam b r)) ?_ fun _ _ h => h.1
  split
  · exact .throw fun _ h => h
  split
  · exact .throw fun _ h => h
  refine .bind callbacks_keeps fun metadata => ?_
  split
  · exact .throw fun _ h => h
  split
  · exact .throw fun _ h => h
  refine .bind callbacks_keeps fun _ => ?_
  extract_lets inherited admitted afterAccess
  have hplain : creation.socketReference = false → ∀ u,
      Opens P isRam creation.socketReference (fun vfs => P vfs.record) (admitted u) := by
    intro hn u
    dsimp only [admitted]
    rw [inherit_socketReference, hn]
    split
    iterate 2 exact .bind callbacks_keeps fun _ => .pure fun _ h => ⟨h, by simp⟩
  have hsocket : creation.socketReference → isRam resolved.object.node → ∀ u,
      Opens P isRam creation.socketReference (fun vfs => P vfs.record ∧ Admits vfs.record resolved.object.mountId)
        (admitted u) := by
    intro hy hram u
    dsimp only [admitted]
    rw [inherit_socketReference, hy, hram]
    refine .bind (callbacks_triple (P := fun r => P r ∧ Admits r resolved.object.mountId) (createRam_ram halloc)
      fun _ h => h.1) fun child => ?_
    refine .bind (addSocketReference_triple ⟨child, _⟩) fun _ => .pure ?_
    rintro _ ⟨r, hr, ha, hc, h⟩
    exact ⟨h ▸ hP _ _ hr, fun _ => ⟨r, hr, ha, hc, h⟩⟩
  have hafter : ∀ u, Opens P isRam creation.socketReference (fun vfs => P vfs.record) (afterAccess u) := by
    intro u
    dsimp only [afterAccess]
    split
    · exact .throw fun _ h => h
    split
    · exact .throw fun _ h => h
    next hparent =>
    split
    next hy => exact .bind admitSocketReference_triple (hsocket hy (by simpa [hs hy] using hparent))
    next hn => exact hplain (by simpa using hn) ()
  split
  · exact .bind liftExcept_keeps hafter
  · exact hafter ()

def onRecord (isRam : ℕ → Bool) (vfs : FileSystem) (place : Place) : Bool :=
  isRam place.node && vfs.socketPathReferences ≠ 0 &&
    (place.mountId = 0 || (vfs.rows[place.mountId - 1]?).any fun row => row.attached && row.socketReferences ≠ 0)

def uncounted (vfs : FileSystem) (mountId : ℕ) : FileSystem := { vfs with
  socketPathReferences := vfs.socketPathReferences - 1
  rows := if mountId = 0 then vfs.rows
    else vfs.rows.modify (mountId - 1) fun row => { row with socketReferences := row.socketReferences - 1 } }

lemma releaseSocketReference_recorded (h : onRecord isRam vfs place) :
    (releaseSocketReference env isRam place).exec vfs = (release env ⟨place⟩).exec (vfs.uncounted place.mountId) := by
  simp only [onRecord, Bool.and_eq_true, Bool.or_eq_true, decide_eq_true_eq] at h
  rw [releaseSocketReference, if_neg (by simp [h.1.1]), exec_bind_ok (exec_get _), if_neg, exec_bind_ok (exec_set _ _)]
  · rfl
  rintro (h0 | ⟨hm, ha⟩)
  · exact h.1.2 h0
  rcases h.2 with h0 | h1
  · exact hm h0
  · rw [h1] at ha
    cases ha

lemma releaseSocketReference_refused (env : ℕ → Answers) (h : ¬onRecord isRam vfs place) :
    ∃ status, (releaseSocketReference env isRam place).exec vfs = (.error status, vfs) := by
  rw [releaseSocketReference]
  split
  · exact ⟨_, rfl⟩
  next hram =>
  rw [exec_bind_ok (exec_get _)]
  split
  · exact ⟨_, rfl⟩
  next hrow =>
  refine absurd ?_ h
  simp only [onRecord, Bool.and_eq_true, Bool.or_eq_true, decide_eq_true_eq]
  push Not at hrow
  refine ⟨⟨by simpa using hram, hrow.1⟩, ?_⟩
  by_cases h0 : place.mountId = 0
  · exact .inl h0
  · exact .inr (by simpa using hrow.2 h0)

structure Sockets (isRam : ℕ → Bool) (sockets : List PathReference) (r : List MountRow × ℕ) : Prop where
  total : sockets.length ≤ r.2
  rows : ∀ i row, r.1[i]? = some row → sockets.countP (fun s => s.place.mountId = i + 1) ≤ row.socketReferences
  admitted : ∀ s ∈ sockets, Admits r s.place.mountId
  ram : ∀ s ∈ sockets, isRam s.place.node

namespace Sockets

variable {sockets sockets' : List PathReference} {r : List MountRow × ℕ}

lemma nil : Sockets isRam [] r := ⟨Nat.zero_le _, fun _ _ _ => Nat.zero_le _, fun _ h => (not_mem_nil h).elim,
  fun _ h => (not_mem_nil h).elim⟩

variable {vfs : FileSystem} {s : PathReference} {f : MountRow → MountRow}

lemma onRecord (hr : Sockets isRam sockets vfs.record) (hs : s ∈ sockets) : onRecord isRam vfs s.place := by
  simp only [FileSystem.onRecord, Bool.and_eq_true, Bool.or_eq_true, decide_eq_true_eq]
  refine ⟨⟨hr.ram s hs, ?_⟩, ?_⟩
  · exact Nat.ne_of_gt ((length_pos_of_mem hs).trans_le hr.total)
  by_cases h0 : s.place.mountId = 0
  · exact .inl h0
  obtain ⟨row, hrow, ha⟩ := (hr.admitted s hs).resolve_left h0
  have hc := hr.rows _ row hrow
  have hpos : 0 < sockets.countP fun t => t.place.mountId = s.place.mountId - 1 + 1 :=
    countP_pos_iff.mpr ⟨s, hs, by simp; omega⟩
  refine .inr ?_
  change vfs.rows[s.place.mountId - 1]? = some row at hrow
  rw [hrow]
  simp only [Option.any_some, Bool.and_eq_true, decide_eq_true_eq]
  exact ⟨ha, by omega⟩

lemma modify (hr : Sockets isRam sockets r) {index : ℕ} {n : ℕ} (hn : sockets'.length ≤ n)
    (hsub : ∀ s ∈ sockets', s ∈ sockets ∨ Admits r s.place.mountId ∧ isRam s.place.node)
    (hother : ∀ i, i ≠ index →
      sockets'.countP (fun s => s.place.mountId = i + 1) ≤ sockets.countP (fun s => s.place.mountId = i + 1))
    (hf : ∀ row, r.1[index]? = some row → sockets'.countP (fun s => s.place.mountId = index + 1) ≤ (f row).socketReferences)
    (ha : ∀ row, r.1[index]? = some row → row.attached → (∃ s ∈ sockets', s.place.mountId = index + 1) → (f row).attached) :
    Sockets isRam sockets' (r.1.modify index f, n) := by
  refine ⟨hn, fun i row hi => ?_, fun s hs => ?_, fun s hs => (hsub s hs).elim (hr.ram s) And.right⟩
  · rw [getElem?_modify] at hi
    obtain ⟨row, hrow, rfl⟩ := Option.map_eq_some_iff.mp hi
    split_ifs with h
    · subst h
      exact hf row hrow
    · exact (hother i (Ne.symm h)).trans (hr.rows i row hrow)
  by_cases h0 : s.place.mountId = 0
  · exact .inl h0
  obtain ⟨row, hrow, hat⟩ := ((hsub s hs).elim (hr.admitted s) And.left).resolve_left h0
  refine .inr ⟨_, by rw [getElem?_modify, hrow]; rfl, ?_⟩
  split_ifs with h
  · exact ha row (h ▸ hrow) hat ⟨s, hs, by omega⟩
  · exact hat

lemma changed (hr : Sockets isRam sockets r) {index : ℕ} (hf : ∀ row, (f row).socketReferences = row.socketReferences)
    (ha : ∀ row, r.1[index]? = some row → row.attached → row.socketReferences ≠ 0 → (f row).attached) :
    Sockets isRam sockets (r.1.modify index f, r.2) := by
  refine hr.modify hr.total (fun _ h => .inl h) (fun _ _ => le_rfl) (fun row hrow => hf row ▸ hr.rows _ row hrow) ?_
  rintro row hrow hat ⟨s, hs, hm⟩
  refine ha row hrow hat (Nat.ne_of_gt (Nat.lt_of_lt_of_le ?_ (hr.rows _ row hrow)))
  exact countP_pos_iff.mpr ⟨s, hs, by simpa using hm⟩

lemma counted (hr : Sockets isRam sockets r) (mountId : ℕ) : Sockets isRam sockets (counted r mountId) := by
  unfold FileSystem.counted
  split_ifs
  · exact { hr with total := hr.total.trans (Nat.le_succ _) }
  · exact hr.modify (hr.total.trans (Nat.le_succ _)) (fun _ h => .inl h) (fun _ _ => le_rfl)
      (fun row hrow => (hr.rows _ row hrow).trans (Nat.le_succ _)) fun _ _ hat _ => hat

lemma added (h : Adds (Sockets isRam sockets) isRam s r) : Sockets isRam (s :: sockets) r := by
  obtain ⟨r, hr, ha, hram, rfl⟩ := h
  unfold FileSystem.counted
  split_ifs with h0
  · refine ⟨Nat.succ_le_succ hr.total, fun i row hi => ?_, forall_mem_cons.mpr ⟨ha, hr.admitted⟩,
      forall_mem_cons.mpr ⟨hram, hr.ram⟩⟩
    rw [countP_cons_of_neg (by simp [h0])]
    exact hr.rows i row hi
  refine hr.modify (Nat.succ_le_succ hr.total) (forall_mem_cons.mpr ⟨.inr ⟨ha, hram⟩, fun _ h => .inl h⟩) (fun i hi => ?_)
    (fun row hrow => ?_) fun _ _ hat _ => hat
  · rw [countP_cons_of_neg]
    simp only [decide_eq_true_eq]
    omega
  rw [countP_cons]
  have := hr.rows _ row hrow
  dsimp only
  split_ifs <;> omega

lemma removed (hr : Sockets isRam sockets vfs.record) (hs : s ∈ sockets) :
    Sockets isRam (sockets.erase s) (vfs.uncounted s.place.mountId).record := by
  have hlen := length_erase_of_mem hs
  have htotal := hr.total
  unfold uncounted record
  split_ifs with h0
  · refine ⟨by rw [hlen]; exact Nat.sub_le_sub_right htotal 1, fun i row hi => ?_, fun t ht => hr.admitted t (mem_of_mem_erase ht),
      fun t ht => hr.ram t (mem_of_mem_erase ht)⟩
    exact ((erase_sublist).countP_le).trans (hr.rows i row hi)
  refine hr.modify (by rw [hlen]; exact Nat.sub_le_sub_right htotal 1) (fun t ht => .inl (mem_of_mem_erase ht))
    (fun i _ => (erase_sublist).countP_le) (fun row hrow => ?_) fun _ _ hat _ => hat
  have hcount := hr.rows _ row hrow
  have hperm := (perm_cons_erase hs).countP_eq fun t => t.place.mountId = s.place.mountId - 1 + 1
  rw [countP_cons_of_pos (by simp; omega)] at hperm
  dsimp only
  omega

end Sockets

/-- What the calls that change the table of mounts do to it keeps `P`; `Q place` if, besides, a mount may cover `place`. -/
structure Mounts (env : ℕ → Answers) (P : List MountRow × ℕ → Prop) (Q : Place → List MountRow × ℕ → Prop) : Prop where
  resolves (path : Path) : Triple (fun vfs => P vfs.record) (resolveIn env {} path .noSymlinks)
    (fun resolved vfs => Q resolved.object vfs.record) fun vfs => P vfs.record
  kept {place : Place} {r : List MountRow × ℕ} : Q place r → P r
  named {place : Place} {r : List MountRow × ℕ} (index : ℕ) (path : Path) :
    Q place r → Q place (r.1.modify index fun row => { row with path := path }, r.2)
  attached {place : Place} {r : List MountRow × ℕ} {index : ℕ} {phase : MountPhase} (path : Path) (root : ℕ)
    (hp : ∀ mount : Mount, mount.phase = phase → mount.attached) (hi : r.1.findIdx? (fun row => row.phase = .unused) = some index) :
    Q place r → P (r.1.modify index fun row => { row with
      phase := phase, path := path, root := root, covered := place.node, coveredMountId := place.mountId }, r.2)
  detached {r : List MountRow × ℕ} {index : ℕ} {row : MountRow} (hi : r.1[index]? = some row)
    (hp : row.phase = .owned ∨ row.phase = .ownedRam) (hs : row.socketReferences = 0) :
    P r → P (r.1.modify index fun row => { row with phase := .detached, root := 0, covered := 0 }, r.2)

namespace Mounts

variable {Q : Place → List MountRow × ℕ → Prop} {index root uid gid : ℕ} {path : Path} {covered : Place} {mode : BitVec 32}
  {phase : MountPhase}

def Free (Q : Place → List MountRow × ℕ → Prop) (covered : Place) (index : ℕ) (r : List MountRow × ℕ) : Prop :=
  Q covered r ∧ r.1.findIdx? (fun row => row.phase = .unused) = some index

lemma findIdx?_modify {rows : List MountRow} {p : MountRow → Bool} {f : MountRow → MountRow} (hf : ∀ row, p (f row) = p row) :
    (rows.modify index f).findIdx? p = rows.findIdx? p := by
  induction rows generalizing index with
  | nil => simp
  | cons row rows ih => cases index <;> simp [findIdx?_cons, hf, ih]

variable (hm : Mounts env P Q)

include hm

lemma freeRow_bind {message : String} {f : ℕ → Eff Status FileSystem α} {R : α → FileSystem → Prop}
    (hf : ∀ index, Triple (fun vfs => Free Q covered index vfs.record) (f index) R fun vfs => P vfs.record) :
    Triple (fun vfs => Q covered vfs.record) (do
      let vfs ← get
      let index ← liftExcept (freeRow vfs.rows path message)
      f index) R fun vfs => P vfs.record := by
  refine .get_bind fun vfs => .bind (.liftExcept ?_ fun _ h => hm.kept h.2) hf
  rintro index hrow _ ⟨rfl, h⟩
  refine ⟨h, ?_⟩
  unfold freeRow at hrow
  split_ifs at hrow
  split at hrow
  next hfree =>
    cases hrow
    exact hfree
  next => cases hrow

lemma attach_triple (hp : ∀ mount : Mount, mount.phase = phase → mount.attached) :
    Triple (fun vfs => Free Q covered index vfs.record) (attach index phase path root covered) (fun _ vfs => P vfs.record)
      fun vfs => P vfs.record :=
  .modify fun _ h => hm.attached path root hp h.2 h.1

lemma attachBorrowed_triple : Triple (fun vfs => Q covered vfs.record) (attachBorrowed env path root covered)
    (fun _ vfs => P vfs.record) fun vfs => P vfs.record := by
  refine .bind (callbacks_frame fun _ h => hm.kept h) fun metadata => ?_
  split
  · exact .throw fun _ h => hm.kept h
  refine hm.freeRow_bind fun index => ?_
  split
  · exact .throw fun _ h => hm.kept h.1
  refine .bind (Q := fun _ vfs => Free Q covered index vfs.record) (.modify fun vfs h => ⟨hm.named index path h.1, ?_⟩) fun _ =>
    .bind (callbacks_frame fun _ h => hm.kept h.1) fun _ => hm.attach_triple fun mount h => by simp [Mount.attached, h]
  exact (findIdx?_modify (f := fun row => { row with path := path }) fun _ => rfl).trans h.2

lemma attachOwned_triple {node : ℕ} : Triple (fun vfs => Q covered vfs.record) (attachOwned env path node covered)
    (fun _ vfs => P vfs.record) fun vfs => P vfs.record := by
  refine .bind (callbacks_frame fun _ h => hm.kept h) fun metadata => ?_
  split
  · exact .throw fun _ h => hm.kept h
  refine hm.freeRow_bind fun index => ?_
  split
  · exact .throw fun _ h => hm.kept h.1
  exact .bind (callbacks_frame fun _ h => hm.kept h.1) fun _ =>
    .bind (hm.attach_triple fun mount h => by simp [Mount.attached, h]) fun _ => pure_keeps

lemma attachRam_triple : Triple (fun vfs => Q covered vfs.record) (attachRam env path mode uid gid covered)
    (fun _ vfs => P vfs.record) fun vfs => P vfs.record := by
  refine .bind (callbacks_frame fun _ h => hm.kept h) fun metadata => ?_
  split
  · exact .throw fun _ h => hm.kept h
  split
  · exact .throw fun _ h => hm.kept h
  refine hm.freeRow_bind fun index => ?_
  split
  · exact .throw fun _ h => hm.kept h.1
  exact .bind (callbacks_frame fun _ h => hm.kept h.1) fun _ =>
    .bind (hm.attach_triple fun mount h => by simp [Mount.attached, h]) fun _ => pure_keeps

lemma attaching_keeps {x : Place → Eff Status FileSystem α}
    (hx : ∀ place, Triple (fun vfs => Q place vfs.record) (x place) (fun _ vfs => P vfs.record) fun vfs => P vfs.record) :
    Keeps P (do
      let r ← resolveIn env {} path .noSymlinks
      tryCatch (x r.object) fun status => do
        callbacks (dropHeld env r.retained)
        throw status) :=
  .bind (hm.resolves path) fun r => .tryCatch (hx r.object) fun _ => .bind callbacks_keeps fun _ => throw_keeps

lemma mountBorrowed_keeps : Keeps P (mountBorrowed env path root) := by
  refine operation_triple (.bind callbacks_keeps fun _ => .bind liftExcept_keeps fun _ => .bind (hm.resolves path) fun r => ?_)
  refine .bind (.tryCatch hm.attachBorrowed_triple fun _ => .bind callbacks_keeps fun _ => throw_keeps) fun _ => ?_
  exact .bind (.tryCatch callbacks_keeps fun _ => .bind callbacks_keeps fun _ => throw_keeps) fun _ => pure_keeps

lemma mountOwned_keeps {anchored : Bool} : Keeps P (mountOwned env path anchored) := by
  refine .tryCatch (operation_triple (.bind callbacks_keeps fun _ => .bind callbacks_keeps fun _ => .bind liftExcept_keeps fun _ =>
    hm.attaching_keeps fun _ => hm.attachOwned_triple)) fun status => ?_
  cases anchored with
  | true => exact .bind callbacks_keeps fun _ => throw_keeps
  | false => exact throw_keeps

lemma mountRamOwned_keeps : Keeps P (mountRamOwned env path mode uid gid) :=
  operation_triple (guard_keeps (guard_keeps (hm.attaching_keeps fun _ => hm.attachRam_triple)))

lemma detach_keeps {mount : MountHandle} : Keeps P (detach env mount) := by
  refine operation_triple (.get_bind fun vfs => ?_)
  split
  · exact .throw fun _ h => h.2
  next row hrow =>
  split
  · exact .throw fun _ h => h.2
  next hphase =>
  split
  · exact .throw fun _ h => h.2
  next hs =>
  split
  · exact .throw fun _ h => h.2
  have hrow : vfs.rows[mount.id - 1]? = some row := by
    split at hrow
    · exact hrow
    · cases hrow
  refine .bind (Q := fun _ now => now.rows = vfs.rows ∧ P now.record) ?_ fun _ =>
    .bind (Q := fun _ now => P now.record) (.modify ?_) fun _ => callbacks_keeps
  · refine (callbacks_frame (P := fun r => r.1 = vfs.rows ∧ P r) fun _ h => h.2).weaken ?_ fun _ _ h => h
    rintro _ ⟨rfl, h⟩
    exact ⟨rfl, h⟩
  rintro now ⟨hrows, h⟩
  refine hm.detached ((congrArg (·[mount.id - 1]?) hrows).trans hrow) ?_ (not_not.mp hs) h
  by_contra hcon
  rw [not_or] at hcon
  exact hphase hcon

lemma perform_keeps {call : Call} (hc : call.mounts = true) : Keeps P (call.perform env isRam) := by
  cases call with
  | mountBorrowed => exact .map hm.mountBorrowed_keeps
  | mountOwned => exact .map hm.mountOwned_keeps
  | mountRamOwned => exact .map hm.mountRamOwned_keeps
  | detach => exact .map hm.detach_keeps
  | _ => cases hc

end Mounts

lemma Sockets.mounts {sockets : List PathReference} : Mounts env (Sockets isRam sockets) fun _ => Sockets isRam sockets where
  resolves _ := resolveIn_keeps
  kept h := h
  named _ _ h := h.changed (fun _ => rfl) fun _ _ hat _ => hat
  attached _ _ hp _ h := h.changed (fun _ => rfl) fun _ _ _ _ => hp _ rfl
  detached hi _ hs h := h.changed (fun _ => rfl) fun row' hrow' _ hne => by
    rw [hi] at hrow'
    cases hrow'
    exact absurd hs hne

/-- Rows are used from the first on and never again, and a mount covers a place of an earlier one. -/
structure Filled (n : ℕ) (r : List MountRow × ℕ) : Prop where
  used : ∀ (i : ℕ) (row : MountRow), r.1[i]? = some row → (row.phase = .unused ↔ n ≤ i)
  covers : ∀ (i : ℕ) (row : MountRow), r.1[i]? = some row → row.attached → row.coveredMountId ≤ i

def InOrder (r : List MountRow × ℕ) : Prop := ∃ n, Filled n r

namespace Filled

variable {n index : ℕ} {r : List MountRow × ℕ}

lemma ordered (h : Filled n vfs.record) : vfs.mountTable.Ordered := by
  intro i mount hi ha
  obtain ⟨row, hrow, rfl⟩ := Option.map_eq_some_iff.mp (getElem?_map.symm.trans hi)
  exact h.covers i row hrow ha

lemma within (h : Filled n vfs.record) : vfs.mountTable.Within n := by
  intro i mount hi ha
  obtain ⟨row, hrow, rfl⟩ := Option.map_eq_some_iff.mp (getElem?_map.symm.trans hi)
  have hlt : i < n := not_le.mp fun hle => by
    have hunused := (h.used i row hrow).mpr hle
    simp [Mount.attached, hunused] at ha
  exact ⟨hlt, (h.covers i row hrow ha).trans hlt.le⟩

lemma modify (h : Filled n r) {f : MountRow → MountRow} {m n' : ℕ} (hother : ∀ i, i ≠ index → (n ≤ i ↔ n' ≤ i))
    (hf : ∀ row, r.1[index]? = some row → ((f row).phase = .unused ↔ n' ≤ index) ∧
      ((f row).attached → (f row).coveredMountId ≤ index)) : Filled n' (r.1.modify index f, m) := by
  have hrow (i : ℕ) (row : MountRow) (hi : (r.1.modify index f)[i]? = some row) :
      (row.phase = .unused ↔ n' ≤ i) ∧ (row.attached → row.coveredMountId ≤ i) := by
    rw [getElem?_modify] at hi
    obtain ⟨old, hold, rfl⟩ := Option.map_eq_some_iff.mp hi
    split_ifs with he
    · subst he
      exact hf old hold
    · exact ⟨(h.used i old hold).trans (hother i (Ne.symm he)), h.covers i old hold⟩
  exact ⟨fun i row hi => (hrow i row hi).1, fun i row hi => (hrow i row hi).2⟩

lemma same (h : Filled n r) {f : MountRow → MountRow} {m : ℕ} (hf : ∀ row, (f row).phase = row.phase)
    (hc : ∀ row, (f row).coveredMountId = row.coveredMountId) : Filled n (r.1.modify index f, m) := by
  refine h.modify (fun _ _ => Iff.rfl) fun row hrow => ⟨by rw [hf]; exact h.used _ row hrow, fun ha => ?_⟩
  rw [hc]
  refine h.covers _ row hrow ?_
  simpa only [Mount.attached, hf] using ha

lemma counted (h : Filled n r) (mountId : ℕ) : Filled n (counted r mountId) := by
  unfold FileSystem.counted
  split_ifs
  · exact ⟨h.used, h.covers⟩
  · exact h.same (fun _ => rfl) fun _ => rfl

lemma uncounted (h : Filled n vfs.record) (mountId : ℕ) : Filled n (vfs.uncounted mountId).record := by
  unfold FileSystem.uncounted record
  split_ifs
  · exact ⟨h.used, h.covers⟩
  · exact h.same (fun _ => rfl) fun _ => rfl

lemma resolveIn_triple {path : Path} : Triple (fun vfs => Filled n vfs.record) (resolveIn env {} path policy)
    (fun resolved vfs => Filled n vfs.record ∧ resolved.object.mountId ≤ n) fun vfs => Filled n vfs.record := by
  refine .get_bind fun vfs => ?_
  rintro _ ⟨rfl, h⟩
  refine callbacks_triple (P := Filled n) (B := fun resolved : Resolution => resolved.object.mountId ≤ n) (fun calls _ => ?_)
    (fun _ h => h) _ h
  rcases hx : (Namespace.resolveUnlocked _ env {} path policy).exec calls with ⟨e | b, later⟩
  · trivial
  · exact Namespace.resolveUnlocked_mount hx h.within

lemma mounts : Mounts env InOrder fun place r => ∃ n, Filled n r ∧ place.mountId ≤ n where
  resolves path := fun vfs ⟨n, h⟩ => by
    have hr := (resolveIn_triple : Triple _ (resolveIn env {} path .noSymlinks) _ _) vfs h
    rcases hx : (resolveIn env {} path .noSymlinks).exec vfs with ⟨e | b, later⟩ <;> rw [hx] at hr
    · exact ⟨n, hr⟩
    · exact ⟨n, hr⟩
  kept := fun ⟨n, h, _⟩ => ⟨n, h⟩
  named _ _ := fun ⟨n, h, hm⟩ => ⟨n, h.same (fun _ => rfl) fun _ => rfl, hm⟩
  attached {place r index phase} path root hp hi := by
    rintro ⟨n, h, hm⟩
    obtain ⟨hlt, hunused, hbefore⟩ := findIdx?_eq_some_iff_getElem.mp hi
    have hle := (h.used index _ (getElem?_eq_getElem hlt)).mp (of_decide_eq_true hunused)
    -- The row before the first unused one is not free, so that the free one is the first.
    obtain rfl : index = n := by
      by_contra hne
      have hfirst := (h.used n _ (getElem?_eq_getElem (by omega))).mpr le_rfl
      exact hbefore n (by omega) (decide_eq_true hfirst)
    refine ⟨index + 1, h.modify (fun i hi => by omega) fun row hrow => ⟨?_, fun _ => hm⟩⟩
    have hattached := hp { phase := phase } rfl
    refine ⟨fun hphase => ?_, fun hle => absurd hle (by omega)⟩
    dsimp only at hphase
    rw [hphase] at hattached
    cases hattached
  detached {r index row} hi hp _ := by
    rintro ⟨n, h⟩
    refine ⟨n, h.modify (fun _ _ => Iff.rfl) fun row' hrow' => ⟨?_, nofun⟩⟩
    rw [hi] at hrow'
    cases hrow'
    have hused := h.used index row hi
    rcases hp with hp | hp <;> simpa [hp] using hused

end Filled

end FileSystem

variable {env : ℕ → Answers} {isRam : ℕ → Bool}

def Call.asked (isRam : ℕ → Bool) (vfs : FileSystem) : Call → ℕ → ℤ
  | release reference => one reference.place.node
  | releaseSocket reference => if FileSystem.onRecord isRam vfs reference.place then one reference.place.node else 0
  | _ => 0

def handedOut (answer : Option PathReference) : ℕ → ℤ := owed (answer.map fun reference => reference.place.node)

def Call.opensSocket : Call → Bool
  | createSocket .. | resolveSocket .. => true
  | _ => false

structure Client where
  vfs : FileSystem
  nodes : List PathReference := []
  sockets : List PathReference := []

namespace Client

def May (client : Client) : Call → Prop
  | .release reference => reference ∈ client.nodes
  | .releaseSocket reference => reference ∈ client.sockets
  | _ => True

def giveUp (client : Client) : Call → Client
  | .release reference => { client with nodes := client.nodes.erase reference }
  | .releaseSocket reference => { client with sockets := client.sockets.erase reference }
  | _ => client

def takeOver (client : Client) (call : Call) : Result (Option PathReference) → Client
  | .ok (some reference) =>
    if call.opensSocket then { client with sockets := reference :: client.sockets }
    else { client with nodes := reference :: client.nodes }
  | _ => client

def after (env : ℕ → Answers) (isRam : ℕ → Bool) (client : Client) (call : Call) : Client :=
  let outcome := (call.perform env isRam).exec client.vfs
  { client.giveUp call with vfs := outcome.2 }.takeOver call outcome.1

inductive Reaches (env : ℕ → Answers) (isRam : ℕ → Bool) (start : FileSystem) : Client → Prop
  | start : Reaches env isRam start { vfs := start }
  | call {client : Client} {call : Call} : Reaches env isRam start client → client.May call →
    Reaches env isRam start (client.after env isRam call)

end Client

lemma release_owes (reference : PathReference) :
    FileSystem.Owes (one reference.place.node) (release env reference) fun _ => 0 :=
  callbacks_owes (Calls.release_owes _)

lemma uncounted_free (vfs : FileSystem) (mountId : ℕ) : (vfs.uncounted mountId).free = vfs.free := by
  simp only [free, uncounted]
  split_ifs
  · rfl
  · rw [stored_modify_same]
    exact fun _ => rfl

/-- The calls that leave the mounts and the counts of socket references as they are. -/
def Call.reads : Call → Bool
  | mountBorrowed .. | mountOwned .. | mountRamOwned .. | detach .. | create .. | createFile .. | createSocket ..
  | resolveSocket .. | releaseSocket .. => false
  | _ => true

lemma perform_frames {call : Call} (hc : call.reads = true) (vfs : FileSystem) (ν : List MountRow × ℕ → ℤ) :
    Frames ν (call.asked isRam vfs) (call.perform env isRam) handedOut := by
  cases call with
  | resolve => exact .map (resolve_owes _ _ _) fun _ => rfl
  | link => exact .map (link_owes _ _ _ _) fun _ => rfl
  | rename => exact .map (rename_owes _ _ _ _) fun _ => rfl
  | remove => exact .map (remove_owes _ _ _) fun _ => rfl
  | importArchiveDirectory => exact .map (importArchiveDirectory_owes _ _) fun _ => rfl
  | createReadonlyFile => exact .map (createReadonlyFile_owes _ _ _ _ _) fun _ => rfl
  | chmod | chown => exact .map (onNode_owes fun _ => request_owes _) fun _ => rfl
  | writeFile =>
    exact .map (onNode_owes fun _ => .bind (request_owes _) fun _ => request_owes _) fun _ => rfl
  | readFile =>
    exact .map (onNode_owes fun _ => .bind (queryMetadata_owes _) fun _ => read_owes _ _ _) fun _ => rfl
  | list => exact .map (onNode_owes fun _ => ask_owes _) fun _ => rfl
  | stat => exact .map (onNode_owes fun _ => queryMetadata_owes _) fun _ => rfl
  | tryStatAbsolute path =>
    refine .map (g := fun _ => 0) ?_ fun _ => rfl
    unfold tryStatAbsolute
    exact .guard (onNode_owes fun _ => queryMetadata_owes _)
  | queryMetadata => exact .map (operation_owes (callbacks_frames (queryMetadata_owes _))) fun _ => rfl
  | lookup => exact .map (lookup_owes _) fun _ => rfl
  | directoryPath => exact .map (directoryPath_owes _ _) fun _ => rfl
  | release => exact .map (callbacks_frames (Calls.release_owes _)) fun _ => rfl
  | _ => cases hc

lemma perform_owes {call : Call} (hc : ∀ reference, call ≠ .releaseSocket reference) (vfs : FileSystem) :
    FileSystem.Owes (call.asked isRam vfs) (call.perform env isRam) handedOut := by
  refine frames_zero.mp ?_
  cases hr : call.reads with
  | true => exact perform_frames hr vfs 0
  | false =>
  cases call with
  | mountBorrowed => exact .map (mountBorrowed_owes _ _) fun _ => rfl
  | mountOwned => exact .map (mountOwned_owes _ _) fun _ => rfl
  | mountRamOwned => exact .map (mountRamOwned_owes _ _ _ _) fun _ => rfl
  | detach => exact .map (detach_owes _) fun _ => rfl
  | create => exact .map (create_owes _ _ _) fun _ => rfl
  | createFile | createSocket => exact .map (operation_owes (createUnlocked_owes _ _ _)) fun _ => rfl
  | resolveSocket => exact .map (resolveSocket_owes _ _) fun _ => rfl
  | releaseSocket reference => exact absurd rfl (hc reference)
  | _ => cases hr

lemma perform_free (env : ℕ → Answers) (isRam : ℕ → Bool) (call : Call) (vfs : FileSystem) :
    match (call.perform env isRam).exec vfs with
    | (.ok answer, later) => later.free = vfs.free + handedOut answer - call.asked isRam vfs
    | (.error _, later) => later.free = vfs.free - call.asked isRam vfs := by
  by_cases hc : ∀ reference, call ≠ .releaseSocket reference
  · have h : FileSystem.Owes (call.asked isRam vfs) (call.perform env isRam) handedOut := perform_owes hc vfs
    have h := h vfs
    rcases hr : (call.perform env isRam).exec vfs with ⟨e | b, later⟩ <;> rw [hr] at h
    · exact eq_sub_of_add_eq h
    · exact eq_sub_of_add_eq h
  push Not at hc
  obtain ⟨reference, rfl⟩ := hc
  rw [Call.perform, map_eq_pure_bind, exec_bind, Call.asked]
  split_ifs with h
  · have hrelease : FileSystem.Owes _ (release env reference) _ := release_owes reference
    have hrelease := hrelease (vfs.uncounted reference.place.mountId)
    rw [releaseSocketReference_recorded h]
    rw [uncounted_free] at hrelease
    rcases hr : (release env reference).exec (vfs.uncounted reference.place.mountId) with ⟨e | b, later⟩ <;>
      rw [hr] at hrelease
    · exact eq_sub_of_add_eq hrelease
    · exact eq_sub_of_add_eq hrelease
  obtain ⟨status, hr⟩ := releaseSocketReference_refused env h
  rw [hr]
  exact (sub_zero _).symm

section

variable {sockets : List PathReference}
  (halloc : ∀ t name type readonly node, (env t).allocateNode name type readonly = some node → isRam node)
include halloc

lemma createUnlocked_sockets {context : ResolveContext} {path : Path} {creation : FileSystem.Creation}
    (hs : creation.socketReference → creation.type = .socket) :
    Triple (fun vfs => FileSystem.Sockets isRam sockets vfs.record) (createUnlocked env isRam context path creation)
      (fun b vfs => FileSystem.Sockets isRam (if creation.socketReference then b :: sockets else sockets) vfs.record)
      fun vfs => FileSystem.Sockets isRam sockets vfs.record := by
  refine (createUnlocked_opens halloc hs fun _ mountId h => h.counted mountId).weaken (fun _ h => h) fun b vfs h => ?_
  split_ifs with hy
  · exact .added (h.2 hy)
  · exact h.1

lemma perform_inOrder (call : Call) : Keeps InOrder (call.perform env isRam) := by
  have hcounted (r mountId) (h : InOrder r) : InOrder (counted r mountId) := h.imp fun n h => h.counted mountId
  have hcreate {context : ResolveContext} {path : Path} {creation : FileSystem.Creation}
      (hs : creation.socketReference → creation.type = .socket) : Keeps InOrder (createUnlocked env isRam context path creation) :=
    (createUnlocked_opens halloc hs hcounted).weaken (fun _ h => h) fun _ _ h => h.1
  cases hr : call.reads with
  | true => exact fun vfs => keeps_of_frames (perform_frames hr vfs _) vfs
  | false =>
  cases call with
  | mountBorrowed | mountOwned | mountRamOwned | detach => exact FileSystem.Filled.mounts.perform_keeps rfl
  | create =>
    refine .map (operation_triple (.bind (hcreate ?_) fun _ => callbacks_keeps))
    exact fun h => absurd h Bool.false_ne_true
  | createFile =>
    refine .map (operation_triple (hcreate ?_))
    exact fun h => absurd h Bool.false_ne_true
  | createSocket => exact .map (operation_triple (hcreate fun _ => rfl))
  | resolveSocket =>
    refine .map (resolveSocket_triple.weaken (fun _ h => h) ?_)
    rintro _ _ ⟨r, hr, -, -, he⟩
    rw [he]
    exact hcounted r _ hr
  | releaseSocket reference =>
    refine .map fun vfs h => ?_
    by_cases hrecord : FileSystem.onRecord isRam vfs reference.place
    · have hkeeps : Keeps InOrder (release env reference) := callbacks_keeps
      rw [releaseSocketReference_recorded hrecord]
      exact hkeeps _ (h.imp fun n h => h.uncounted _)
    · obtain ⟨status, hr⟩ := releaseSocketReference_refused env hrecord
      rw [hr]
      exact h
  | _ => cases hr

lemma perform_sockets {call : Call} (hc : ∀ reference, call ≠ .releaseSocket reference) :
    Triple (fun vfs => FileSystem.Sockets isRam sockets vfs.record) (call.perform env isRam)
      (fun answer vfs => FileSystem.Sockets isRam (if call.opensSocket then answer.toList ++ sockets else sockets) vfs.record)
      fun vfs => FileSystem.Sockets isRam sockets vfs.record := by
  cases hr : call.reads with
  | true =>
    have hkeeps : Keeps (FileSystem.Sockets isRam sockets) (call.perform env isRam) :=
      fun vfs => keeps_of_frames (perform_frames hr vfs _) vfs
    have hnone : call.opensSocket = false := by cases call <;> first | rfl | cases hr
    rw [hnone]
    exact hkeeps
  | false =>
  cases call with
  | mountBorrowed | mountOwned | mountRamOwned | detach => exact FileSystem.Sockets.mounts.perform_keeps rfl
  | create =>
    refine .map (operation_triple (.bind (createUnlocked_sockets halloc ?_) fun _ => callbacks_keeps))
    exact fun h => absurd h Bool.false_ne_true
  | createFile =>
    refine .map (operation_triple (createUnlocked_sockets halloc ?_))
    exact fun h => absurd h Bool.false_ne_true
  | createSocket => exact .map (operation_triple (createUnlocked_sockets halloc fun _ => rfl))
  | resolveSocket => exact .map (resolveSocket_triple.weaken (fun _ h => h) fun _ _ h => .added h)
  | releaseSocket reference => exact absurd rfl (hc reference)
  | _ => cases hr

end

namespace Client

def holds (client : Client) (node : ℕ) : ℤ :=
  client.nodes.countP (fun r => r.place.node = node) + client.sockets.countP (fun r => r.place.node = node)

lemma countP_cons (l : List PathReference) (r : PathReference) (node : ℕ) :
    ((r :: l).countP (fun r => r.place.node = node) : ℤ) = l.countP (fun r => r.place.node = node) + one r.place.node node := by
  rw [List.countP_cons, one, Pi.single_apply]
  simp only [decide_eq_true_eq, eq_comm (a := node)]
  split_ifs <;> simp

lemma countP_erase {l : List PathReference} {r : PathReference} (h : r ∈ l) (node : ℕ) :
    ((l.erase r).countP (fun r => r.place.node = node) : ℤ) = l.countP (fun r => r.place.node = node) - one r.place.node node := by
  rw [(perm_cons_erase h).countP_eq, countP_cons, add_sub_cancel_right]

variable {client : Client} {call : Call} {start : FileSystem}

lemma giveUp_holds (hm : client.May call)
    (hs : FileSystem.Sockets isRam client.sockets client.vfs.record) (node : ℕ) :
    (client.giveUp call).holds node = client.holds node - call.asked isRam client.vfs node := by
  cases call with
  | release reference =>
    simp only [holds, giveUp, Call.asked, countP_erase hm]
    ring
  | releaseSocket reference =>
    simp only [holds, giveUp, Call.asked, if_pos (hs.onRecord hm), countP_erase hm]
    ring
  | _ => exact (sub_zero _).symm

lemma takeOver_holds (client : Client) (call : Call) (answer : Option PathReference) (node : ℕ) :
    (client.takeOver call (.ok answer)).holds node = client.holds node + handedOut answer node := by
  cases answer with
  | none => exact (add_zero _).symm
  | some reference =>
  simp only [takeOver, handedOut, Option.map_some, owed_some]
  split_ifs
  · simp only [holds, countP_cons]
    ring
  · simp only [holds, countP_cons]
    ring

lemma takeOver_vfs (client : Client) (call : Call) (outcome : Result (Option PathReference)) :
    (client.takeOver call outcome).vfs = client.vfs := by
  unfold takeOver
  split
  · split_ifs <;> rfl
  · rfl

lemma takeOver_sockets (client : Client) (call : Call) (answer : Option PathReference) :
    (client.takeOver call (.ok answer)).sockets = if call.opensSocket then answer.toList ++ client.sockets else client.sockets := by
  cases answer with
  | none => simp [takeOver]
  | some reference =>
    simp only [takeOver]
    split_ifs <;> rfl

lemma giveUp_sockets (hc : ∀ reference, call ≠ .releaseSocket reference) :
    (client.giveUp call).sockets = client.sockets := by
  cases call with
  | releaseSocket reference => exact absurd rfl (hc reference)
  | _ => rfl

structure Balanced (isRam : ℕ → Bool) (start : FileSystem) (client : Client) : Prop where
  counts : ∀ node, client.vfs.free node = start.free node + client.holds node
  sockets : FileSystem.Sockets isRam client.sockets client.vfs.record

lemma after_counts (h : Balanced isRam start client) (hm : client.May call)
    (node : ℕ) : (client.after env isRam call).vfs.free node = start.free node + (client.after env isRam call).holds node := by
  have hfree := perform_free env isRam call client.vfs
  have hgive := giveUp_holds hm h.sockets node
  have hcounts := h.counts node
  rw [after]
  rw [takeOver_vfs]
  rcases hr : (call.perform env isRam).exec client.vfs with ⟨e | answer, later⟩ <;> rw [hr] at hfree <;> dsimp only at hfree ⊢
  · rw [hfree, Pi.sub_apply, hcounts]
    change _ = _ + (client.giveUp call).holds node
    rw [hgive]
    ring
  rw [hfree, Pi.sub_apply, Pi.add_apply, hcounts, takeOver_holds]
  change _ = _ + ((client.giveUp call).holds node + _)
  rw [hgive]
  ring

lemma after_sockets
    (halloc : ∀ t name type readonly node, (env t).allocateNode name type readonly = some node → isRam node)
    (h : FileSystem.Sockets isRam client.sockets client.vfs.record) (hm : client.May call) :
    FileSystem.Sockets isRam (client.after env isRam call).sockets (client.after env isRam call).vfs.record := by
  rw [after]
  rw [takeOver_vfs]
  by_cases hc : ∀ reference, call ≠ .releaseSocket reference
  · have hperform := perform_sockets halloc hc client.vfs h
    rcases hr : (call.perform env isRam).exec client.vfs with ⟨e | answer, later⟩ <;> rw [hr] at hperform
    · change FileSystem.Sockets isRam (client.giveUp call).sockets later.record
      rw [giveUp_sockets hc]
      exact hperform
    · rw [takeOver_sockets, giveUp_sockets hc]
      exact hperform
  push Not at hc
  obtain ⟨reference, rfl⟩ := hc
  rw [Call.perform, map_eq_pure_bind, exec_bind, releaseSocketReference_recorded (h.onRecord hm)]
  have hkeeps : FileSystem.Keeps (FileSystem.Sockets isRam (client.sockets.erase reference)) (release env reference) :=
    callbacks_keeps
  have hkeeps := hkeeps _ (h.removed hm)
  rcases hr : (release env reference).exec (client.vfs.uncounted reference.place.mountId) with ⟨e | b, later⟩ <;>
    rw [hr] at hkeeps
  · exact hkeeps
  · exact hkeeps

lemma Reaches.balanced
    (halloc : ∀ t name type readonly node, (env t).allocateNode name type readonly = some node → isRam node)
    (h : Reaches env isRam start client) : Balanced isRam start client := by
  induction h with
  | start => exact ⟨fun _ => (add_zero _).symm, .nil⟩
  | call _ hm ih => exact ⟨after_counts ih hm, after_sockets halloc ih.sockets hm⟩

/-- Whatever clients do, every mount covers a place of an earlier one. -/
theorem Reaches.ordered
    (halloc : ∀ t name type readonly node, (env t).allocateNode name type readonly = some node → isRam node)
    (hstart : ∀ row ∈ start.rows, row.phase = .unused) (h : Reaches env isRam start client) : client.vfs.mountTable.Ordered := by
  suffices hin : FileSystem.InOrder client.vfs.record by
    obtain ⟨n, hn⟩ := hin
    exact hn.ordered
  induction h with
  | start =>
    refine ⟨0, fun i row hi => ⟨fun _ => Nat.zero_le i, fun _ => hstart row (mem_of_getElem? hi)⟩, fun i row hi ha => ?_⟩
    simp [Mount.attached, hstart row (mem_of_getElem? hi)] at ha
  | @call client call _ _ ih =>
  rw [after, takeOver_vfs]
  have hkeeps := perform_inOrder halloc call client.vfs ih
  rcases hr : (call.perform env isRam).exec client.vfs with ⟨e | answer, later⟩ <;> rw [hr] at hkeeps
  · exact hkeeps
  · exact hkeeps

end Client

theorem references_balance (env : ℕ → Answers) (isRam : ℕ → Bool) : (∀ (call : Call) (vfs : FileSystem),
      match (call.perform env isRam).exec vfs with
      | (.ok answer, later) => ∀ node, later.calls.references node = vfs.calls.references node + handedOut answer node +
          (stored later.rows node - stored vfs.rows node) - call.asked isRam vfs node
      | (.error _, later) => ∀ node, later.calls.references node = vfs.calls.references node +
          (stored later.rows node - stored vfs.rows node) - call.asked isRam vfs node) ∧
    ((∀ t name type readonly node, (env t).allocateNode name type readonly = some node → isRam node) →
      ∀ (start : FileSystem) (client : Client), Client.Reaches env isRam start client →
        (∀ node, client.vfs.calls.references node =
          start.calls.references node + client.holds node + (stored client.vfs.rows node - stored start.rows node)) ∧
        ∀ reference ∈ client.sockets, FileSystem.onRecord isRam client.vfs reference.place) := by
  refine ⟨fun call vfs => ?_, fun halloc start client h => ?_⟩
  · have hfree := perform_free env isRam call vfs
    rcases hr : (call.perform env isRam).exec vfs with ⟨e | answer, later⟩ <;> rw [hr] at hfree <;> dsimp only at hfree ⊢ <;>
      intro node <;> have hnode := congrFun hfree node <;>
      simp only [FileSystem.free, Pi.sub_apply, Pi.add_apply] at hnode <;> linarith
  have hb := h.balanced halloc
  refine ⟨fun node => ?_, fun reference hr => hb.sockets.onRecord hr⟩
  have hnode := hb.counts node
  simp only [FileSystem.free, Pi.sub_apply] at hnode
  linarith

/-- The directory /m, and a pool that hands out one root and one socket. -/
def onePool : Answers where
  queryMetadata _ := .ok { type := .directory, mode := 0o40755, linkCount := 2 }
  lookupChild node name := if node = 0 ∧ name = ['m'] then .ok 1 else .error (.notFound "directory entry not found")
  allocateNode _ type _ := some (if type = .socket then 3 else 2)

theorem references_balance_onePool :
    let after := Client.after (fun _ => onePool) fun _ => true
    let start : FileSystem := { calls := {}, root := 0, rows := [{}, {}] }
    let client := after (after (after { vfs := start } (.mountRamOwned ['/', 'm'] 0o755 0 0))
      (.createSocket {} ['/', 'm', '/', 's'] 0o755)) (.resolve {} ['/', 'm'] .follow)
    client.sockets = [⟨⟨3, 1⟩⟩] ∧ client.nodes = [⟨⟨2, 1⟩⟩] ∧ client.vfs.calls.references 1 = 1 ∧
      client.vfs.calls.references 2 = 2 ∧ FileSystem.onRecord (fun _ => true) client.vfs ⟨3, 1⟩ := by
  intro after start client
  have hsockets : client.sockets = [⟨⟨3, 1⟩⟩] := by decide +kernel
  have hnodes : client.nodes = [⟨⟨2, 1⟩⟩] := by decide +kernel
  have hrows : client.vfs.rows = [⟨⟨.ownedRam, ['/', 'm'], 2, 1, 0⟩, 1⟩, {}] := by decide +kernel
  have h1 : Client.Reaches (fun _ => onePool) (fun _ => true) start _ := .start
  have h2 : Client.Reaches _ _ start (after _ (.mountRamOwned ['/', 'm'] 0o755 0 0)) := .call h1 trivial
  have h3 : Client.Reaches _ _ start (after _ (.createSocket {} ['/', 'm', '/', 's'] 0o755)) := .call h2 trivial
  have h4 : Client.Reaches _ _ start client := .call h3 trivial
  obtain ⟨hreferences, hrecord⟩ := (references_balance (fun _ => onePool) fun _ => true).2 (fun _ _ _ _ _ _ => rfl) start client h4
  refine ⟨hsockets, hnodes, ?_, ?_, hrecord ⟨⟨3, 1⟩⟩ (by rw [hsockets]; exact mem_singleton_self _)⟩
  · rw [hreferences, Client.holds, hsockets, hnodes, hrows]
    simp [stored, MountRow.stored, one, start]
  · rw [hreferences, Client.holds, hsockets, hnodes, hrows]
    simp [stored, MountRow.stored, one, start]

end ObfuscationKernel.Fs.Vfs
