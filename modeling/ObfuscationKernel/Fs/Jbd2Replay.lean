import ObfuscationKernel.Fs.Jbd2Exact
import ObfuscationKernel.Fs.Jbd2Recovery

/-! A replay that is cut short at any request and then run again leaves what one whole replay leaves. -/

namespace ObfuscationKernel.Fs.Jbd2

open ObfuscationKernel.Core Library Library.Eff

section Planner

variable {ρ ρ' : Type} {R : ρ → ρ' → Prop} {read : ℕ → Eff Status ρ (List UInt8)} {read' : ℕ → Eff Status ρ' (List UInt8)}
  {c : Codec} {domain : TargetDomain} {storage : PlanStorage}

def Scan.withReader (scan : Scan ρ) (reader : ρ') : Scan ρ' where
  reader := reader
  position := scan.position
  scanned := scan.scanned
  sequence := scan.sequence
  committed := scan.committed
  actions := scan.actions
  revocations := scan.revocations
  committedActions := scan.committedActions
  committedRevokes := scan.committedRevokes
  revokeRecords := scan.revokeRecords
  pending := scan.pending

def Alike (R : ρ → ρ' → Prop) (scan : Scan ρ) (scan' : Scan ρ') : Prop :=
  ∃ reader, R scan.reader reader ∧ scan' = scan.withReader reader

lemma modify_follows {f : Scan ρ → Scan ρ} {g : Scan ρ' → Scan ρ'} (hf : ∀ scan, (f scan).reader = scan.reader)
    (hg : ∀ scan reader, g (scan.withReader reader) = (f scan).withReader reader) :
    Follows (Alike R) (modify f : Eff Status (Scan ρ) PUnit) (modify g) := by
  refine .modify ?_
  rintro scan _ ⟨reader, hr, rfl⟩
  exact ⟨reader, by rwa [hf], hg scan reader⟩

lemma readNext_follows (h : ∀ k, Follows R (read k) (read' k)) : Follows (Alike R) (readNext c read) (readNext c read') := by
  refine .get_bind ?_
  rintro scan _ ⟨reader, hr, rfl⟩
  refine .guard Iff.rfl (.bind (.part (h scan.position) ?_ ?_) fun block => .bind (modify_follows (fun _ => rfl) fun _ _ => rfl)
    fun _ => .pure block)
  · rintro a _ ⟨reader, hr, rfl⟩
    exact hr
  · rintro a _ next next' ⟨reader, hr, rfl⟩ hnext
    exact ⟨next', hnext, rfl⟩

lemma visitTag_follows (h : ∀ k, Follows R (read k) (read' k)) (tag : Tag) :
    Follows (Alike R) (visitTag c read domain storage tag) (visitTag c read' domain storage tag) := by
  refine .guard Iff.rfl (.get_bind ?_)
  rintro scan _ ⟨reader, hr, rfl⟩
  exact .guard Iff.rfl (.bind (readNext_follows h) fun payload => .bind (.liftExcept _) fun _ =>
    modify_follows (fun _ => rfl) fun _ _ => rfl)

lemma visitRevoke_follows (target : ℕ) :
    Follows (Alike R) (visitRevoke domain storage target) (visitRevoke domain storage target) := by
  refine .guard Iff.rfl (.get_bind ?_)
  rintro scan _ ⟨reader, hr, rfl⟩
  exact .guard Iff.rfl (modify_follows (fun _ => rfl) fun _ _ => rfl)

lemma each_follows {α s s' : Type} {R : s → s' → Prop} (r : Result (List α)) {visitor : α → Eff Status s PUnit}
    {visitor' : α → Eff Status s' PUnit} (h : ∀ a, Follows R (visitor a) (visitor' a)) :
    Follows R (Codec.each r visitor) (Codec.each r visitor') := by
  cases r with
  | error e => exact .throw e
  | ok l => exact .forM h l

lemma staleRecord_follows (block : List UInt8) (type sequence : BitVec 32) :
    Follows (Alike R) (staleRecord c block type sequence) (staleRecord c block type sequence) := by
  unfold staleRecord
  split_ifs
  · rw [c.descriptor_eq, c.descriptor_eq]
    exact each_follows _ fun _ => .pure _
  · rw [c.revoke_eq, c.revoke_eq]
    exact each_follows _ fun _ => .pure _
  · exact .bind (.liftExcept _) fun _ => .pure _

lemma scanRecord_follows (h : ∀ k, Follows R (read k) (read' k)) (block : List UInt8) (type : BitVec 32) :
    Follows (Alike R) (scanRecord c read domain storage block type) (scanRecord c read' domain storage block type) := by
  refine .get_bind ?_
  rintro scan _ ⟨reader, hr, rfl⟩
  split_ifs
  · refine .bind (modify_follows (fun _ => rfl) fun _ _ => rfl) fun _ => ?_
    rw [c.descriptor_eq, c.descriptor_eq]
    exact each_follows _ (visitTag_follows h)
  · refine .bind (modify_follows (fun _ => rfl) fun _ _ => rfl) fun _ => ?_
    rw [c.revoke_eq, c.revoke_eq]
    exact .bind (each_follows _ visitRevoke_follows) fun _ => modify_follows (fun _ => rfl) fun _ _ => rfl
  · exact .bind (.liftExcept _) fun _ => modify_follows (fun _ => rfl) fun _ _ => rfl

lemma scanLog_follows (h : ∀ k, Follows R (read k) (read' k)) (records : ℕ) :
    Follows (Alike R) (scanLog c read domain storage records) (scanLog c read' domain storage records) := by
  induction records with
  | zero => exact .throw _
  | succ records ih =>
  refine .bind (readNext_follows h) fun block => .get_bind ?_
  rintro scan _ ⟨reader, hr, rfl⟩
  have hsame : (scan.withReader reader).sequence = scan.sequence := rfl
  revert hsame
  generalize (scan.withReader reader).sequence = sequence
  rintro rfl
  dsimp only
  split_ifs
  · exact .pure _
  iterate 3 exact .throw _
  · exact staleRecord_follows _ _ _
  · exact .bind (scanRecord_follows h _ _) fun _ => ih

lemma buildReplayPlan_follows (h : ∀ k, Follows R (read k) (read' k)) :
    Follows R (buildReplayPlan c read domain storage) (buildReplayPlan c read' domain storage) := by
  unfold buildReplayPlan
  dsimp only
  split_ifs
  · exact .throw _
  · exact .pure _
  intro a b hr plan a' hx
  have hx : Scan.outcome ((scanLog c read domain storage (c.superblock.logBlocks + 1)).exec (c.superblock.start a)) =
    (.ok plan, a') := hx
  rcases hs : (scanLog c read domain storage (c.superblock.logBlocks + 1)).exec (c.superblock.start a) with ⟨r | r, scan⟩
  · rw [hs] at hx
    cases hx
  rw [hs] at hx
  cases hx
  obtain ⟨scan', h1, reader, h2, rfl⟩ := scanLog_follows h _ _ (c.superblock.start b) ⟨b, hr, rfl⟩ _ _ hs
  refine ⟨reader, ?_, h2⟩
  show Scan.outcome ((scanLog c read' domain storage (c.superblock.logBlocks + 1)).exec (c.superblock.start b)) = _
  rw [h1]
  rfl

lemma buildReplayPlan_keeps {P : ρ → Prop} (h : ∀ k, Triple P (read k) (fun _ => P) P) :
    Triple P (buildReplayPlan c read domain storage) (fun _ => P) P := by
  set I : Scan ρ → Prop := fun scan => P scan.reader
  have hnext : Triple I (readNext c read) (fun _ => I) I := by
    refine .get_bind fun scan => ?_
    split_ifs
    · exact .throw fun _ hs => hs.2
    refine .bind (Q := fun _ => I) ?_ fun block => .bind (.modify (Q := fun _ => I) fun _ hs => hs) fun _ => .pure fun _ hs => hs
    exact .part (h scan.position) (fun _ hs => hs.2) (fun _ _ _ _ hp => hp) fun _ _ _ hp => hp
  have hcarried : Carried read c I I := ⟨hnext, fun _ hs => hs, fun _ _ hr _ hs => (congrArg P hr).mpr hs⟩
  have hlog (records : ℕ) : Triple I (scanLog c read domain storage records) (fun _ => I) I := by
    induction records with
    | zero => exact .throw fun _ hs => hs
    | succ records ih =>
    refine .bind hnext fun block => .get_bind fun scan => ?_
    dsimp only
    split_ifs
    · exact .pure fun _ hs => hs.2
    iterate 3 exact .throw fun _ hs => hs.2
    · refine .weaken (P := I) (Q := fun _ => I) ?_ (fun _ hs => hs.2) fun _ _ hs => hs
      unfold staleRecord
      split_ifs
      · rw [c.descriptor_eq]
        exact hcarried.each _ _ fun _ => .pure fun _ hs => hs
      · rw [c.revoke_eq]
        exact hcarried.each _ _ fun _ => .pure fun _ hs => hs
      · exact .bind (.liftExcept (Q := fun _ => I) (fun _ _ _ hs => hs) fun _ hs => hs) fun _ => .pure fun _ hs => hs
    · refine .bind (Q := fun _ => I) ?_ fun _ => ih
      exact (hcarried.scanRecord domain storage _ _).weaken (fun _ hs => hs.2) fun _ _ hs => hs
  unfold buildReplayPlan
  dsimp only
  split_ifs
  · exact .throw fun _ hs => hs
  · exact .pure fun _ hs => hs
  intro reader hp
  have hk := hlog (c.superblock.logBlocks + 1) (c.superblock.start reader) hp
  rw [exec_mk]
  rcases hs : (scanLog c read domain storage (c.superblock.logBlocks + 1)).exec (c.superblock.start reader) with ⟨e | r, scan⟩ <;>
    rw [hs] at hk <;> exact hk

end Planner

namespace RecoveryIo

variable {io : RecoveryIo} {env clean : ℕ → Response} {bytes bytes' : ℕ → UInt8} {block target : ℕ} {data : List UInt8}

/-- The device answers every request, and always reports the geometry that it was opened with. -/
def Faultless (io : RecoveryIo) (env : ℕ → Response) : Prop :=
  io.geometry.writable = true ∧ ∀ k, (env k).geometry = io.geometry ∧ (env k).failure = none

def Inside (io : RecoveryIo) (block a : ℕ) : Prop := io.place block ≤ a ∧ a < io.place block + io.layout.blockSize

def Aligned (io : RecoveryIo) : Prop := io.geometry.blockSize ∣ io.layout.blockSize ∧ 1024 ≤ io.layout.blockSize

lemma open_aligned {geometry : BlockGeometry} {layout : RecoveryLayout} (h : RecoveryIo.open geometry layout = .ok io) :
    io.Aligned := by
  unfold RecoveryIo.open at h
  dsimp only at h
  split_ifs at h with h1 h2 h3
  cases h
  simp only [not_or, not_and_or, not_not] at h2
  obtain ⟨hsize, -, -, -, hmod⟩ := h2
  refine ⟨Nat.dvd_of_mod_eq_zero hmod, ?_⟩
  show 1024 ≤ layout.blockSize
  rcases hsize with h | h | h <;> omega

lemma place_eq (h : io.Aligned) (block : ℕ) :
    io.place block = io.layout.firstSector * io.geometry.blockSize + block * io.layout.blockSize := by
  rw [place, sector, Nat.add_mul, Nat.mul_assoc, Nat.div_mul_cancel h.1]

variable {a : ℕ}

lemma Inside.unique (h : io.Aligned) (hb : io.Inside block a) (ht : io.Inside target a) : block = target := by
  unfold Inside at hb ht
  rw [place_eq h] at hb ht
  obtain ⟨h1, h2⟩ := hb
  obtain ⟨h3, h4⟩ := ht
  have hpos : 0 < io.layout.blockSize := by have := h.2; omega
  by_contra hne
  rcases Nat.lt_or_gt_of_ne hne with hlt | hgt
  · have := Nat.mul_le_mul_right io.layout.blockSize (Nat.succ_le_of_lt hlt)
    rw [Nat.succ_mul] at this
    omega
  have := Nat.mul_le_mul_right io.layout.blockSize (Nat.succ_le_of_lt hgt)
  rw [Nat.succ_mul] at this
  omega

@[simp] lemma contents_length (io : RecoveryIo) (bytes : ℕ → UInt8) (block : ℕ) :
    (io.contents bytes block).length = io.layout.blockSize := by
  simp [contents]

lemma contents_congr (h : ∀ a, io.Inside block a → bytes a = bytes' a) : io.contents bytes block = io.contents bytes' block := by
  refine List.map_congr_left fun k hk => h _ ⟨Nat.le_add_right _ _, ?_⟩
  have := List.mem_range.mp hk
  omega

lemma overwrite_outside (hd : data.length = io.layout.blockSize) (h : ¬ io.Inside target a) :
    overwrite bytes (io.place target) data a = bytes a := by
  unfold overwrite
  rw [hd]
  exact if_neg h

lemma overwrite_inside (hd : data.length = io.layout.blockSize) (h : io.Inside target a) :
    overwrite bytes (io.place target) data a = overwrite bytes' (io.place target) data a := by
  unfold overwrite
  rw [hd]
  exact (if_pos h).trans (if_pos h).symm

lemma permitsRange_journal (h : io.permitsRange ⟨target, 1⟩ = true) {k : ℕ} (hk : k < io.layout.journalBlocks) :
    io.layout.journalFirstBlock + k ≠ target := by
  simp only [permitsRange, Bool.and_eq_true, Bool.or_eq_true, decide_eq_true_eq] at h
  rcases h.2 with h | h <;> omega

section

variable {P E : Device → Prop} (hP : ∀ device k, P device → P { device with requests := k }) (hE : ∀ device, P device → E device)

include hP

lemma respond_spec : Triple P (respond env) (fun _ => P) E := by
  refine .get_bind fun device => ?_
  intro now hnow
  obtain ⟨rfl, h⟩ := hnow
  exact hP _ _ h

include hE

lemma stableGeometry_spec : Triple P (io.stableGeometry env) (fun _ => P) E := by
  refine .bind (respond_spec hP) fun response => ?_
  dsimp only
  split_ifs
  · exact .throw hE
  · exact .pure fun _ h => h

lemma flush_spec : Triple P (io.flush env) (fun _ => P) E := by
  refine .bind (stableGeometry_spec hP hE) fun _ => .bind (.bind (respond_spec hP) fun response => ?_) fun _ =>
    stableGeometry_spec hP hE
  split
  · exact .throw hE
  · exact .pure fun _ h => h

end

lemma readBlock_spec (k : ℕ) (bytes : ℕ → UInt8) : Triple (fun device => device.bytes = bytes) (io.readBlock env k)
    (fun block device => device.bytes = bytes ∧ k < io.layout.journalBlocks ∧
      block = io.contents bytes (io.layout.journalFirstBlock + k)) (fun device => device.bytes = bytes) := by
  unfold readBlock
  split_ifs with hk
  · exact .throw fun _ h => h
  refine .bind (stableGeometry_spec (fun _ _ h => h) fun _ h => h) fun _ => ?_
  refine .bind (Q := fun block device => device.bytes = bytes ∧ block = io.contents bytes (io.layout.journalFirstBlock + k)) ?_
    fun block => ?_
  on_goal 2 =>
    refine .bind (Q := fun _ device => device.bytes = bytes ∧ block = io.contents bytes (io.layout.journalFirstBlock + k))
      (stableGeometry_spec (fun _ _ h => h) fun _ h => h.1) fun _ => .pure fun _ h => ⟨h.1, not_le.mp hk, h.2⟩
  refine .bind (respond_spec fun _ _ h => h) fun response => ?_
  split
  · exact .throw fun _ h => h
  refine .get_bind fun device => .pure ?_
  rintro now ⟨rfl, h⟩
  exact ⟨h, by rw [h]⟩

def Agrees (bytes : ℕ → UInt8) (S : ℕ → Prop) (device : Device) : Prop := ∀ a, ¬ S a → device.bytes a = bytes a

lemma writeBlock_spec {S : ℕ → Prop} (target : ℕ) (hS : ∀ a, io.Inside target a → S a) (buffer : List UInt8) :
    Triple (Agrees bytes S) (io.writeBlock env target buffer) (fun _ => Agrees bytes S) (Agrees bytes S) := by
  have hkeep {device : Device} {data : List UInt8} (hd : data.length = io.layout.blockSize) (h : Agrees bytes S device) :
      Agrees bytes S { device with bytes := overwrite device.bytes (io.place target) data } := by
    intro a ha
    exact (overwrite_outside hd fun hi => ha (hS a hi)).trans (h a ha)
  unfold writeBlock
  split_ifs with hw
  · exact .throw fun _ h => h
  simp only [not_or, not_not] at hw
  refine .bind (stableGeometry_spec (fun _ _ h => h) fun _ h => h) fun _ => .bind (.bind (respond_spec fun _ _ h => h)
    fun response => ?_) fun _ => stableGeometry_spec (fun _ _ h => h) fun _ h => h
  split
  · refine .bind (.modify fun device h => ?_) fun _ => .throw fun _ h => h
    exact hkeep (by simp [hw.1]) h
  · exact .modify fun device h => hkeep hw.1 h

lemma exec_respond (env : ℕ → Response) (device : Device) :
    (respond env).exec device = (.ok (env device.requests), { device with requests := device.requests + 1 }) := rfl

section

variable (hc : io.Faultless clean) (device : Device)

include hc

lemma exec_stableGeometry :
    (io.stableGeometry clean).exec device = (.ok ⟨⟩, { device with requests := device.requests + 1 }) := by
  rw [stableGeometry, exec_bind_ok (exec_respond clean device)]
  simp [(hc.2 device.requests).1, hc.1]

lemma exec_flush : ∃ k, (io.flush clean).exec device = (.ok ⟨⟩, { device with requests := k }) := by
  have hflush (device : Device) : (deviceFlush clean).exec device = (.ok ⟨⟩, { device with requests := device.requests + 1 }) := by
    rw [deviceFlush, exec_bind_ok (exec_respond clean device), (hc.2 device.requests).2]
    rfl
  refine ⟨device.requests + 3, ?_⟩
  rw [flush, exec_bind_ok (exec_stableGeometry hc device), exec_bind_ok (hflush _), exec_stableGeometry hc]

lemma exec_readBlock {k : ℕ} (hk : k < io.layout.journalBlocks) : ∃ n, (io.readBlock clean k).exec device =
    (.ok (io.contents device.bytes (io.layout.journalFirstBlock + k)), { device with requests := n }) := by
  have hread (device : Device) (block : ℕ) : (io.deviceRead clean block).exec device =
      (.ok (io.contents device.bytes block), { device with requests := device.requests + 1 }) := by
    rw [deviceRead, exec_bind_ok (exec_respond clean device), (hc.2 device.requests).2]
    rfl
  refine ⟨device.requests + 3, ?_⟩
  rw [readBlock, if_neg (not_le.mpr hk), exec_bind_ok (exec_stableGeometry hc device), exec_bind_ok (hread _ _),
    exec_bind_ok (exec_stableGeometry hc _)]
  rfl

lemma exec_writeBlock (ht : io.permitsRange ⟨target, 1⟩ = true) (hd : data.length = io.layout.blockSize) :
    ∃ n, (io.writeBlock clean target data).exec device =
      (.ok ⟨⟩, { bytes := overwrite device.bytes (io.place target) data, requests := n }) := by
  have hwrite (device : Device) : (io.deviceWrite clean target data).exec device =
      (.ok ⟨⟩, { bytes := overwrite device.bytes (io.place target) data, requests := device.requests + 1 }) := by
    rw [deviceWrite, exec_bind_ok (exec_respond clean device), (hc.2 device.requests).2]
    rfl
  refine ⟨device.requests + 3, ?_⟩
  rw [writeBlock, if_neg (by simp [hd, ht]), exec_bind_ok (exec_stableGeometry hc device), exec_bind_ok (hwrite _),
    exec_stableGeometry hc]

end

def SameJournal (io : RecoveryIo) (device device' : Device) : Prop :=
  ∀ k < io.layout.journalBlocks, io.contents device.bytes (io.layout.journalFirstBlock + k) =
    io.contents device'.bytes (io.layout.journalFirstBlock + k)

lemma readBlock_follows (hc : io.Faultless clean) (k : ℕ) :
    Follows io.SameJournal (io.readBlock env k) (io.readBlock clean k) := by
  intro device device' hs block later hx
  obtain ⟨hb, hk, rfl⟩ := (readBlock_spec k device.bytes).ok rfl hx
  obtain ⟨n, hn⟩ := exec_readBlock hc device' hk
  refine ⟨_, by rw [hn, hs k hk], fun j hj => ?_⟩
  rw [hb]
  exact hs j hj

lemma flush_follows (hc : io.Faultless clean) : Follows io.SameJournal (io.flush env) (io.flush clean) := by
  intro device device' hs _ later hx
  have hspec : Triple _ (io.flush env) (fun _ d => d.bytes = device.bytes) _ := flush_spec (fun _ _ h => h) fun _ h => h
  have hb := hspec.ok rfl hx
  obtain ⟨n, hn⟩ := exec_flush hc device'
  refine ⟨_, hn, fun j hj => ?_⟩
  rw [hb]
  exact hs j hj

end RecoveryIo

namespace ReplayExecutor

open RecoveryIo

variable {capacity : ReplayCapacity} {io : RecoveryIo} {env clean : ℕ → Response} {expectedUuid : Vector UInt8 16}
  {domain : TargetDomain} {tagPolicy : DescriptorUuidPolicy} {c : Codec} {bytes : ℕ → UInt8}

def SameJournal (io : RecoveryIo) (executor executor' : ReplayExecutor) : Prop :=
  io.SameJournal executor.device executor'.device

variable {α : Type} {f : ReplayReport → ReplayReport} {actions : List ReplayAction}

lemma transfer_follows {x y : Eff Status Device α} (h : Follows io.SameJournal x y) :
    Follows (SameJournal io) (transfer x) (transfer y) :=
  .part h (fun _ _ hs => hs) fun _ _ _ _ _ hs => hs

lemma note_follows (f g : ReplayReport → ReplayReport) : Follows (SameJournal io) (note f) (note g) :=
  .modify fun _ _ h => h

lemma flushNoted_follows (hc : io.Faultless clean) : Follows (SameJournal io) (flushNoted io env) (flushNoted io clean) :=
  .bind (note_follows _ _) fun _ => .bind (transfer_follows (flush_follows hc)) fun _ => note_follows _ _

lemma readPayload_follows (hc : io.Faultless clean) (action : ReplayAction) :
    Follows (SameJournal io) (readPayload io env c action) (readPayload io clean c action) :=
  .bind (transfer_follows (readBlock_follows hc _)) fun _ => .bind (.liftExcept _) fun _ => .pure _

lemma preflightActions_follows (hc : io.Faultless clean) (plan : ReplayPlan) (previous : ℕ) (actions : List ReplayAction) :
    Follows (SameJournal io) (preflightActions io env domain c plan previous actions)
      (preflightActions io clean domain c plan previous actions) := by
  induction actions generalizing previous with
  | nil => exact .pure _
  | cons action actions ih =>
  exact .guard Iff.rfl (.bind (readPayload_follows hc action) fun _ => ih _)

lemma prepare_follows (hc : io.Faultless clean) :
    Follows (SameJournal io) (prepare capacity io env expectedUuid domain tagPolicy)
      (prepare capacity io clean expectedUuid domain tagPolicy) := by
  refine .bind ?_ fun _ => .bind ?_ fun planned => .bind ?_ fun _ => .pure _
  · exact .bind (note_follows _ _) fun _ => .guard Iff.rfl (.guard Iff.rfl (.guard Iff.rfl
      (.bind (flushNoted_follows hc) fun _ => note_follows _ _)))
  · exact .bind (note_follows _ _) fun _ => .bind (transfer_follows (readBlock_follows hc 0)) fun record =>
      .bind (.liftExcept _) fun c => .guard Iff.rfl (.bind (transfer_follows (buildReplayPlan_follows (readBlock_follows hc)))
        fun plan => .bind (note_follows _ _) fun _ => .pure _)
  · exact .bind (note_follows _ _) fun _ => .guard Iff.rfl (preflightActions_follows hc _ _ _)

def Untouched (bytes : ℕ → UInt8) (executor : ReplayExecutor) : Prop :=
  executor.device.bytes = bytes ∧ executor.report.writeAttempts = 0

lemma transfer_spec {x : Eff Status Device α} {Q : α → Device → Prop}
    (h : Triple (fun device => device.bytes = bytes) x (fun r device => device.bytes = bytes ∧ Q r device)
      (fun device => device.bytes = bytes)) :
    Triple (Untouched bytes) (transfer x) (fun r executor => Untouched bytes executor ∧ Q r executor.device)
      (Untouched bytes) :=
  .part h (fun _ he => he.1) (fun _ _ _ he h => ⟨⟨h.1, he.2⟩, h.2⟩) fun _ _ he h => ⟨h, he.2⟩

lemma note_spec (h : ∀ report, (f report).writeAttempts = report.writeAttempts) :
    Triple (Untouched bytes) (note f) (fun _ => Untouched bytes) (Untouched bytes) :=
  .modify fun _ he => ⟨he.1, (h _).trans he.2⟩

def Ready (io : RecoveryIo) (domain : TargetDomain) (bytes : ℕ → UInt8) (c : Codec) (actions : List ReplayAction) : Prop :=
  ∀ action ∈ actions, domain.permits action.targetBlock = true ∧ io.permitsRange ⟨action.targetBlock, 1⟩ = true ∧
    action.journalBlock < io.layout.journalBlocks ∧
    c.payload (io.contents bytes (io.layout.journalFirstBlock + action.journalBlock)) action.sequence
      ⟨action.targetBlock, action.checksum, action.restoreMagic⟩ = .ok ()

lemma flushNoted_spec : Triple (Untouched bytes) (flushNoted io env) (fun _ => Untouched bytes) (Untouched bytes) := by
  refine .bind (note_spec fun _ => rfl) fun _ => .bind (Q := fun _ => Untouched bytes) ?_ fun _ => note_spec fun _ => rfl
  refine (transfer_spec (Q := fun _ _ => True) ?_).weaken (fun _ h => h) fun _ _ h => h.1
  exact (flush_spec (fun _ _ h => h) fun _ h => h).weaken (fun _ h => h) fun _ _ h => ⟨h, trivial⟩

lemma readPayload_spec (action : ReplayAction) :
    Triple (Untouched bytes) (readPayload io env c action) (fun block executor => Untouched bytes executor ∧
      action.journalBlock < io.layout.journalBlocks ∧
      block = io.contents bytes (io.layout.journalFirstBlock + action.journalBlock) ∧
      c.payload block action.sequence ⟨action.targetBlock, action.checksum, action.restoreMagic⟩ = .ok ()) (Untouched bytes) := by
  refine .bind (transfer_spec (readBlock_spec _ bytes)) fun block => ?_
  refine .bind (.liftExcept ?_ fun _ h => h.1) fun _ => .pure fun _ h => h
  exact fun _ hok _ h => ⟨h.1, h.2.1, h.2.2, hok⟩

lemma preflightActions_spec (plan : ReplayPlan) (previous : ℕ) (actions : List ReplayAction) :
    Triple (Untouched bytes) (preflightActions io env domain c plan previous actions)
      (fun _ executor => Untouched bytes executor ∧ Ready io domain bytes c actions) (Untouched bytes) := by
  induction actions generalizing previous with
  | nil => exact .pure fun _ h => ⟨h, by simp [Ready]⟩
  | cons action actions ih =>
  unfold preflightActions
  dsimp only
  split_ifs with hbad
  · exact .throw fun _ h => h
  simp only [not_or, Bool.not_eq_true', Bool.not_eq_false] at hbad
  refine .bind (readPayload_spec action) fun block => ?_
  intro executor h
  have hrest := ih action.transactionOrder executor h.1
  rcases hd : (preflightActions io env domain c plan action.transactionOrder actions).exec executor with ⟨e | r, later⟩
  · rw [hd] at hrest
    exact hrest
  rw [hd] at hrest
  refine ⟨hrest.1, ?_⟩
  rintro a (_ | ⟨_, ha⟩)
  · exact ⟨hbad.1, hbad.2.1, h.2.1, h.2.2.1 ▸ h.2.2.2⟩
  · exact hrest.2 a ha

lemma prepare_spec : Triple (Untouched bytes) (prepare capacity io env expectedUuid domain tagPolicy)
    (fun planned executor => Untouched bytes executor ∧ Ready io domain bytes planned.1 planned.2.actions) (Untouched bytes) := by
  refine .bind (Q := fun _ => Untouched bytes) ?_ fun _ => .bind (Q := fun _ => Untouched bytes) ?_ fun planned =>
    .bind (Q := fun _ executor => Untouched bytes executor ∧ Ready io domain bytes planned.1 planned.2.actions) ?_
      fun _ => .pure fun _ h => h
  · refine .bind (note_spec fun _ => rfl) fun _ => ?_
    split_ifs
    iterate 3 exact .throw fun _ h => h
    · exact .bind flushNoted_spec fun _ => note_spec fun _ => rfl
  · refine .bind (note_spec fun _ => rfl) fun _ => .bind (Q := fun _ => Untouched bytes) ?_ fun record =>
      .bind (.liftExcept (Q := fun _ => Untouched bytes) (fun _ _ _ h => h) fun _ h => h) fun c => ?_
    · exact (transfer_spec (readBlock_spec 0 bytes)).weaken (fun _ h => h) fun _ _ h => h.1
    split_ifs
    · exact .throw fun _ h => h
    refine .bind (Q := fun _ => Untouched bytes) ?_ fun plan => .bind (note_spec fun _ => rfl) fun _ => .pure fun _ h => h
    refine (transfer_spec (Q := fun _ _ => True) ?_).weaken (fun _ h => h) fun _ _ h => h.1
    refine (buildReplayPlan_keeps fun k => ?_).weaken (fun _ h => h) fun _ _ h => ⟨h, trivial⟩
    exact (readBlock_spec k bytes).weaken (fun _ h => h) fun _ _ h => h.1
  refine .bind (note_spec fun _ => rfl) fun _ => ?_
  split_ifs
  · exact .throw fun _ h => h
  · exact preflightActions_spec _ _ _

def Written (io : RecoveryIo) (actions : List ReplayAction) (a : ℕ) : Prop :=
  ∃ action ∈ actions, io.Inside action.targetBlock a

def applied (io : RecoveryIo) (image : ℕ → UInt8) : List ReplayAction → (ℕ → UInt8) → ℕ → UInt8
  | [], bytes => bytes
  | action :: actions, bytes => applied io image actions (overwrite bytes (io.place action.targetBlock)
      (restored action (io.contents image (io.layout.journalFirstBlock + action.journalBlock))))

lemma restored_length (ha : io.Aligned) (action : ReplayAction) (block : ℕ) :
    (restored action (io.contents bytes block)).length = io.layout.blockSize := by
  have := ha.2
  unfold restored
  split_ifs <;> simp
  omega

lemma applied_congr (ha : io.Aligned) {image bytes bytes' : ℕ → UInt8}
    (h : ∀ a, ¬ Written io actions a → bytes a = bytes' a) : applied io image actions bytes = applied io image actions bytes' := by
  induction actions generalizing bytes bytes' with
  | nil => exact funext fun a => h a (by simp [Written])
  | cons action actions ih =>
  refine ih fun a hout => ?_
  by_cases hin : io.Inside action.targetBlock a
  · exact overwrite_inside (restored_length ha _ _) hin
  rw [overwrite_outside (restored_length ha _ _) hin, overwrite_outside (restored_length ha _ _) hin]
  refine h a ?_
  rintro ⟨b, _ | ⟨_, hb⟩, hi⟩
  · exact hin hi
  · exact hout ⟨b, hb, hi⟩

def Confined (io : RecoveryIo) (image : ℕ → UInt8) (actions : List ReplayAction) (executor : ReplayExecutor) : Prop :=
  Agrees image (Written io actions) executor.device

lemma transfer_confined {x : Eff Status Device α}
    (h : Triple (Agrees bytes (Written io actions)) x (fun _ => Agrees bytes (Written io actions))
      (Agrees bytes (Written io actions))) :
    Triple (Confined io bytes actions) (transfer x) (fun _ => Confined io bytes actions) (Confined io bytes actions) :=
  .part h (fun _ he => he) (fun _ _ _ _ h => h) fun _ _ _ h => h

lemma note_confined :
    Triple (Confined io bytes actions) (note f) (fun _ => Confined io bytes actions) (Confined io bytes actions) :=
  .modify fun _ he => he

lemma replay_confined (planned : Codec × ReplayPlan) : Triple (Confined io bytes planned.2.actions) (replay io env planned)
    (fun _ => Confined io bytes planned.2.actions) (Confined io bytes planned.2.actions) := by
  set I := Confined io bytes planned.2.actions with hI
  have hread (k : ℕ) : Triple (Agrees bytes (Written io planned.2.actions)) (io.readBlock env k)
      (fun _ => Agrees bytes (Written io planned.2.actions)) (Agrees bytes (Written io planned.2.actions)) := by
    intro device hd
    have hspec : Triple _ (io.readBlock env k) _ _ := readBlock_spec k device.bytes
    have hspec := hspec device rfl
    rcases hx : (io.readBlock env k).exec device with ⟨e | r, later⟩ <;> rw [hx] at hspec <;> intro a ha
    · exact (congrFun hspec a).trans (hd a ha)
    · exact (congrFun hspec.1 a).trans (hd a ha)
  have hflush : Triple I (flushNoted io env) (fun _ => I) I :=
    .bind note_confined fun _ => .bind (transfer_confined (flush_spec (fun _ _ h => h) fun _ h => h)) fun _ => note_confined
  have haction (action : ReplayAction) (ha : action ∈ planned.2.actions) :
      Triple I (replayAction io env planned.1 action) (fun _ => I) I := by
    refine .bind (.bind (transfer_confined (hread _)) fun block => .bind (.liftExcept (Q := fun _ => I) (fun _ _ _ h => h)
      fun _ h => h) fun _ => .pure fun _ h => h) fun payload => .bind note_confined fun _ =>
        .bind (transfer_confined ?_) fun _ => note_confined
    exact writeBlock_spec _ (fun a hi => ⟨action, ha, hi⟩) _
  refine .bind note_confined fun _ => .bind (.forM (fun _ => I) _ fun done action rest hl => haction action ?_) fun _ =>
    .bind note_confined fun _ => .bind hflush fun _ => note_confined
  rw [hl]
  simp

lemma exec_transfer {x : Eff Status Device α} {executor : ReplayExecutor} {r : α} {device : Device}
    (h : x.exec executor.device = (.ok r, device)) : (transfer x).exec executor = (.ok r, { executor with device := device }) := by
  rw [transfer, exec_part, h]

section

variable (ha : io.Aligned) (hc : io.Faultless clean) {image : ℕ → UInt8}

include ha hc

variable {executor : ReplayExecutor}

lemma replayAction_applies {action : ReplayAction} (hr : Ready io domain image c [action])
    (hj : io.SameJournal ⟨image, 0⟩ executor.device) : ∃ later, (replayAction io clean c action).exec executor = (.ok ⟨⟩, later) ∧
      later.device.bytes = applied io image [action] executor.device.bytes ∧ io.SameJournal ⟨image, 0⟩ later.device := by
  obtain ⟨-, hp, hk, hpay⟩ := hr action (List.mem_singleton_self _)
  set payload := io.contents image (io.layout.journalFirstBlock + action.journalBlock) with hpayload
  have hlength : (restored action payload).length = io.layout.blockSize := restored_length ha _ _
  obtain ⟨n, hn⟩ := exec_readBlock hc executor.device hk
  rw [← hj _ hk] at hn
  have hread : (readPayload io clean c action).exec executor =
      (.ok payload, { executor with device := { executor.device with requests := n } }) := by
    rw [readPayload, exec_bind_ok (exec_transfer hn), hpay]
    rfl
  obtain ⟨m, hm⟩ := exec_writeBlock hc { executor.device with requests := n } hp hlength
  refine ⟨⟨⟨overwrite executor.device.bytes (io.place action.targetBlock) (restored action payload), m⟩,
    { executor.report with
      writeAttempts := executor.report.writeAttempts + 1, completedWrites := executor.report.completedWrites + 1 }⟩, ?_, rfl, ?_⟩
  · rw [replayAction, exec_bind_ok hread, note, exec_bind_ok (exec_modify _ _), exec_bind_ok (exec_transfer hm)]
    rfl
  intro k hk'
  rw [hj k hk']
  refine contents_congr fun a hin => (overwrite_outside hlength fun ht => ?_).symm
  exact permitsRange_journal hp hk' (hin.unique ha ht)

lemma replayActions_apply {actions : List ReplayAction} (hr : Ready io domain image c actions)
    (hj : io.SameJournal ⟨image, 0⟩ executor.device) : ∃ later,
      (forM actions (replayAction io clean c)).exec executor = (.ok ⟨⟩, later) ∧
        later.device.bytes = applied io image actions executor.device.bytes := by
  induction actions generalizing executor with
  | nil => exact ⟨executor, rfl, rfl⟩
  | cons action actions ih =>
  obtain ⟨next, h1, h2, h3⟩ := replayAction_applies ha hc (fun b hb => hr b (by
    rw [List.mem_singleton.mp hb]
    exact List.mem_cons_self)) hj
  obtain ⟨later, h4, h5⟩ := ih (fun b hb => hr b (List.mem_cons_of_mem _ hb)) h3
  refine ⟨later, by rw [List.forM_cons, exec_bind_ok h1, h4], ?_⟩
  rw [h5, h2]
  rfl

lemma replay_applies {planned : Codec × ReplayPlan} (hr : Ready io domain image planned.1 planned.2.actions)
 (hj : io.SameJournal ⟨image, 0⟩ executor.device) : ∃ later, (replay io clean planned).exec executor = (.ok ⟨⟩, later) ∧
      later.device.bytes = applied io image planned.2.actions executor.device.bytes := by
  have hstart : io.SameJournal ⟨image, 0⟩ (device ⟨executor.device, { executor.report with phase := .replaying }⟩) := hj
  obtain ⟨next, h1, h2⟩ := replayActions_apply ha hc hr hstart
  obtain ⟨n, hn⟩ := exec_flush hc next.device
  have hflush (report : ReplayReport) : ∃ report', (flushNoted io clean).exec ⟨next.device, report⟩ =
      (.ok ⟨⟩, ⟨{ next.device with requests := n }, report'⟩) := by
    refine ⟨{ report with
      flushAttempts := report.flushAttempts + 1, completedFlushes := report.completedFlushes + 1 }, ?_⟩
    have hn' : (io.flush clean).exec (device ⟨next.device, { report with flushAttempts := report.flushAttempts + 1 }⟩) = _ := hn
    rw [flushNoted, note, exec_bind_ok (exec_modify _ _), exec_bind_ok (exec_transfer hn')]
    rfl
  obtain ⟨report, hf⟩ := hflush { next.report with phase := .flushing }
  refine ⟨⟨{ next.device with requests := n },
    { report with finalFlushSucceeded := true, phase := .complete, status := .ok ⟨⟩ }⟩, ?_, h2⟩
  rw [replay, note, exec_bind_ok (exec_modify _ _), exec_bind_ok h1, note, exec_bind_ok (exec_modify _ _), exec_bind_ok hf]
  rfl

end

section

variable (capacity io env clean expectedUuid domain tagPolicy) (device : Device)

def runOn : ReplayExecutor := ((run capacity io env expectedUuid domain tagPolicy).exec ⟨device, {}⟩).2

lemma runOn_eq : (runOn capacity io env expectedUuid domain tagPolicy device).device =
      ((prepare capacity io env expectedUuid domain tagPolicy >>= replay io env).exec ⟨device, {}⟩).2.device ∧
    (runOn capacity io env expectedUuid domain tagPolicy device).report.writeAttempts =
      ((prepare capacity io env expectedUuid domain tagPolicy >>= replay io env).exec ⟨device, {}⟩).2.report.writeAttempts := by
  rw [runOn, run, exec_bind_ok (exec_get _), if_neg (by simp), exec_tryCatch]
  rcases (prepare capacity io env expectedUuid domain tagPolicy >>= replay io env).exec ⟨device, {}⟩ with ⟨e | r, executor⟩
  · exact ⟨rfl, rfl⟩
  · exact ⟨rfl, rfl⟩

variable {capacity io env clean expectedUuid domain tagPolicy device}

variable {executor : ReplayExecutor} {planned : Codec × ReplayPlan}

lemma runOn_refused {e : Status}
    (h : (prepare capacity io env expectedUuid domain tagPolicy).exec ⟨device, {}⟩ = (.error e, executor)) :
    Untouched device.bytes (runOn capacity io env expectedUuid domain tagPolicy device) := by
  have hspec : Triple (Untouched device.bytes) (prepare capacity io env expectedUuid domain tagPolicy) _ _ := prepare_spec
  have hspec := hspec ⟨device, {}⟩ ⟨rfl, rfl⟩
  rw [h] at hspec
  obtain ⟨h1, h2⟩ := runOn_eq capacity io env expectedUuid domain tagPolicy device
  rw [exec_bind_error h] at h1 h2
  exact ⟨(congrArg Device.bytes h1).trans hspec.1, h2.trans hspec.2⟩

lemma prepare_ready
    (h : (prepare capacity io env expectedUuid domain tagPolicy).exec ⟨device, {}⟩ = (.ok planned, executor)) :
    executor.device.bytes = device.bytes ∧ Ready io domain device.bytes planned.1 planned.2.actions := by
  have hspec := prepare_spec.ok ⟨rfl, rfl⟩ h
  exact ⟨hspec.1.1, hspec.2⟩

lemma runOn_confined
    (h : (prepare capacity io env expectedUuid domain tagPolicy).exec ⟨device, {}⟩ = (.ok planned, executor)) :
    Confined io device.bytes planned.2.actions (runOn capacity io env expectedUuid domain tagPolicy device) := by
  have hspec : Triple (Confined io device.bytes planned.2.actions) (replay io env planned) _ _ := replay_confined planned
  have hspec := hspec executor fun a _ => congrFun (prepare_ready h).1 a
  have h1 := (runOn_eq capacity io env expectedUuid domain tagPolicy device).1
  rw [exec_bind_ok h] at h1
  intro a ha
  rw [h1]
  rcases hr : (replay io env planned).exec executor with ⟨e | r, later⟩ <;> rw [hr] at hspec <;> exact hspec a ha

lemma runOn_applied (ha : io.Aligned) (hc : io.Faultless clean)
    (h : (prepare capacity io clean expectedUuid domain tagPolicy).exec ⟨device, {}⟩ = (.ok planned, executor)) :
    (runOn capacity io clean expectedUuid domain tagPolicy device).device.bytes =
      applied io device.bytes planned.2.actions device.bytes := by
  obtain ⟨hb, hr⟩ := prepare_ready h
  have hj : io.SameJournal ⟨device.bytes, 0⟩ executor.device := by
    intro k _
    rw [hb]
  obtain ⟨later, h1, h2⟩ := replay_applies ha hc hr hj
  rw [(runOn_eq capacity io clean expectedUuid domain tagPolicy device).1, exec_bind_ok h, h1, h2, hb]

lemma runOn_outside {a : ℕ} (h : ∀ block, domain.permits block = true → io.permitsRange ⟨block, 1⟩ = true → ¬ io.Inside block a) :
    (runOn capacity io env expectedUuid domain tagPolicy device).device.bytes a = device.bytes a := by
  rcases hp : (prepare capacity io env expectedUuid domain tagPolicy).exec ⟨device, {}⟩ with ⟨e | planned, executor⟩
  · exact congrFun (runOn_refused hp).1 a
  refine runOn_confined hp a ?_
  rintro ⟨action, hmem, hin⟩
  obtain ⟨hd, hr, -⟩ := (prepare_ready hp).2 action hmem
  exact h _ hd hr hin

lemma runOn_journal (ha : io.Aligned) :
    io.SameJournal device (runOn capacity io env expectedUuid domain tagPolicy device).device := by
  intro k hk
  refine contents_congr fun a hin => (runOn_outside fun block _ hr ht => ?_).symm
  exact permitsRange_journal hr hk (hin.unique ha ht)

lemma applied_journal {image image' : ℕ → UInt8} {actions : List ReplayAction} (hr : Ready io domain image c actions)
    (hj : io.SameJournal ⟨image, 0⟩ ⟨image', 0⟩) (bytes : ℕ → UInt8) :
    applied io image actions bytes = applied io image' actions bytes := by
  induction actions generalizing bytes with
  | nil => rfl
  | cons action actions ih =>
  have hk := (hr action List.mem_cons_self).2.2.1
  rw [applied, applied, hj _ hk]
  exact ih (fun b hb => hr b (List.mem_cons_of_mem _ hb)) _

lemma runOn_again (ha : io.Aligned) (hc : io.Faultless clean) (requests : ℕ) :
    (runOn capacity io clean expectedUuid domain tagPolicy
      ⟨(runOn capacity io env expectedUuid domain tagPolicy device).device.bytes, requests⟩).device.bytes =
      (runOn capacity io clean expectedUuid domain tagPolicy device).device.bytes := by
  set left := (runOn capacity io env expectedUuid domain tagPolicy device).device.bytes with hleft
  have hj : io.SameJournal device ⟨left, requests⟩ := runOn_journal ha
  have hagain {n m : Device} (hs : io.SameJournal n m) {env : ℕ → Response} {planned : Codec × ReplayPlan}
      {executor : ReplayExecutor}
      (h : (prepare capacity io env expectedUuid domain tagPolicy).exec ⟨n, {}⟩ = (.ok planned, executor)) :
      ∃ later, (prepare capacity io clean expectedUuid domain tagPolicy).exec ⟨m, {}⟩ = (.ok planned, later) := by
    have hf : Follows _ (prepare capacity io env expectedUuid domain tagPolicy) _ := prepare_follows hc
    obtain ⟨later, hl, -⟩ := hf ⟨n, {}⟩ ⟨m, {}⟩ hs planned executor h
    exact ⟨later, hl⟩
  rcases hp : (prepare capacity io env expectedUuid domain tagPolicy).exec ⟨device, {}⟩ with ⟨e | planned, executor⟩
  · have hsame := (runOn_refused hp).1
    rcases hq : (prepare capacity io clean expectedUuid domain tagPolicy).exec ⟨device, {}⟩ with ⟨e' | planned, executor'⟩
    · rcases hl : (prepare capacity io clean expectedUuid domain tagPolicy).exec ⟨⟨left, requests⟩, {}⟩ with ⟨e'' | planned, later⟩
      · exact ((runOn_refused hl).1.trans hsame).trans (runOn_refused hq).1.symm
      obtain ⟨_, hbad⟩ := hagain (fun k hk => (hj k hk).symm) hl
      rw [hq] at hbad
      cases hbad
    · obtain ⟨later, hl⟩ := hagain hj hq
      rw [runOn_applied ha hc hl, runOn_applied ha hc hq, hsame]
  obtain ⟨executor', hq⟩ := hagain (fun _ _ => rfl) hp
  obtain ⟨later, hl⟩ := hagain hj hp
  rw [runOn_applied ha hc hl, runOn_applied ha hc hq, applied_congr ha (runOn_confined hp)]
  exact (applied_journal (prepare_ready hp).2 hj _).symm

end

/-- Whatever fails during a run, it leaves the journal and every block outside the domain as they were, it writes nothing
unless its preparation succeeds, and a later run without faults ends as one such run on the device as it was. -/
theorem replay_restartable {geometry : BlockGeometry} {layout : RecoveryLayout} (ho : RecoveryIo.open geometry layout = .ok io)
    (hc : io.Faultless clean) (capacity : ReplayCapacity) (env : ℕ → Response) (expectedUuid : Vector UInt8 16)
    (domain : TargetDomain) (tagPolicy : DescriptorUuidPolicy) (device : Device) :
    let left := runOn capacity io env expectedUuid domain tagPolicy device
    (∀ a, (∀ block, domain.permits block = true → io.permitsRange ⟨block, 1⟩ = true → ¬ io.Inside block a) →
      left.device.bytes a = device.bytes a) ∧
    (∀ k < io.layout.journalBlocks, io.contents left.device.bytes (io.layout.journalFirstBlock + k) =
      io.contents device.bytes (io.layout.journalFirstBlock + k)) ∧
    (∀ block, domain.permits block = false → io.contents left.device.bytes block = io.contents device.bytes block) ∧
    ((∀ planned executor, (prepare capacity io env expectedUuid domain tagPolicy).exec ⟨device, {}⟩ ≠ (.ok planned, executor)) →
      left.report.writeAttempts = 0 ∧ left.device.bytes = device.bytes) ∧
    ∀ requests, (runOn capacity io clean expectedUuid domain tagPolicy ⟨left.device.bytes, requests⟩).device.bytes =
      (runOn capacity io clean expectedUuid domain tagPolicy device).device.bytes := by
  have ha := open_aligned ho
  refine ⟨fun a => runOn_outside, fun k hk => (runOn_journal ha k hk).symm, fun block hb => ?_, fun hfail => ?_, runOn_again ha hc⟩
  · refine contents_congr fun a hin => runOn_outside fun other hd _ ho => ?_
    rw [hin.unique ha ho, hd] at hb
    cases hb
  rcases hp : (prepare capacity io env expectedUuid domain tagPolicy).exec ⟨device, {}⟩ with ⟨e | planned, executor⟩
  · exact ⟨(runOn_refused hp).2, (runOn_refused hp).1⟩
  · exact absurd hp (hfail _ _)

def diaryIo : RecoveryIo := ⟨⟨0, 2048, 1000, 1024, 1024⟩, ⟨4096, 512, true⟩⟩

def diaryDevice : Device where
  bytes a := if a / 1024 < 1000 then 7 else if a / 1024 = 1000 then diarySuperblock.getD (a % 1024) 0
    else (diaryBlock (a / 1024 - 1000)).getD (a % 1024) 0

def diaryFault (request : ℕ) : Response where
  geometry := diaryIo.geometry
  failure := if request = 25 then some (.ioError "power") else none
  torn _ := 255

theorem replay_restartable_diary : RecoveryIo.open ⟨4096, 512, true⟩ ⟨0, 2048, 1000, 1024, 1024⟩ = .ok diaryIo ∧
    (runOn {} diaryIo (fun _ => ⟨diaryIo.geometry, none, fun _ => 0⟩) (Vector.replicate 16 0) ⟨2048, [⟨4, 8⟩]⟩ .journalSuperblock
      ⟨(runOn {} diaryIo diaryFault (Vector.replicate 16 0) ⟨2048, [⟨4, 8⟩]⟩ .journalSuperblock diaryDevice).device.bytes,
        0⟩).device.bytes =
      (runOn {} diaryIo (fun _ => ⟨diaryIo.geometry, none, fun _ => 0⟩) (Vector.replicate 16 0) ⟨2048, [⟨4, 8⟩]⟩ .journalSuperblock
        diaryDevice).device.bytes := by
  have hopen : RecoveryIo.open ⟨4096, 512, true⟩ ⟨0, 2048, 1000, 1024, 1024⟩ = .ok diaryIo := by decide +kernel
  exact ⟨hopen, (replay_restartable hopen ⟨rfl, fun _ => ⟨rfl, rfl⟩⟩ {} diaryFault _ _ _ _).2.2.2.2 0⟩

end ReplayExecutor

end ObfuscationKernel.Fs.Jbd2
