import ObfuscationKernel.Fs.Jbd2Log

/-! The plan of a journal replay is made of exactly the committed transactions of the log. -/

namespace ObfuscationKernel.Fs.Jbd2

open ObfuscationKernel.Core Library Library.Eff
open List hiding Vector

variable {c : Codec} {image : Image c.superblock.blockSize} {domain : TargetDomain} {storage : PlanStorage}
  {sequence : BitVec 32} {position middle stop : ℕ} {entries : List Entry} {transactions : List (List Entry)}

lemma Entries.append {more : List Entry} (h : Entries c image sequence position entries middle)
    (hm : Entries c image sequence middle more stop) : Entries c image sequence position (entries ++ more) stop := by
  induction h with
  | nil => exact hm
  | cons hr _ ih => exact .cons hr (ih hm)

lemma sequence_zero (sequence : BitVec 32) : sequence + BitVec.ofNat 32 0 = sequence := BitVec.add_zero sequence

lemma sequence_succ (sequence : BitVec 32) (n : ℕ) :
    sequence + BitVec.ofNat 32 (n + 1) = sequence + 1 + BitVec.ofNat 32 n := by
  rw [BitVec.ofNat_add, BitVec.add_assoc, BitVec.add_comm 1]
  rfl

lemma Transactions.snoc (h : Transactions c image sequence position transactions middle)
    (he : Entries c image (sequence + BitVec.ofNat 32 transactions.length) middle entries stop)
    (hc : CommitAt c image (sequence + BitVec.ofNat 32 transactions.length) stop) :
    Transactions c image sequence position (transactions ++ [entries]) (c.superblock.advance stop) := by
  induction h with
  | nil =>
    rw [length_nil, sequence_zero] at he hc
    exact .cons he hc .nil
  | cons he' hc' _ ih =>
    rw [length_cons, sequence_succ] at he hc
    exact .cons he' hc' (ih he hc)

lemma loggedActions_snoc (sb : Superblock) (transactions : List (List Entry)) (entries : List Entry) :
    loggedActions sb (transactions ++ [entries]) =
      loggedActions sb transactions ++ entries.flatMap (Entry.actions sb transactions.length) := by
  simp [loggedActions, zipIdx_append]

lemma loggedRevocations_snoc (transactions : List (List Entry)) (entries : List Entry) :
    loggedRevocations (transactions ++ [entries]) =
      loggedRevocations transactions ++ entries.flatMap (Entry.revocations transactions.length) := by
  simp [loggedRevocations, zipIdx_append]

lemma Superblock.skip_succ (sb : Superblock) (n position : ℕ) : sb.skip (n + 1) position = sb.advance (sb.skip n position) :=
  Function.iterate_succ_apply' _ _ _

lemma actions_snoc (sb : Superblock) (order position : ℕ) (tags : List Tag) (tag : Tag) :
    (Entry.descriptor position (tags ++ [tag])).actions sb order = (Entry.descriptor position tags).actions sb order ++
      [⟨tag.targetBlock, sb.skip (tags.length + 1) position, sb.sequence + BitVec.ofNat 32 order, order, tag.checksum,
        tag.restoreMagic⟩] := by
  simp [Entry.actions, zipIdx_append]

def Counted (c : Codec) (scan : Scan (List ℕ)) : Prop :=
  scan.reader.length = scan.scanned ∧ scan.scanned ≤ c.superblock.logBlocks

def Bounded (c : Codec) (scan : Scan (List ℕ)) : Prop := scan.reader.length ≤ c.superblock.logBlocks

def Scan.read (c : Codec) (scan : Scan (List ℕ)) : Scan (List ℕ) :=
  { scan with reader := scan.reader ++ [scan.position], scanned := scan.scanned + 1,
              position := c.superblock.advance scan.position }

lemma readNext_spec (scan : Scan (List ℕ)) (h : Counted c scan) : Triple (· = scan) (readNext c (imageReader image))
      (fun block now => Holds c image scan.position block ∧ now = scan.read c ∧ Counted c now) (Bounded c) := by
  intro now hnow
  rw [hnow]
  unfold readNext
  rw [exec_bind_ok (exec_get _)]
  by_cases hfull : scan.scanned = c.superblock.logBlocks
  · rw [if_pos hfull]
    exact h.1.trans_le h.2
  rw [if_neg hfull]
  have hlt := Nat.lt_of_le_of_ne h.2 hfull
  have hcount : (scan.reader ++ [scan.position]).length = scan.scanned + 1 := by simp [h.1]
  cases hv : image scan.position with
  | error e =>
    have hread : ((imageReader image scan.position).exec scan.reader) = (.error e, scan.reader ++ [scan.position]) := by
      rw [imageReader, exec_bind_ok (exec_modify _ _), hv]
      rfl
    rw [exec_bind_error (by rw [exec_part, hread])]
    exact hcount.trans_le hlt
  | ok v =>
  have hread : ((imageReader image scan.position).exec scan.reader) = (.ok v.toList, scan.reader ++ [scan.position]) := by
    rw [imageReader, exec_bind_ok (exec_modify _ _), hv]
    rfl
  rw [exec_bind_ok (by rw [exec_part, hread]), exec_bind_ok (exec_modify _ _)]
  exact ⟨⟨v, hv, rfl⟩, rfl, hcount, hlt⟩

structure Visited (c : Codec) (image : Image c.superblock.blockSize) (base : Scan (List ℕ)) (position order : ℕ)
    (tags : List Tag) (scan : Scan (List ℕ)) : Prop where
  counted : Counted c scan
  place : scan.position = c.superblock.skip (tags.length + 1) position
  actions : scan.actions = base.actions ++ (Entry.descriptor position tags).actions c.superblock order
  same : scan = { base with reader := scan.reader, position := scan.position, scanned := scan.scanned, actions := scan.actions }
  more : base.scanned ≤ scan.scanned
  payloads : ∀ k tag, tags[k]? = some tag → ∃ payload, Holds c image (c.superblock.skip (k + 1) position) payload ∧
    c.payload payload base.sequence tag = .ok ()

lemma visitTag_spec {base : Scan (List ℕ)} {order : ℕ} (hseq : base.sequence = c.superblock.sequence + BitVec.ofNat 32 order)
    (hcom : base.committed = order) (tags : List Tag) (tag : Tag) :
    Triple (Visited c image base position order tags) (visitTag c (imageReader image) domain storage tag)
      (fun _ => Visited c image base position order (tags ++ [tag])) (Bounded c) := by
  unfold visitTag
  by_cases hp : (!domain.permits tag.targetBlock) = true
  · rw [if_pos hp]
    exact .throw fun scan h => h.counted.1.trans_le h.counted.2
  rw [if_neg hp]
  refine .get_bind fun scan => ?_
  by_cases hcap : scan.actions.length = storage.actions
  · rw [if_pos hcap]
    exact .throw fun scan h => h.2.counted.1.trans_le h.2.counted.2
  rw [if_neg hcap]
  intro now hnow
  obtain ⟨rfl, h⟩ := hnow
  have hsame := congrArg Scan.sequence h.same
  have hcommitted := congrArg Scan.committed h.same
  refine Triple.bind (P := (· = now)) (readNext_spec now h.counted) (fun payload => ?_) now rfl
  refine .bind (Q := fun _ scan => Holds c image now.position payload ∧ scan = now.read c ∧ Counted c scan ∧
    c.payload payload now.sequence tag = .ok ()) (.liftExcept (fun _ hok scan hs => ⟨hs.1, hs.2.1, hs.2.2, hok⟩)
      fun scan hs => hs.2.2.1.trans_le hs.2.2.2) fun _ => ?_
  refine .modify fun scan hs => ?_
  obtain ⟨hholds, rfl, hcount, hpay⟩ := hs
  refine ⟨hcount, ?_, ?_, ?_, h.more.trans (Nat.le_succ _), ?_⟩
  · rw [length_append, length_singleton, Superblock.skip_succ, ← h.place]
    rfl
  · rw [actions_snoc, ← append_assoc, ← h.actions, ← h.place, ← hseq]
    simp only [Scan.read, hsame, hcommitted, hcom]
  · rw [h.same]
    rfl
  intro k found hk
  rcases Nat.lt_or_ge k tags.length with hlt | hge
  · rw [getElem?_append_left hlt] at hk
    exact h.payloads k found hk
  rw [getElem?_append_right hge] at hk
  obtain ⟨hk0, rfl⟩ : k - tags.length = 0 ∧ found = tag := by
    cases hd : k - tags.length with
    | zero =>
      rw [hd] at hk
      exact ⟨rfl, (Option.some.inj hk).symm⟩
    | succ n => simp [hd] at hk
  obtain rfl : k = tags.length := by omega
  exact ⟨payload, h.place ▸ hholds, by rw [← hsame]; exact hpay⟩

structure Progress (c : Codec) (image : Image c.superblock.blockSize) (transactions : List (List Entry)) (tail : List Entry)
    (scan : Scan (List ℕ)) : Prop where
  counted : Counted c scan
  log : ∃ middle, Transactions c image c.superblock.sequence c.superblock.startBlock transactions middle ∧
    Entries c image scan.sequence middle tail scan.position
  sequence : scan.sequence = c.superblock.sequence + BitVec.ofNat 32 transactions.length
  committed : scan.committed = transactions.length
  fewer : scan.committed ≤ scan.scanned
  actions : scan.actions = loggedActions c.superblock transactions ++
    tail.flatMap (Entry.actions c.superblock transactions.length)
  revocations : scan.revocations = loggedRevocations transactions ++ tail.flatMap (Entry.revocations transactions.length)
  committedActions : scan.committedActions = (loggedActions c.superblock transactions).length
  committedRevokes : scan.committedRevokes = (loggedRevocations transactions).length
  pending : scan.pending = !tail.isEmpty

lemma each_spec {α : Type} {P : Scan (List ℕ) → Prop} {Q : List α → Scan (List ℕ) → Prop} {r : Result (List α)}
    {visitor : α → Eff Status (Scan (List ℕ)) PUnit} (hb : ∀ scan, P scan → Bounded c scan)
    (hok : ∀ l, r = .ok l → Triple P (forM l visitor) (fun _ => Q l) (Bounded c)) :
    Triple P (Codec.each r visitor) (fun _ scan => ∃ l, r = .ok l ∧ Q l scan) (Bounded c) := by
  cases r with
  | error e => exact .throw hb
  | ok l => exact (hok l rfl).weaken (fun _ h => h) fun _ _ h => ⟨l, rfl, h⟩

variable {now : Scan (List ℕ)} {block : List UInt8} {type : RecordType} {next stop' : ℕ}

lemma staleRecord_spec {type earlier : BitVec 32} (h : Counted c now) :
    Triple (· = now) (staleRecord c block type earlier) (fun _ scan => scan = now ∧
      ((∃ tags, c.descriptorTags block earlier = .ok tags) ∨ (∃ targets, c.revokeTargets block earlier = .ok targets) ∨
        ∃ commit, c.commit block earlier = .ok commit)) (Bounded c) := by
  have hb : ∀ scan, scan = now → Bounded c scan := by
    rintro scan rfl
    exact h.1.trans_le h.2
  unfold staleRecord
  split_ifs
  · rw [c.descriptor_eq]
    refine (each_spec (Q := fun _ scan => scan = now) hb fun l _ => ?_).weaken (fun _ hs => hs) ?_
    · rw [forM_nop]
      exact .pure fun _ hs => hs
    · rintro _ scan ⟨tags, htags, hs⟩
      exact ⟨hs, .inl ⟨tags, htags⟩⟩
  · rw [c.revoke_eq]
    refine (each_spec (Q := fun _ scan => scan = now) hb fun l _ => ?_).weaken (fun _ hs => hs) ?_
    · rw [forM_nop]
      exact .pure fun _ hs => hs
    · rintro _ scan ⟨targets, htargets, hs⟩
      exact ⟨hs, .inr (.inl ⟨targets, htargets⟩)⟩
  refine .bind (Q := fun commit scan => scan = now ∧ c.commit block earlier = .ok commit)
    (.liftExcept (fun _ hok _ hs => ⟨hs, hok⟩) hb) fun commit => ?_
  exact .pure fun _ hs => ⟨hs.1, .inr (.inr ⟨_, hs.2⟩)⟩

lemma visitRevoke_spec (base : Scan (List ℕ)) (hb : Counted c base) (targets : List ℕ) (target : ℕ) :
    Triple (fun scan => scan = { base with revocations := base.revocations ++ targets.map (⟨·, base.committed⟩) })
      (visitRevoke domain storage target)
      (fun _ scan => scan = { base with revocations := base.revocations ++ (targets ++ [target]).map (⟨·, base.committed⟩) })
      (Bounded c) := by
  have hbound := hb.1.trans_le hb.2
  unfold visitRevoke
  split_ifs
  · refine .throw ?_
    rintro scan rfl
    exact hbound
  refine .get_bind fun scan => ?_
  split_ifs
  · refine .throw ?_
    rintro _ ⟨rfl, rfl⟩
    exact hbound
  refine .modify ?_
  rintro now ⟨rfl, rfl⟩
  simp

lemma scanRecord_spec {tail : List Entry} {scan : Scan (List ℕ)} {type : BitVec 32}
    (h : Progress c image transactions tail scan) (hb : Holds c image scan.position block) (hc : Counted c (scan.read c)) :
    Triple (· = scan.read c) (scanRecord c (imageReader image) domain storage block type)
      (fun _ now => ∃ transactions tail, Progress c image transactions tail now) (Bounded c) := by
  obtain ⟨middle, htrans, hent⟩ := h.log
  have hbound : ∀ now, now = scan.read c → Bounded c now := by
    rintro now rfl
    exact hc.1.trans_le hc.2
  refine .get_at ?_
  split_ifs
  · -- a descriptor, with its payloads
    set base : Scan (List ℕ) := { scan.read c with pending := true } with hbase
    have hcount := hc
    refine .bind (Q := fun _ now => now = base) (.modify ?_) fun _ => ?_
    · rintro now rfl
      rfl
    rw [c.descriptor_eq]
    refine (each_spec (Q := fun tags => Visited c image base scan.position transactions.length tags) ?_ fun tags htags => ?_).weaken
      (fun _ hs => hs) ?_
    · rintro now rfl
      exact hcount.1.trans_le hcount.2
    · have hseq : base.sequence = c.superblock.sequence + BitVec.ofNat 32 transactions.length := h.sequence
      have hcom := h.committed
      refine (Triple.forM (Visited c image base scan.position transactions.length) tags
        fun done tag _ _ => visitTag_spec hseq hcom done tag).weaken ?_ fun _ _ hs => hs
      rintro now rfl
      exact ⟨hcount, rfl, by simp [Entry.actions], rfl, le_rfl, by simp⟩
    rintro _ now ⟨tags, htags, hv⟩
    have hrec : RecordAt c image scan.sequence scan.position (.descriptor scan.position tags) now.position := by
      rw [hv.place]
      exact .descriptor hb htags hv.payloads
    refine ⟨transactions, tail ++ [.descriptor scan.position tags], hv.counted, ⟨middle, htrans, ?_⟩, ?_, ?_, ?_, ?_, ?_, ?_, ?_,
      ?_⟩
    · rw [hv.same]
      exact hent.append (.cons hrec .nil)
    · rw [hv.same]
      exact h.sequence
    · rw [hv.same]
      exact h.committed
    · have hcom := congrArg Scan.committed hv.same
      exact (hcom.trans_le (h.fewer.trans (Nat.le_succ _))).trans hv.more
    · rw [hv.actions, hbase, Scan.read, h.actions]
      simp
    · rw [hv.same, hbase, Scan.read, h.revocations]
      simp [Entry.revocations]
    · rw [hv.same]
      exact h.committedActions
    · rw [hv.same]
      exact h.committedRevokes
    · rw [hv.same]
      simp [hbase]
  · -- a revoke record
    set base : Scan (List ℕ) := { scan.read c with pending := true } with hbase
    have hcount := hc
    refine .bind (Q := fun _ now => now = base) (.modify ?_) fun _ => ?_
    · rintro now rfl
      rfl
    rw [c.revoke_eq]
    refine .bind (each_spec (Q := fun targets now => now =
      { base with revocations := base.revocations ++ targets.map (⟨·, base.committed⟩) }) ?_ fun targets _ => ?_)
      fun _ => .modify ?_
    · rintro now rfl
      exact hcount.1.trans_le hcount.2
    · refine (Triple.forM (fun targets now =>
        now = { base with revocations := base.revocations ++ targets.map (⟨·, base.committed⟩) })
        targets fun done target _ _ => visitRevoke_spec base hcount done target).weaken ?_ fun _ _ hs => hs
      rintro now rfl
      simp
    rintro now ⟨targets, htargets, rfl⟩
    have hrec : RecordAt c image scan.sequence scan.position (.revoke targets) (c.superblock.advance scan.position) :=
      .revoke hb htargets
    refine ⟨transactions, tail ++ [.revoke targets], hcount, ⟨middle, htrans, hent.append (.cons hrec .nil)⟩,
      h.sequence, h.committed, h.fewer.trans (Nat.le_succ _), ?_, ?_, h.committedActions, h.committedRevokes, ?_⟩
    · rw [hbase, Scan.read, h.actions]
      simp [Entry.actions]
    · rw [hbase, Scan.read, h.revocations, h.committed]
      simp [Entry.revocations]
    · simp [hbase]
  -- the commit block
  refine .bind (Q := fun commit now => now = scan.read c ∧ c.commit block scan.sequence = .ok commit)
    (.liftExcept (fun _ hok _ hs => ⟨hs, hok⟩) hbound) fun commit => .modify ?_
  rintro now ⟨rfl, hcommit⟩
  have hat : CommitAt c image scan.sequence scan.position := ⟨block, commit, hb, hcommit⟩
  rw [h.sequence] at hent hat
  refine ⟨transactions ++ [tail], [], hc, ⟨_, htrans.snoc hent hat, .nil⟩, ?_, ?_, Nat.succ_le_succ h.fewer, ?_, ?_, ?_, ?_,
    rfl⟩
  · rw [length_append, length_singleton, BitVec.ofNat_add, ← BitVec.add_assoc, ← h.sequence]
    rfl
  · rw [length_append, length_singleton, ← h.committed]
    rfl
  · rw [loggedActions_snoc, ← h.actions]
    simp [Scan.read]
  · rw [loggedRevocations_snoc, ← h.revocations]
    simp [Scan.read]
  · rw [loggedActions_snoc, ← h.actions]
    rfl
  · rw [loggedRevocations_snoc, ← h.revocations]
    rfl

def Finished (c : Codec) (image : Image c.superblock.blockSize) (now : Scan (List ℕ)) : Prop :=
  ∃ transactions tail scan, Progress c image transactions tail scan ∧ EndsAt c image scan.sequence scan.position ∧
    now = scan.read c ∧ Counted c now

lemma scanLog_spec (records : ℕ) : Triple (fun scan => ∃ transactions tail, Progress c image transactions tail scan)
      (scanLog c (imageReader image) domain storage records) (fun _ => Finished c image) (Bounded c) := by
  induction records with
  | zero =>
    refine .throw ?_
    rintro scan ⟨transactions, tail, h⟩
    exact h.counted.1.trans_le h.counted.2
  | succ records ih =>
  rintro scan ⟨transactions, tail, h⟩
  refine Triple.bind (readNext_spec scan h.counted) (fun block => ?_) scan rfl
  intro now hnow
  obtain ⟨hb, rfl, hc⟩ := hnow
  refine Triple.get_at (a := scan.read c) ?_ _ rfl
  have hbound : ∀ now, now = scan.read c → Bounded c now := by
    rintro now rfl
    exact hc.1.trans_le hc.2
  dsimp only
  split_ifs with h1 h2 h3 h4 h5
  · refine .pure ?_
    rintro now rfl
    exact ⟨transactions, tail, scan, h, ⟨block, hb, .inl h1⟩, rfl, hc⟩
  iterate 3 exact .throw hbound
  · refine (staleRecord_spec hc).weaken (fun _ hs => hs) ?_
    rintro _ now ⟨rfl, hrec⟩
    exact ⟨transactions, tail, scan, h, ⟨block, hb, .inr ⟨_, h4, not_le.mp h5, hrec⟩⟩, rfl, hc⟩
  · exact .bind (scanRecord_spec h hb hc) fun _ => ih

section

variable {ρ : Type} (read : ℕ → Eff Status ρ (List UInt8))

def AtLeast (c : Codec) (k : ℕ) (scan : Scan ρ) : Prop := k ≤ scan.scanned ∧ scan.scanned ≤ c.superblock.logBlocks

lemma readNext_grows (k : ℕ) : Triple (AtLeast c k) (readNext c read) (fun _ => AtLeast c (k + 1)) (fun _ => True) := by
  intro scan h
  unfold readNext
  rw [exec_bind_ok (exec_get _)]
  by_cases hfull : scan.scanned = c.superblock.logBlocks
  · rw [if_pos hfull]
    trivial
  rw [if_neg hfull, exec_bind, exec_part]
  rcases (read scan.position).exec scan.reader with ⟨r | block, reader⟩
  · trivial
  · exact ⟨Nat.succ_le_succ h.1, Nat.lt_of_le_of_ne h.2 hfull⟩

structure Carried (c : Codec) (I E : Scan ρ → Prop) : Prop where
  next : Eff.Triple I (readNext c read) (fun _ => I) E
  stop : ∀ scan, I scan → E scan
  same : ∀ scan scan' : Scan ρ, scan'.reader = scan.reader → scan'.scanned = scan.scanned → I scan → I scan'

variable {read} {I E : Scan ρ → Prop} (h : Carried read c I E)

include h

lemma Carried.visitTag (tag : Tag) : Triple I (visitTag c read domain storage tag) (fun _ => I) E := by
  unfold Jbd2.visitTag
  split_ifs
  · exact .throw h.stop
  refine .get_bind fun scan => ?_
  split_ifs
  · exact .throw fun _ hs => h.stop _ hs.2
  refine .bind (h.next.weaken (fun _ hs => hs.2) fun _ _ hs => hs) fun _ => ?_
  exact .bind (.liftExcept (fun _ _ _ hs => hs) h.stop) fun _ => .modify fun now hs => h.same now _ rfl rfl hs

lemma Carried.visitRevoke (target : ℕ) : Triple I (visitRevoke domain storage target) (fun _ => I) E := by
  unfold Jbd2.visitRevoke
  split_ifs
  · exact .throw h.stop
  refine .get_bind fun scan => ?_
  split_ifs
  · exact .throw fun _ hs => h.stop _ hs.2
  · exact .modify fun now hs => h.same now _ rfl rfl hs.2

lemma Carried.each {α : Type} (r : Result (List α)) (visitor : α → Eff Status (Scan ρ) PUnit)
    (hv : ∀ a, Triple I (visitor a) (fun _ => I) E) : Triple I (Codec.each r visitor) (fun _ => I) E := by
  cases r with
  | error e => exact .throw h.stop
  | ok l => exact .forM (fun _ => I) l fun _ a _ _ => hv a

variable (domain storage) in
lemma Carried.scanRecord (block : List UInt8) (type : BitVec 32) :
    Triple I (scanRecord c read domain storage block type) (fun _ => I) E := by
  refine .get_bind fun scan => ?_
  split_ifs
  · refine .bind (.modify (Q := fun _ => I) fun now hs => h.same now _ rfl rfl hs.2) fun _ => ?_
    rw [c.descriptor_eq]
    exact h.each _ _ h.visitTag
  · refine .bind (.modify (Q := fun _ => I) fun now hs => h.same now _ rfl rfl hs.2) fun _ => ?_
    rw [c.revoke_eq]
    exact .bind (h.each _ _ h.visitRevoke) fun _ => .modify fun now hs => h.same now _ rfl rfl hs
  · refine .bind (.liftExcept (Q := fun _ => I) (fun _ _ _ hs => hs.2) fun _ hs => h.stop _ hs.2) fun _ => ?_
    exact .modify fun now hs => h.same now _ rfl rfl hs

omit h

variable (read)

lemma AtLeast.carried (k : ℕ) : Carried read c (AtLeast c k) fun _ => True where
  next := (readNext_grows read k).weaken (fun _ h => h) fun _ _ h => ⟨(Nat.le_succ k).trans h.1, h.2⟩
  stop _ _ := trivial
  same _ _ _ hs h := by
    unfold AtLeast
    rwa [hs]

lemma scanLog_ends (records : ℕ) (scan : Scan ρ) (h : scan.scanned ≤ c.superblock.logBlocks)
    (hr : c.superblock.logBlocks < scan.scanned + records) :
    (scanLog c read domain storage (records + 1)).exec scan = (scanLog c read domain storage records).exec scan := by
  induction records generalizing scan with
  | zero => omega
  | succ records ih =>
  have hgrow := readNext_grows (c := c) read scan.scanned scan ⟨le_rfl, h⟩
  rw [scanLog, scanLog, exec_bind, exec_bind]
  rcases hn : (readNext c read).exec scan with ⟨r | block, now⟩
  · rfl
  rw [hn] at hgrow
  dsimp only at hgrow ⊢
  rw [exec_bind_ok (exec_get _), exec_bind_ok (exec_get _)]
  split_ifs
  iterate 5 rfl
  have hkeep := (AtLeast.carried read (scan.scanned + 1)).scanRecord domain storage block (be32 block 4) now hgrow
  rw [exec_bind, exec_bind]
  rcases hs : (scanRecord c read domain storage block (be32 block 4)).exec now with ⟨r | r, later⟩
  · rfl
  rw [hs] at hkeep
  exact ih later hkeep.2 (by have := hkeep.1; omega)

end

def Heads (block : List UInt8) (type : RecordType) (sequence : BitVec 32) : Prop :=
  be32 block 0 = magic ∧ be32 block 4 = type.code ∧ be32 block 8 = sequence

lemma Codec.record_heads {checksum : ℕ}
    (h : c.record block type sequence checksum = .ok ()) : Heads block type sequence := by
  unfold Codec.record at h
  split_ifs at h with h1 h2 h3
  simp only [not_or, not_not] at h2
  exact h2

lemma Codec.descriptorTags_heads {tags : List Tag} (h : c.descriptorTags block sequence = .ok tags) :
    Heads block .descriptor sequence := by
  cases hrec : c.record block .descriptor sequence (c.superblock.blockSize - 4) with
  | ok => exact c.record_heads hrec
  | error e =>
    rw [descriptorTags, visited, descriptor, hrec] at h
    cases h

lemma Codec.revokeTargets_heads {targets : List ℕ} (h : c.revokeTargets block sequence = .ok targets) :
    Heads block .revoke sequence := by
  cases hrec : c.record block .revoke sequence (c.superblock.blockSize - 4) with
  | ok => exact c.record_heads hrec
  | error e =>
    rw [revokeTargets, visited, revoke, hrec] at h
    split_ifs at h <;> cases h

lemma Codec.commit_heads {commit : Commit} (h : c.commit block sequence = .ok commit) : Heads block .commit sequence := by
  cases hrec : c.record block .commit sequence 16 with
  | ok => exact c.record_heads hrec
  | error e =>
    rw [Codec.commit, hrec] at h
    cases h

lemma Heads.unique {type' : RecordType} {sequence' : BitVec 32} (h : Heads block type sequence)
    (h' : Heads block type' sequence') : type = type' ∧ sequence = sequence' := by
  refine ⟨?_, h.2.2.symm.trans h'.2.2⟩
  have hcode := h.2.1.symm.trans h'.2.1
  cases type <;> cases type' <;> first | rfl | (exact absurd hcode (by decide))

lemma be32_of_allZero (h : allZero block = true) (offset : ℕ) : be32 block offset = 0 := by
  have hbyte (k : ℕ) : byte block k = 0 := by
    simp only [allZero, all_eq_true, beq_iff_eq] at h
    rw [byte, getD_eq_getElem?_getD]
    cases hk : block[k]? with
    | none => rfl
    | some b => exact h b (mem_of_getElem? hk)
  simp only [be32, hbyte]
  rfl

lemma Holds.unique {block' : List UInt8} (h : Holds c image position block) (h' : Holds c image position block') :
    block = block' := by
  obtain ⟨v, hv, rfl⟩ := h
  obtain ⟨v', hv', rfl⟩ := h'
  rw [hv] at hv'
  cases hv'
  rfl

def StopsAt (c : Codec) (image : Image c.superblock.blockSize) (sequence : BitVec 32) (position : ℕ) : Prop :=
  CommitAt c image sequence position ∨ EndsAt c image sequence position

lemma EndsAt.not_heads (h : EndsAt c image sequence position)
    (hb : Holds c image position block) : ¬ Heads block type sequence := by
  intro hh
  obtain ⟨block', hb', hzero | ⟨earlier, hne, -, hrec⟩⟩ := h
  · obtain rfl := hb.unique hb'
    exact absurd (hh.1.symm.trans (be32_of_allZero hzero 0)) (by decide)
  obtain rfl := hb.unique hb'
  refine hne ?_
  rcases hrec with ⟨_, ht⟩ | ⟨_, ht⟩ | ⟨_, ht⟩
  · exact ((c.descriptorTags_heads ht).unique hh).2
  · exact ((c.revokeTargets_heads ht).unique hh).2
  · exact ((c.commit_heads ht).unique hh).2

lemma RecordAt.not_stops {entry : Entry} (h : RecordAt c image sequence position entry next) :
    ¬ StopsAt c image sequence position := by
  have hheads : ∃ block type, type ≠ RecordType.commit ∧ Holds c image position block ∧ Heads block type sequence := by
    cases h with
    | descriptor hb ht => exact ⟨_, .descriptor, by decide, hb, c.descriptorTags_heads ht⟩
    | revoke hb ht => exact ⟨_, .revoke, by decide, hb, c.revokeTargets_heads ht⟩
  obtain ⟨block, type, htype, hb, hh⟩ := hheads
  rintro (⟨block', commit, hb', hc⟩ | hend)
  · obtain rfl := hb.unique hb'
    exact htype (hh.unique (c.commit_heads hc)).1
  · exact hend.not_heads hb hh

lemma RecordAt.unique {entry entry' : Entry} {next' : ℕ} (h : RecordAt c image sequence position entry next)
    (h' : RecordAt c image sequence position entry' next') : entry = entry' ∧ next = next' := by
  cases h with
  | descriptor hb ht =>
    cases h' with
    | descriptor hb' ht' =>
      obtain rfl := hb.unique hb'
      rw [ht] at ht'
      cases ht'
      exact ⟨rfl, rfl⟩
    | revoke hb' ht' =>
      obtain rfl := hb.unique hb'
      exact absurd ((c.descriptorTags_heads ht).unique (c.revokeTargets_heads ht')).1 (by decide)
  | revoke hb ht =>
  cases h' with
  | descriptor hb' ht' =>
    obtain rfl := hb.unique hb'
    exact absurd ((c.descriptorTags_heads ht').unique (c.revokeTargets_heads ht)).1 (by decide)
  | revoke hb' ht' =>
  obtain rfl := hb.unique hb'
  rw [ht] at ht'
  cases ht'
  exact ⟨rfl, rfl⟩

lemma Entries.unique {entries' : List Entry} (h : Entries c image sequence position entries stop)
    (hs : StopsAt c image sequence stop) (h' : Entries c image sequence position entries' stop')
    (hs' : StopsAt c image sequence stop') : entries = entries' ∧ stop = stop' := by
  induction h generalizing entries' with
  | nil =>
    cases h' with
    | nil => exact ⟨rfl, rfl⟩
    | cons hr => exact absurd hs hr.not_stops
  | cons hr _ ih =>
  cases h' with
  | nil => exact absurd hs' hr.not_stops
  | cons hr' ht' =>
  obtain ⟨rfl, rfl⟩ := hr.unique hr'
  obtain ⟨rfl, rfl⟩ := ih hs ht'
  exact ⟨rfl, rfl⟩

lemma EndsAt.not_commit (h : EndsAt c image sequence position) : ¬ CommitAt c image sequence position := by
  rintro ⟨block, commit, hb, hc⟩
  exact h.not_heads hb (c.commit_heads hc)

lemma Transactions.unique {transactions' : List (List Entry)} {tail tail' : List Entry} {middle' : ℕ}
    (h : Transactions c image sequence position transactions middle)
    (he : Entries c image (sequence + BitVec.ofNat 32 transactions.length) middle tail stop)
    (hs : EndsAt c image (sequence + BitVec.ofNat 32 transactions.length) stop)
    (h' : Transactions c image sequence position transactions' middle')
    (he' : Entries c image (sequence + BitVec.ofNat 32 transactions'.length) middle' tail' stop')
    (hs' : EndsAt c image (sequence + BitVec.ofNat 32 transactions'.length) stop') :
    transactions = transactions' ∧ tail = tail' := by
  induction h generalizing transactions' with
  | nil =>
    rw [length_nil, sequence_zero] at he hs
    cases h' with
    | nil =>
      rw [length_nil, sequence_zero] at he' hs'
      exact ⟨rfl, (he.unique (.inr hs) he' (.inr hs')).1⟩
    | cons hx hc =>
      obtain ⟨-, rfl⟩ := he.unique (.inr hs) hx (.inl hc)
      exact absurd hc hs.not_commit
  | cons hx hc _ ih =>
  rw [length_cons, sequence_succ] at he hs
  cases h' with
  | nil =>
    rw [length_nil, sequence_zero] at he' hs'
    obtain ⟨-, rfl⟩ := he'.unique (.inr hs') hx (.inl hc)
    exact absurd hc hs'.not_commit
  | cons hx' hc' ht' =>
  rw [length_cons, sequence_succ] at he' hs'
  obtain ⟨rfl, rfl⟩ := hx.unique (.inl hc) hx' (.inl hc')
  obtain ⟨rfl, rfl⟩ := ih he hs ht' he' hs'
  exact ⟨rfl, rfl⟩

lemma Codec.open_bounds {bytes : List UInt8} {available : ℕ} {uuid : Vector UInt8 16} {policy : DescriptorUuidPolicy}
    (h : Codec.open bytes available uuid policy = .ok c) : Codec.logBounds c.superblock available = true := by
  unfold Codec.open at h
  dsimp only at h
  split_ifs at h with h1 h2 h3 h4 h5 h6 h7 h8 h9
  cases h
  simpa using h7

instance (transactions : List (List Entry)) (action : ReplayAction) : Decidable (Revoked transactions action) :=
  decidable_of_iff _ (suppressed_iff transactions action)

structure Exact (c : Codec) (image : Image c.superblock.blockSize) (plan : ReplayPlan) (transactions : List (List Entry))
    (tail : List Entry) : Prop where
  log : Log c image transactions tail
  only : ∀ transactions' tail', Log c image transactions' tail' → transactions' = transactions ∧ tail' = tail
  actions : plan.actions = (loggedActions c.superblock transactions).filter fun action => ¬ Revoked transactions action
  committed : plan.committedTransactions = transactions.length
  fewer : plan.committedTransactions ≤ plan.scannedBlocks
  next : plan.nextSequence = c.superblock.sequence + BitVec.ofNat 32 plan.committedTransactions
  incomplete : plan.incompleteTail = !tail.isEmpty

lemma Finished.exact (h : Finished c image now) : ∃ transactions tail, Exact c image now.plan transactions tail := by
  obtain ⟨transactions, tail, scan, hp, hend, rfl, hc⟩ := h
  obtain ⟨middle, htrans, hent⟩ := hp.log
  rw [hp.sequence] at hent hend
  refine ⟨transactions, tail, ⟨middle, _, htrans, hent, hend⟩, ?_, ?_, hp.committed, hp.fewer.trans (Nat.le_succ _), ?_, hp.pending⟩
  · rintro transactions' tail' ⟨middle', stop', ht', he', hs'⟩
    exact ht'.unique he' hs' htrans hent hend
  · have hkept := compact_spec ((scan.read c).revocations.take (scan.read c).committedRevokes) (scan.read c).actions
      (scan.read c).committedActions 0 0 0 (scan.read c).actions le_rfl ?_ rfl (by simp) rfl
    · have htake : scan.actions.take scan.committedActions = loggedActions c.superblock transactions := by
        rw [hp.actions, hp.committedActions, take_left]
      have hrev : scan.revocations.take scan.committedRevokes = loggedRevocations transactions := by
        rw [hp.revocations, hp.committedRevokes, take_left]
      simp only [Scan.plan, Scan.read, Nat.zero_add, htake, hrev] at hkept ⊢
      rw [hkept]
      congr 1
      funext action
      by_cases hr : Revoked transactions action
      · simp [hr, (suppressed_iff transactions action).mpr hr]
      · simp [hr, mt (suppressed_iff transactions action).mp hr]
    · simp only [Scan.read, Nat.zero_add, hp.actions, hp.committedActions, length_append]
      exact Nat.le_add_right _ _
  · simp only [Scan.plan, Scan.read, hp.committed, hp.sequence]

/-- Replay planning: on every journal the scan ends and reads no block twice over; and a plan has exactly the
actions of the transactions that a valid commit block closes, without those that are revoked. -/
theorem replay_plan_exact {bytes : List UInt8} {available : ℕ} {uuid : Vector UInt8 16} {policy : DescriptorUuidPolicy}
    (hopen : Codec.open bytes available uuid policy = .ok c) (image : Image c.superblock.blockSize) (domain : TargetDomain)
    (storage : PlanStorage) :
    let run := (buildReplayPlan c (imageReader image) domain storage).exec []
    run.2.length ≤ c.superblock.maxBlocks - c.superblock.firstBlock ∧
    c.superblock.maxBlocks - c.superblock.firstBlock < 2 ^ 31 ∧
    (∀ more, (scanLog c (imageReader image) domain storage (c.superblock.logBlocks + 1 + more)).exec (c.superblock.start []) =
      (scanLog c (imageReader image) domain storage (c.superblock.logBlocks + 1)).exec (c.superblock.start [])) ∧
    ∀ plan, run.1 = .ok plan → plan.scannedBlocks = run.2.length ∧
      if c.superblock.startBlock = 0 then plan = { nextSequence := c.superblock.sequence, emptyLog := true }
      else ∃ transactions tail, Exact c image plan transactions tail := by
  intro run
  have hbounds := Codec.open_bounds hopen
  simp only [Codec.logBounds, Bool.and_eq_true, decide_eq_true_eq] at hbounds
  have htriple : Triple (fun scan => ∃ transactions tail, Progress c image transactions tail scan)
      (scanLog c (imageReader image) domain storage (c.superblock.logBlocks + 1)) (fun _ => Finished c image) (Bounded c) :=
    scanLog_spec _
  have hspec := htriple (c.superblock.start [])
    ⟨[], [], ⟨rfl, Nat.zero_le _⟩, ⟨_, .nil, .nil⟩, (sequence_zero _).symm, rfl, le_rfl, rfl, rfl, rfl, rfl, rfl⟩
  have hrun : run.2.length ≤ c.superblock.logBlocks ∧ ∀ plan, run.1 = .ok plan → plan.scannedBlocks = run.2.length ∧
      if c.superblock.startBlock = 0 then plan = { nextSequence := c.superblock.sequence, emptyLog := true }
      else ∃ transactions tail, Exact c image plan transactions tail := by
    by_cases h1 : !domain.valid ∨ storage.recordBlock < c.superblock.blockSize ∨ storage.payloadBlock < c.superblock.blockSize
    · have he : run = (.error (.invalidArgument "JBD2 plan domain or scratch"), []) := by
        simp only [run, buildReplayPlan, if_pos h1, exec_throw]
      rw [he]
      exact ⟨Nat.zero_le _, by rintro plan ⟨⟩⟩
    by_cases h2 : c.superblock.startBlock = 0
    · have he : run = (.ok { nextSequence := c.superblock.sequence, emptyLog := true }, []) := by
        simp only [run, buildReplayPlan, if_neg h1, if_pos h2, exec_pure]
      rw [he]
      refine ⟨Nat.zero_le _, ?_⟩
      rintro plan ⟨⟩
      exact ⟨rfl, by rw [if_pos h2]⟩
    have he : run = Scan.outcome ((scanLog c (imageReader image) domain storage (c.superblock.logBlocks + 1)).exec
        (c.superblock.start [])) := by
      simp only [run, buildReplayPlan, if_neg h1, if_neg h2]
      rfl
    rw [he]
    rcases hscan : (scanLog c (imageReader image) domain storage (c.superblock.logBlocks + 1)).exec (c.superblock.start []) with
      ⟨status | _, now⟩
    · rw [hscan] at hspec
      exact ⟨hspec, by rintro plan ⟨⟩⟩
    rw [hscan] at hspec
    have hcount : Counted c now := by
      obtain ⟨_, _, _, _, _, _, hc⟩ := hspec
      exact hc
    refine ⟨hcount.1.trans_le hcount.2, ?_⟩
    rintro plan ⟨⟩
    refine ⟨hcount.1.symm, ?_⟩
    rw [if_neg h2]
    exact Finished.exact hspec
  refine ⟨hrun.1, hbounds.1.2, fun more => ?_, hrun.2⟩
  induction more with
  | zero => rfl
  | succ more ih =>
    rw [← ih, ← Nat.add_assoc]
    exact scanLog_ends _ _ _ (Nat.zero_le _) (by omega)

def sparse (fields : List (ℕ × List UInt8)) : List UInt8 :=
  fields.foldl (fun block field => block.take field.1 ++ field.2 ++ block.drop (field.1 + field.2.length)) (List.replicate 1024 0)

def diarySuperblock : List UInt8 :=
  sparse [(0, [192, 59, 57, 152]), (4, [0, 0, 0, 4]), (12, [0, 0, 4, 0]), (16, [0, 0, 4, 0]), (20, [0, 0, 0, 1]),
    (24, [0, 0, 0, 7]), (28, [0, 0, 0, 1]), (40, [0, 0, 0, 17]), (64, [0, 0, 0, 1]), (80, [4]), (252, [165, 102, 75, 54])]

def diaryCodec : Codec where
  superblock := {
    blockSize := 1024, maxBlocks := 1024, firstBlock := 1, sequence := 7, startBlock := 1, features := 17
    uuid := List.replicate 16 0 }
  seed := 0xbd8f6515
  tagPolicy := .journalSuperblock

def diaryRecord (type sequence : UInt8) (fields : List (ℕ × List UInt8)) : List UInt8 :=
  sparse ((0, [192, 59, 57, 152, 0, 0, 0, type, 0, 0, 0, sequence]) :: fields)

/-- Two transactions, of which the second revokes a block of the first, and one without a commit block. -/
def diaryBlock : ℕ → List UInt8
  | 1 => diaryRecord 1 7 [(15, [5]), (24, [52, 34, 72, 254]), (47, [6]), (51, [10]), (56, [51, 157, 248, 231]),
      (1020, [11, 13, 14, 16])]
  | 2 => sparse [(0, [1])]
  | 3 => sparse [(0, [2])]
  | 4 => diaryRecord 2 7 [(16, [49, 203, 145, 179])]
  | 5 => diaryRecord 5 8 [(15, [20]), (19, [6]), (1020, [212, 144, 74, 0])]
  | 6 => diaryRecord 1 8 [(15, [7]), (19, [8]), (24, [3, 5, 227, 17]), (1020, [57, 129, 230, 207])]
  | 7 => sparse [(0, [3])]
  | 8 => diaryRecord 2 8 [(16, [254, 216, 159, 234])]
  | 9 => diaryRecord 1 9 [(15, [4]), (19, [8]), (24, [41, 73, 114, 37]), (1020, [84, 35, 81, 213])]
  | 10 => sparse [(0, [4])]
  | _ => sparse []

def diaryImage : Image diaryCodec.superblock.blockSize := fun position =>
  if h : (diaryBlock position).toArray.size = 1024 then .ok ⟨(diaryBlock position).toArray, h⟩
  else .error (.ioError "no such block")

def diaryPlan : ReplayPlan where
  actions := [⟨5, 2, 7, 0, 874662142, false⟩, ⟨7, 7, 8, 1, 50717457, false⟩]
  committedTransactions := 2
  nextSequence := 9
  scannedBlocks := 11
  revokedActions := 1
  incompleteTail := true
  revokeRecords := 1

theorem replay_plan_exact_diary :
    Codec.open diarySuperblock 1024 (Vector.replicate 16 0) .journalSuperblock = .ok diaryCodec ∧
    ∃ transactions tail, Exact diaryCodec diaryImage diaryPlan transactions tail := by
  have hopen : Codec.open diarySuperblock 1024 (Vector.replicate 16 0) .journalSuperblock = .ok diaryCodec := by decide +kernel
  refine ⟨hopen, ?_⟩
  obtain ⟨-, -, -, hplan⟩ := replay_plan_exact hopen diaryImage ⟨64, [⟨4, 8⟩]⟩ ⟨1024, 1024, 8, 8⟩
  exact (hplan diaryPlan (by decide +kernel)).2

end ObfuscationKernel.Fs.Jbd2
