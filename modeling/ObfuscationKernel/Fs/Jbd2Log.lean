import ObfuscationKernel.Fs.Jbd2Plan

/-! What a journal holds: its committed transactions, the tail after them, and the actions that they ask for. -/

namespace ObfuscationKernel.Fs.Jbd2

open ObfuscationKernel.Core Library
open List hiding Vector

def visited {α : Type} (x : (α → Eff Status (List α) PUnit) → Eff Status (List α) PUnit) : Result (List α) :=
  match (x fun a => modify (· ++ [a])).exec [] with
  | (.ok _, l) => .ok l
  | (.error e, _) => .error e

namespace Codec

variable (c : Codec) (block : List UInt8) (sequence : BitVec 32)

def descriptorTags : Result (List Tag) := visited (c.descriptor block sequence)

def revokeTargets : Result (List ℕ) := visited (c.revoke block sequence)

def each {α s : Type} (r : Result (List α)) (visitor : α → Eff Status s PUnit) : Eff Status s PUnit :=
  match r with
  | .ok l => forM l visitor
  | .error e => throw e

lemma visited_each {α : Type} (r : Result (List α)) : visited (each r) = r := by
  cases r with
  | error e => rfl
  | ok l => simp [visited, each, Eff.exec_forM_collect]

lemma tagsFrom_each (fuel offset : ℕ) (hasUuid : Bool) : ∃ (l : List Tag) (last : Result PUnit),
    ∀ (s : Type) (visitor : Tag → Eff Status s PUnit), c.tagsFrom block visitor fuel offset hasUuid =
      (do forM l visitor; liftExcept last) := by
  induction fuel generalizing offset hasUuid with
  | zero => exact ⟨[], .error _, fun s visitor => rfl⟩
  | succ fuel ih =>
  have hthrow (e : Status) (h : ∀ (s : Type) (visitor : Tag → Eff Status s PUnit),
      c.tagsFrom block visitor (fuel + 1) offset hasUuid = throw e) : ∃ (l : List Tag) (last : Result PUnit),
        ∀ (s : Type) (visitor : Tag → Eff Status s PUnit), c.tagsFrom block visitor (fuel + 1) offset hasUuid =
          (do forM l visitor; liftExcept last) := ⟨[], .error e, fun s visitor => h s visitor⟩
  have haccept (tag : Tag) (stop : Prop) [Decidable stop] (offset' : ℕ) (hasUuid' : Bool)
      (h : ∀ (s : Type) (visitor : Tag → Eff Status s PUnit), c.tagsFrom block visitor (fuel + 1) offset hasUuid =
        (do visitor tag; if stop then pure ⟨⟩ else c.tagsFrom block visitor fuel offset' hasUuid')) :
      ∃ (l : List Tag) (last : Result PUnit), ∀ (s : Type) (visitor : Tag → Eff Status s PUnit),
        c.tagsFrom block visitor (fuel + 1) offset hasUuid = (do forM l visitor; liftExcept last) := by
    by_cases hs : stop
    · refine ⟨[tag], .ok ⟨⟩, fun s visitor => ?_⟩
      rw [h]
      simp only [hs, if_true, forM_cons, forM_nil, Eff.liftExcept_ok, bind_assoc, pure_bind]
    obtain ⟨l, last, hl⟩ := ih offset' hasUuid'
    refine ⟨tag :: l, last, fun s visitor => ?_⟩
    rw [h, forM_cons, bind_assoc]
    simp only [hs, if_false, hl]
  by_cases h1 : ¬ (offset ≤ block.length - 4 ∧ 16 ≤ block.length - 4 - offset)
  · exact hthrow _ fun s visitor => by rw [tagsFrom, if_pos h1]
  by_cases h2 : be32 block (offset + 4) &&& ~~~(flagEscape ||| flagSameUuid ||| flagLastTag) ≠ 0
  · exact hthrow _ fun s visitor => by rw [tagsFrom, if_neg h1, if_pos h2]
  by_cases h3 : c.superblock.features &&& feature64bit = 0 ∧ be32 block (offset + 8) ≠ 0
  · exact hthrow _ fun s visitor => by rw [tagsFrom, if_neg h1, if_neg h2, if_pos h3]
  by_cases h4 : be32 block (offset + 4) &&& flagSameUuid = 0
  · by_cases h5 : block.length - 4 - (offset + 16) < 16
    · exact hthrow _ fun s visitor => by rw [tagsFrom, if_neg h1, if_neg h2, if_neg h3, if_pos h4, if_pos h5]
    by_cases h6 : (block.drop (offset + 16)).take 16 ≠ c.tagUuid
    · exact hthrow _ fun s visitor => by rw [tagsFrom, if_neg h1, if_neg h2, if_neg h3, if_pos h4, if_neg h5, if_pos h6]
    · exact haccept _ _ _ _ fun s visitor => by
        rw [tagsFrom, if_neg h1, if_neg h2, if_neg h3, if_pos h4, if_neg h5, if_neg h6]
  by_cases h5 : (!hasUuid) = true
  · exact hthrow _ fun s visitor => by rw [tagsFrom, if_neg h1, if_neg h2, if_neg h3, if_neg h4, if_pos h5]
  · exact haccept _ _ _ _ fun s visitor => by
      rw [tagsFrom, if_neg h1, if_neg h2, if_neg h3, if_neg h4, if_neg h5]

lemma descriptor_eq {s : Type} (visitor : Tag → Eff Status s PUnit) :
    c.descriptor block sequence visitor = each (c.descriptorTags block sequence) visitor := by
  have heach : ∃ r : Result (List Tag), ∀ (s : Type) (visitor : Tag → Eff Status s PUnit),
      c.descriptor block sequence visitor = each r visitor := by
    obtain ⟨l, last, hl⟩ := c.tagsFrom_each block block.length 12 false
    cases hrec : c.record block .descriptor sequence (c.superblock.blockSize - 4) with
    | error e => exact ⟨.error e, fun s visitor => by rw [descriptor, hrec]; rfl⟩
    | ok =>
    have hignore (s : Type) : c.tags block (fun _ => pure ⟨⟩ : Tag → Eff Status s PUnit) = liftExcept last := by
      rw [tags, hl, Eff.forM_nop, pure_bind]
    cases last with
    | error e => exact ⟨.error e, fun s visitor => by rw [descriptor, hrec, hignore]; rfl⟩
    | ok =>
    refine ⟨.ok l, fun s visitor => ?_⟩
    rw [descriptor, hrec, hignore, tags, hl]
    simp only [Eff.liftExcept_ok, pure_bind, each]
    exact bind_pure _
  obtain ⟨r, hr⟩ := heach
  have htags : c.descriptorTags block sequence = r := by
    rw [descriptorTags, ← visited_each r]
    congr 1
    funext visitor
    exact hr _ visitor
  rw [hr, htags]

lemma revoke_eq {s : Type} (visitor : ℕ → Eff Status s PUnit) :
    c.revoke block sequence visitor = each (c.revokeTargets block sequence) visitor := by
  have heach : ∃ r : Result (List ℕ), ∀ (s : Type) (visitor : ℕ → Eff Status s PUnit),
      c.revoke block sequence visitor = each r visitor := by
    by_cases h1 : c.superblock.features &&& featureRevoke = 0
    · exact ⟨.error _, fun s visitor => by rw [revoke, if_pos h1]; rfl⟩
    cases hrec : c.record block .revoke sequence (c.superblock.blockSize - 4) with
    | error e => exact ⟨.error e, fun s visitor => by rw [revoke, if_neg h1, hrec]; rfl⟩
    | ok =>
    by_cases h2 : (be32 block 12).toNat < 16 ∨ (be32 block 12).toNat > block.length - 4 ∨
        ((be32 block 12).toNat - 16) % c.revokeWidth ≠ 0
    · refine ⟨.error (.invalidArgument "JBD2 revoke record length"), fun s visitor => ?_⟩
      rw [revoke, if_neg h1, hrec, Eff.liftExcept_ok, pure_bind, if_pos h2]
      rfl
    refine ⟨.ok ((range (((be32 block 12).toNat - 16) / c.revokeWidth)).map fun k =>
      c.revokeTarget block (16 + k * c.revokeWidth)), fun s visitor => ?_⟩
    rw [revoke, if_neg h1, hrec, Eff.liftExcept_ok, pure_bind, if_neg h2, each, forM_map]
  obtain ⟨r, hr⟩ := heach
  have htargets : c.revokeTargets block sequence = r := by
    rw [revokeTargets, ← visited_each r]
    congr 1
    funext visitor
    exact hr _ visitor
  rw [hr, htargets]

end Codec

/-- An immutable journal: the answer to a read of each of its blocks. -/
abbrev Image (n : ℕ) := ℕ → Result (Vector UInt8 n)

def imageReader {n : ℕ} (image : Image n) (position : ℕ) : Eff Status (List ℕ) (List UInt8) := do
  modify (· ++ [position])
  let block ← liftExcept (image position)
  pure block.toList

inductive Entry
  | descriptor (position : ℕ) (tags : List Tag)
  | revoke (targets : List ℕ)

def Superblock.skip (sb : Superblock) (n position : ℕ) : ℕ := sb.advance^[n] position

section

variable (c : Codec) (image : Image c.superblock.blockSize)

def Holds (position : ℕ) (block : List UInt8) : Prop := ∃ v, image position = .ok v ∧ v.toList = block

inductive RecordAt (sequence : BitVec 32) (position : ℕ) : Entry → ℕ → Prop
  | descriptor {block tags} (hb : Holds c image position block) (ht : c.descriptorTags block sequence = .ok tags)
      (hp : ∀ k tag, tags[k]? = some tag → ∃ payload, Holds c image (c.superblock.skip (k + 1) position) payload ∧
        c.payload payload sequence tag = .ok ()) :
      RecordAt sequence position (.descriptor position tags) (c.superblock.skip (tags.length + 1) position)
  | revoke {block targets} (hb : Holds c image position block) (ht : c.revokeTargets block sequence = .ok targets) :
      RecordAt sequence position (.revoke targets) (c.superblock.advance position)

inductive Entries (sequence : BitVec 32) : ℕ → List Entry → ℕ → Prop
  | nil {position} : Entries sequence position [] position
  | cons {position next stop entry entries} (hr : RecordAt c image sequence position entry next)
      (hs : Entries sequence next entries stop) : Entries sequence position (entry :: entries) stop

def CommitAt (sequence : BitVec 32) (position : ℕ) : Prop :=
  ∃ block commit, Holds c image position block ∧ c.commit block sequence = .ok commit

inductive Transactions : BitVec 32 → ℕ → List (List Entry) → ℕ → Prop
  | nil {sequence position} : Transactions sequence position [] position
  | cons {sequence position stop last entries transactions} (he : Entries c image sequence position entries stop)
      (hc : CommitAt c image sequence stop)
      (ht : Transactions (sequence + 1) (c.superblock.advance stop) transactions last) :
      Transactions sequence position (entries :: transactions) last

def EndsAt (sequence : BitVec 32) (position : ℕ) : Prop :=
  ∃ block, Holds c image position block ∧ (allZero block = true ∨
    ∃ earlier, earlier ≠ sequence ∧ (sequence - earlier).toNat < 0x80000000 ∧
      ((∃ tags, c.descriptorTags block earlier = .ok tags) ∨ (∃ targets, c.revokeTargets block earlier = .ok targets) ∨
        ∃ commit, c.commit block earlier = .ok commit))

/-- The log from `position` on: its transactions, and the records of one that was not committed. -/
structure Log (transactions : List (List Entry)) (tail : List Entry) : Prop where
  ends : ∃ middle stop, Transactions c image c.superblock.sequence c.superblock.startBlock transactions middle ∧
    Entries c image (c.superblock.sequence + BitVec.ofNat 32 transactions.length) middle tail stop ∧
    EndsAt c image (c.superblock.sequence + BitVec.ofNat 32 transactions.length) stop

end

def Entry.actions (sb : Superblock) (order : ℕ) : Entry → List ReplayAction
  | .descriptor position tags => tags.zipIdx.map fun (tag, k) =>
      ⟨tag.targetBlock, sb.skip (k + 1) position, sb.sequence + BitVec.ofNat 32 order, order, tag.checksum, tag.restoreMagic⟩
  | .revoke _ => []

def Entry.revocations (order : ℕ) : Entry → List Revocation
  | .descriptor _ _ => []
  | .revoke targets => targets.map fun target => ⟨target, order⟩

def loggedActions (sb : Superblock) (transactions : List (List Entry)) : List ReplayAction :=
  transactions.zipIdx.flatMap fun (entries, order) => entries.flatMap (Entry.actions sb order)

def loggedRevocations (transactions : List (List Entry)) : List Revocation :=
  transactions.zipIdx.flatMap fun (entries, order) => entries.flatMap (Entry.revocations order)

def Revoked (transactions : List (List Entry)) (action : ReplayAction) : Prop :=
  ∃ order entries targets, action.transactionOrder ≤ order ∧ transactions[order]? = some entries ∧
    Entry.revoke targets ∈ entries ∧ action.targetBlock ∈ targets

lemma suppressed_iff (transactions : List (List Entry)) (action : ReplayAction) :
    suppressed (loggedRevocations transactions) action = true ↔ Revoked transactions action := by
  simp only [suppressed, any_eq_true, loggedRevocations, mem_flatMap, Bool.and_eq_true, beq_iff_eq,
    decide_eq_true_eq, Prod.exists, mem_zipIdx_iff_getElem?, Revoked]
  constructor
  · rintro ⟨r, ⟨entries, order, hget, entry, hmem, hr⟩, htarget, horder⟩
    cases entry with
    | descriptor position tags => simp [Entry.revocations] at hr
    | revoke targets =>
    simp only [Entry.revocations, mem_map] at hr
    obtain ⟨target, hin, rfl⟩ := hr
    exact ⟨order, entries, targets, horder, hget, hmem, htarget ▸ hin⟩
  rintro ⟨order, entries, targets, horder, hget, hmem, hin⟩
  refine ⟨⟨action.targetBlock, order⟩, ⟨entries, order, hget, .revoke targets, hmem, ?_⟩, rfl, horder⟩
  exact mem_map.mpr ⟨_, hin, rfl⟩

lemma compact_spec (revocations : List Revocation) (actions : List ReplayAction) (rest index output revoked : ℕ)
    (array : List ReplayAction) (ho : output ≤ index) (hi : index + rest ≤ actions.length) (hl : array.length = actions.length)
    (hkeep : array.take output = (actions.take index).filter fun action => !suppressed revocations action)
    (hsame : array.drop index = actions.drop index) :
    let final := compact revocations rest index array output revoked
    final.1.take final.2.1 = (actions.take (index + rest)).filter fun action => !suppressed revocations action := by
  induction rest generalizing index output revoked array with
  | zero => exact hkeep
  | succ rest ih =>
  have hlt : index < actions.length := by omega
  have hget : array[index]? = some actions[index] := by
    have h := congrArg head? hsame
    rwa [head?_drop, head?_drop, getElem?_eq_getElem hlt] at h
  have htake : actions.take (index + 1) = actions.take index ++ [actions[index]] := by
    rw [take_add_one, getElem?_eq_getElem hlt]
    rfl
  have hdrop {l l' : List ReplayAction} (h : l.drop index = l'.drop index) : l.drop (index + 1) = l'.drop (index + 1) := by
    rw [← drop_drop, ← drop_drop, h]
  rw [show index + (rest + 1) = index + 1 + rest by omega]
  rw [compact, hget]
  dsimp only
  by_cases hs : suppressed revocations actions[index] = true
  · rw [if_pos hs]
    refine ih (index + 1) output (revoked + 1) array (by omega) (by omega) hl ?_ (hdrop hsame)
    rw [htake, filter_append, hkeep]
    simp [hs]
  rw [if_neg hs]
  refine ih (index + 1) (output + 1) revoked (array.set output actions[index]) (by omega) (by omega) (by simp [hl]) ?_ ?_
  · have hout : (array.set output actions[index])[output]? = some actions[index] := by
      rw [getElem?_set_self (by omega)]
    rw [htake, filter_append, ← hkeep, take_add_one, hout, take_set_of_le le_rfl]
    simp [hs]
  · rw [drop_set_of_lt (by omega)]
    exact hdrop hsame

end ObfuscationKernel.Fs.Jbd2
