import ObfuscationKernel.Memory.FrameLayout
import Mathlib.Logic.Relation

/-! Ownership of physical frames: the steps of the allocator, what they keep, and the steps that each
operation is made of. -/

namespace ObfuscationKernel.Memory

open ObfuscationKernel.Core Library List Function

lemma ChargeAccount.charge_cases (c : ChargeAccount) (units : ℕ) : (∃ status, c.charge units = (.error status, c)) ∨
    c.charge units = (.ok (), { c with used := c.used + units, peak := max c.peak (c.used + units) }) := by
  unfold ChargeAccount.charge
  split
  · exact .inl ⟨_, rfl⟩
  split
  · exact .inl ⟨_, rfl⟩
  exact .inr rfl

namespace FrameAllocator

variable {a b : FrameAllocator} {i j : ℕ} {f g : PhysicalFrame}

def issued (a : FrameAllocator) : ℕ := if a.nextGeneration = 0 then u64 else a.nextGeneration

lemma issued_pos (a : FrameAllocator) : 0 < a.issued := by
  unfold issued
  split
  · exact Nat.two_pow_pos 64
  · omega

structure Owned (a : FrameAllocator) : Prop where
  words : a.words = (a.frameCount + 63) / 64
  counted : a.usedCount = (List.range a.frameCount).countP a.used
  marked : ∀ i < a.frameCount, a.used i = true ↔ (a.descriptors i).generation ≠ 0
  tail : ∀ i, a.frameCount ≤ i → i < 64 * a.words → a.used i = true
  young : ∀ i < a.frameCount, (a.descriptors i).generation < a.issued
  next : a.nextGeneration < u64
  layout : ∃ runs, a.Layout runs

def free (a : FrameAllocator) (i : ℕ) : FrameAllocator := { a.drop i with usedCount := a.usedCount - 1 }

inductive Change (a : FrameAllocator) : FrameAllocator → Prop
  | hint (h : ℕ) : Change a { a with nextFreeHint := h }
  | take (i : ℕ) (hi : i < a.frameCount) (hu : a.used i = false) (hg : a.nextGeneration ≠ 0) : Change a (a.take i)
  | free (i : ℕ) (hi : i < a.frameCount) (hu : a.used i = true) : Change a (a.free i)
  | describe (i : ℕ) (d : PageDescriptor) (hd : d.generation = (a.descriptors i).generation) :
      Change a (a.setDescriptor i d)
  | reset (regions : List MemoryRegion) (pageSize : ℕ) (metadata : Option ℕ)
      (h : (a.initializeFrames regions pageSize metadata).1 = .ok ()) :
      Change a (a.initializeFrames regions pageSize metadata).2

abbrev Steps : FrameAllocator → FrameAllocator → Prop := Relation.ReflTransGen Change

def Dead (a : FrameAllocator) (f : PhysicalFrame) : Prop :=
  f.generation ≠ 0 ∧ f.generation < a.issued ∧ (f.index < a.frameCount → (a.descriptors f.index).generation ≠ f.generation)

lemma live_iff : a.live f = true ↔ f.owner = a.identity ∧ f.index < a.frameCount ∧ f.generation ≠ 0 ∧
    (a.descriptors f.index).generation = f.generation ∧ a.addressFor f.index = f.address := by
  unfold live descriptor
  split
  · next h =>
    simp only [exact, Bool.and_eq_true, beq_iff_eq, decide_eq_true_eq, bne_iff_ne] at h
    simp [h]
  next h =>
  simp only [exact, Bool.and_eq_true, beq_iff_eq, decide_eq_true_eq, bne_iff_ne] at h
  tauto

lemma exact_eq_live : a.exact f = a.live f := by
  unfold live descriptor
  split <;> simp_all

lemma Dead.not_live (h : a.Dead f) : a.live f = false := by
  rw [Bool.eq_false_iff]
  intro hl
  obtain ⟨-, hi, -, hg, -⟩ := live_iff.mp hl
  exact h.2.2 hi hg

lemma Owned.live_inj (h : a.Owned) (hf : a.live f = true) (hg : a.live g = true)
    (he : f.index = g.index ∨ f.address = g.address) : f = g := by
  obtain ⟨runs, hl⟩ := h.layout
  obtain ⟨fo, fi, -, fg, fa⟩ := live_iff.mp hf
  obtain ⟨go, gi, -, gg, ga⟩ := live_iff.mp hg
  have hindex := he.elim id fun he => hl.addressFor_inj fi gi (by rw [fa, ga, he])
  cases f
  cases g
  simp_all

section Take

@[simp] lemma take_frameCount : (a.take i).frameCount = a.frameCount := rfl

lemma used_take : (a.take i).used j = if j = i then true else a.used j := used_mark true

lemma used_drop : (a.drop i).used j = if j = i then false else a.used j := used_mark false

lemma descriptors_take : (a.take i).descriptors j = if j = i then { generation := a.nextGeneration } else a.descriptors j := by
  simp [take, setDescriptor, mark, update_apply]

lemma descriptors_drop : (a.drop i).descriptors j = if j = i then {} else a.descriptors j := by
  simp [drop, setDescriptor, mark, update_apply]

lemma issued_take (hn : a.nextGeneration < u64) : (a.take i).issued = a.nextGeneration + 1 := by
  have hnext : (a.take i).nextGeneration = (a.nextGeneration + 1) % u64 := rfl
  rw [issued, hnext]
  rcases Nat.lt_or_ge (a.nextGeneration + 1) u64 with h | h
  · rw [Nat.mod_eq_of_lt h, if_neg (by omega)]
  · rw [show a.nextGeneration + 1 = u64 by omega, Nat.mod_self, if_pos rfl]

lemma Owned.take (h : a.Owned) (hi : i < a.frameCount) (hu : a.used i = false) (hg : a.nextGeneration ≠ 0) :
    (a.take i).Owned := by
  have his : a.issued = a.nextGeneration := if_neg hg
  refine ⟨h.words, ?_, fun j hj => ?_, fun j hj hj' => ?_, fun j hj => ?_, ?_, ?_⟩
  · rw [take_frameCount, countP_range_insert hi hu (by simp [used_take]) fun j hj => by simp [used_take, hj], ← h.counted]
    rfl
  · rw [used_take, descriptors_take]
    split
    · simpa using hg
    · exact h.marked j hj
  · rw [used_take]
    split
    · rfl
    · exact h.tail j hj hj'
  · rw [issued_take h.next, descriptors_take]
    split
    · exact Nat.lt_succ_self _
    · have := h.young j hj
      omega
  · exact Nat.mod_lt _ (by decide)
  · obtain ⟨runs, hl⟩ := h.layout
    exact ⟨runs, { hl with }⟩

lemma Owned.free (h : a.Owned) (hi : i < a.frameCount) (hu : a.used i = true) : (a.free i).Owned := by
  have hused (j) : (a.free i).used j = if j = i then false else a.used j := used_drop
  have hdesc (j) : (a.free i).descriptors j = if j = i then {} else a.descriptors j := descriptors_drop
  refine ⟨h.words, ?_, fun j hj => ?_, fun j hj hj' => ?_, fun j hj => ?_, h.next, ?_⟩
  · have hc := countP_range_insert (p := (a.free i).used) (q := a.used) hi (by simp [hused]) hu fun j hj => by simp [hused, hj]
    show a.usedCount - 1 = (range a.frameCount).countP (a.free i).used
    rw [h.counted, hc, Nat.add_sub_cancel]
  · rw [hused, hdesc]
    split
    · simp
    · exact h.marked j hj
  · rw [hused, if_neg (show j ≠ i from fun he => by rw [he] at hj; exact absurd hi (Nat.not_lt.mpr hj))]
    exact h.tail j hj hj'
  · rw [hdesc]
    split
    · exact a.issued_pos
    · exact h.young j hj
  · obtain ⟨runs, hl⟩ := h.layout
    exact ⟨runs, { hl with }⟩

end Take

variable {pageSize frames : ℕ}

lemma initializeFrames_ok {regions : List MemoryRegion} {metadata : Option ℕ}
    (h : (a.initializeFrames regions pageSize metadata).1 = .ok ()) :
    a.usedCount = 0 ∧ ∃ frames runs, (0 < frames ∧ ∃ size ∈ metadata, metadataBytesFor frames runs.length ≤ size) ∧
      sweepUsable regions pageSize = .ok runs ∧ frames = (runs.map Run.count).sum ∧
      (a.initializeFrames regions pageSize metadata).2 = a.reset pageSize frames runs := by
  unfold initializeFrames at h ⊢
  split
  · next hu =>
    rw [if_pos hu] at h
    cases h
  next hu =>
  rw [if_neg hu] at h
  refine ⟨by omega, ?_⟩
  cases hc : countUsable regions pageSize with
  | error e => simp [hc] at h
  | ok totals =>
  obtain ⟨runs, hs, hframes, hranges, hpos⟩ := countUsable_ok hc
  rw [hc, hs] at h
  rw [hs]
  dsimp only at h ⊢
  split
  · next hm =>
    rw [if_pos hm] at h
    cases h
  · next hm => exact ⟨totals.1, runs, ⟨hpos, by simpa [Option.any_eq_true, hranges] using hm⟩, rfl, hframes, rfl⟩

lemma used_reset {runs : List Run} (hi : i < 64 * ((frames + 63) / 64)) :
    (a.reset pageSize frames runs).used i = decide (frames ≤ i) := by
  simp only [used, FrameAllocator.reset]
  split
  · next hw =>
    have hm : i % 64 < 64 := Nat.mod_lt _ (by decide)
    rw [BitVec.getLsbD_shiftLeft]
    simp only [hm, decide_true, Bool.true_and, BitVec.getLsbD_not, BitVec.getLsbD_zero, Bool.not_false, Bool.and_true]
    rw [decide_eq_true (show i % 64 - frames % 64 < 64 by omega), Bool.and_true, ← decide_not, decide_eq_decide]
    omega
  next hw =>
  rw [show (0 : BitVec 64).getLsbD (i % 64) = false from BitVec.getLsbD_zero, eq_comm, decide_eq_false_iff_not]
  omega

lemma Owned.reset (h : a.Owned) {runs : List Run} (h0 : a.usedCount = 0) (hp : 0 < pageSize)
    (hr : Runs pageSize addressLimit runs) (hframes : frames = (runs.map Run.count).sum) :
    (a.reset pageSize frames runs).Owned := by
  refine ⟨rfl, ?_, fun i hi => ?_, fun i hi hi' => ?_, fun i hi => issued_pos _, h.next, runs, rfl, hframes, hp, hr⟩
  · refine h0.trans (Eq.symm (countP_eq_zero.mpr fun i hi => ?_))
    have hi : i < frames := mem_range.mp hi
    rw [used_reset (by omega)]
    simpa using hi
  · have hi : i < frames := hi
    rw [used_reset (by omega)]
    simpa [FrameAllocator.reset] using hi
  have hi : frames ≤ i := hi
  rw [used_reset hi']
  simpa using hi

lemma Change.owned (hc : a.Change b) (h : a.Owned) : b.Owned := by
  cases hc with
  | hint n =>
    obtain ⟨runs, hl⟩ := h.layout
    exact { h with layout := ⟨runs, { hl with }⟩ }
  | take i hi hu hg => exact h.take hi hu hg
  | free i hi hu => exact h.free hi hu
  | describe i d hd =>
    obtain ⟨runs, hl⟩ := h.layout
    have hgen (j) : ((a.setDescriptor i d).descriptors j).generation = (a.descriptors j).generation := by
      simp only [setDescriptor, update_apply]
      split
      · next he => rw [hd, he]
      · rfl
    exact { h with
      marked := fun j hj => by rw [hgen]; exact h.marked j hj, young := fun j hj => by rw [hgen]; exact h.young j hj
      layout := ⟨runs, { hl with }⟩ }
  | reset regions pageSize metadata hok =>
  obtain ⟨h0, frames, runs, -, hs, hframes, he⟩ := initializeFrames_ok hok
  obtain ⟨hp, hr⟩ := sweepUsable_runs hs
  rw [he]
  exact h.reset h0 hp hr hframes

lemma Steps.owned (hs : Steps a b) (h : a.Owned) : b.Owned := by
  induction hs with
  | refl => exact h
  | tail _ hc ih => exact hc.owned ih

lemma Change.dead (hc : a.Change b) (h : a.Owned) (hf : a.Dead f) : b.Dead f := by
  obtain ⟨hn, hlt, hne⟩ := hf
  cases hc with
  | hint n => exact ⟨hn, hlt, hne⟩
  | take i hi hu hg =>
    have his : a.issued = a.nextGeneration := if_neg hg
    refine ⟨hn, by rw [issued_take h.next]; omega, fun hx => ?_⟩
    rw [descriptors_take]
    split
    · dsimp only
      omega
    · exact hne hx
  | free i hi hu =>
    refine ⟨hn, hlt, fun hx => ?_⟩
    show ((a.drop i).descriptors f.index).generation ≠ f.generation
    rw [descriptors_drop]
    split
    · exact hn.symm
    · exact hne hx
  | describe i d hd =>
    refine ⟨hn, hlt, fun hx => ?_⟩
    simp only [setDescriptor, update_apply]
    split
    · next he =>
      rw [hd, ← he]
      exact hne hx
    · exact hne hx
  | reset regions pageSize metadata hok =>
  obtain ⟨-, frames, runs, -, -, -, he⟩ := initializeFrames_ok hok
  rw [he]
  exact ⟨hn, hlt, fun _ => hn.symm⟩

lemma Change.live_or_dead (hc : a.Change b) (h : a.Owned) (hf : a.live f = true) : b.live f = true ∨ b.Dead f := by
  obtain ⟨ho, hi, hn, hg, haddr⟩ := live_iff.mp hf
  have hlt := hg ▸ h.young f.index hi
  cases hc with
  | hint n => exact .inl hf
  | take i hi' hu hgen =>
    have hne : f.index ≠ i := by
      rintro rfl
      have := (h.marked f.index hi').mpr (by rw [hg]; exact hn)
      simp [hu] at this
    refine .inl (live_iff.mpr ⟨ho, hi, hn, ?_, haddr⟩)
    rw [descriptors_take, if_neg hne, hg]
  | free i hi' hu =>
    have hdesc : (a.free i).descriptors f.index = if f.index = i then {} else a.descriptors f.index := descriptors_drop
    by_cases he : f.index = i
    · refine .inr ⟨hn, hlt, fun _ => ?_⟩
      rw [hdesc, if_pos he]
      exact hn.symm
    · refine .inl (live_iff.mpr ⟨ho, hi, hn, ?_, haddr⟩)
      rw [hdesc, if_neg he, hg]
  | describe i d hd =>
    refine .inl (live_iff.mpr ⟨ho, hi, hn, ?_, haddr⟩)
    simp only [setDescriptor, update_apply]
    split
    · next he => rw [hd, ← he, hg]
    · exact hg
  | reset regions pageSize metadata hok =>
  obtain ⟨-, frames, runs, -, -, -, he⟩ := initializeFrames_ok hok
  rw [he]
  exact .inr ⟨hn, hlt, fun _ => hn.symm⟩

lemma Steps.dead (hs : Steps a b) (h : a.Owned) (hf : a.Dead f) : b.Dead f := by
  induction hs with
  | refl => exact hf
  | tail hab hc ih => exact hc.dead (Steps.owned hab h) ih

lemma Steps.live_or_dead (hs : Steps a b) (h : a.Owned) (hf : a.live f = true) : b.live f = true ∨ b.Dead f := by
  induction hs with
  | refl => exact .inl hf
  | tail hab hc ih =>
    have ho := Steps.owned hab h
    exact ih.elim (hc.live_or_dead ho) fun hd => .inr (hc.dead ho hd)

section Operations

variable {account : ChargeAccount} {first count alignment n : ℕ}

lemma Owned.freeWord (h : a.Owned) (h0 : a.frameCount ≠ 0) {word : ℕ} (hf : a.freeWord = some word) :
    a.used (word * 64 + lowestClearBit (a.bitmap word)) = false ∧
      word * 64 + lowestClearBit (a.bitmap word) < a.frameCount := by
  have hbits := find?_some hf
  obtain ⟨hlt, hclear⟩ := lowestClearBit_spec (by simpa using hbits)
  have hused : a.used (word * 64 + lowestClearBit (a.bitmap word)) = false := by
    simp only [used, show (word * 64 + lowestClearBit (a.bitmap word)) / 64 = word by omega,
      show (word * 64 + lowestClearBit (a.bitmap word)) % 64 = lowestClearBit (a.bitmap word) by omega]
    exact hclear
  refine ⟨hused, ?_⟩
  obtain ⟨scanned, -, rfl⟩ := mem_map.mp (mem_of_find?_eq_some hf)
  by_contra hge
  have hpos : 0 < a.words := by
    rw [h.words]
    omega
  have hword := Nat.mod_lt (a.nextFreeHint / 64 + scanned) hpos
  have := h.tail _ (Nat.not_lt.mp hge) (by omega)
  rw [hused] at this
  cases this

lemma Owned.allocate_cases (h : a.Owned) : (∃ status, a.allocate = (.error status, a)) ∨
    ∃ i hint, i < a.frameCount ∧ a.used i = false ∧ a.nextGeneration ≠ 0 ∧
      a.allocate = (.ok ((a.take i).handle i), { a.take i with nextFreeHint := hint }) := by
  unfold FrameAllocator.allocate
  split
  · exact .inl ⟨_, rfl⟩
  next h0 =>
  split
  · exact .inl ⟨_, rfl⟩
  split
  · exact .inl ⟨_, rfl⟩
  next hg =>
  split
  · exact .inl ⟨_, rfl⟩
  next word hw =>
  obtain ⟨hu, hi⟩ := h.freeWord h0 hw
  exact .inr ⟨_, _, hi, hu, hg, rfl⟩

lemma Owned.allocate_ok (h : a.Owned) (hu : a.usedCount < a.frameCount) (hg : a.nextGeneration ≠ 0) :
    ∃ f, a.allocate.1 = .ok f := by
  unfold FrameAllocator.allocate
  rw [if_neg (by omega), if_neg (by omega), if_neg hg]
  split
  · next hw =>
    have hfull (i) (hi : i < a.frameCount) : a.used i = true := by
      have hword : i / 64 < a.words := by
        rw [h.words]
        omega
      have hmem : i / 64 ∈ (range (a.words + 1)).map fun scanned => (a.nextFreeHint / 64 + scanned) % a.words := by
        have hm := Nat.mod_lt (a.nextFreeHint / 64) (show 0 < a.words by omega)
        have hdm := Nat.div_add_mod (a.nextFreeHint / 64) a.words
        refine mem_map.mpr ⟨(i / 64 + (a.words - a.nextFreeHint / 64 % a.words)) % a.words, mem_range.mpr ?_, ?_⟩
        · have := Nat.mod_lt (i / 64 + (a.words - a.nextFreeHint / 64 % a.words)) (show 0 < a.words by omega)
          omega
        rw [Nat.add_mod_mod, show a.nextFreeHint / 64 + (i / 64 + (a.words - a.nextFreeHint / 64 % a.words)) =
          i / 64 + a.words * (a.nextFreeHint / 64 / a.words + 1) by rw [Nat.mul_succ]; omega,
          Nat.add_mul_mod_self_left, Nat.mod_eq_of_lt hword]
      have hbits := find?_eq_none.mp hw _ hmem
      have hones : a.bitmap (i / 64) = ~~~0#64 := by simpa using hbits
      have hm : i % 64 < 64 := Nat.mod_lt _ (by decide)
      rw [used, hones, BitVec.getLsbD_not, BitVec.getLsbD_zero, decide_eq_true hm]
      rfl
    have hall : (range a.frameCount).countP a.used = a.frameCount := by
      conv_rhs => rw [← length_range (n := a.frameCount)]
      exact countP_eq_length.mpr fun i hi => hfull i (mem_range.mp hi)
    have := h.counted
    omega
  · exact ⟨_, rfl⟩

def takeRun (a : FrameAllocator) (first count : ℕ) : FrameAllocator :=
  (List.range count).foldl (fun a i => a.take (first + i)) a

lemma takeRun_succ : a.takeRun first (n + 1) = (a.takeRun first n).take (first + n) := by
  simp [takeRun, range_succ]

lemma takeRun_spec (hg : a.nextGeneration ≠ 0) (hlast : a.nextGeneration + n ≤ u64 - 1)
    (hfree : ∀ i < n, first + i < a.frameCount ∧ a.used (first + i) = false) :
    Steps a (a.takeRun first n) ∧ (a.takeRun first n).nextGeneration = a.nextGeneration + n ∧
      (a.takeRun first n).frameCount = a.frameCount ∧
      (∀ j, (a.takeRun first n).used j = (decide (first ≤ j ∧ j < first + n) || a.used j)) ∧
      ∀ j, (a.takeRun first n).descriptors j =
        if first ≤ j ∧ j < first + n then { generation := a.nextGeneration + (j - first) } else a.descriptors j := by
  induction n with
  | zero =>
    refine ⟨.refl, rfl, rfl, fun j => ?_, fun j => ?_⟩
    · rw [decide_eq_false (by omega)]
      rfl
    · rw [if_neg (by omega)]
      rfl
  | succ n ih =>
  obtain ⟨hs, hgen, hcount, hused, hdesc⟩ := ih (by omega) fun i hi => hfree i (by omega)
  obtain ⟨hi, hu⟩ := hfree n (by omega)
  rw [takeRun_succ]
  refine ⟨hs.tail (.take _ (by rwa [hcount]) ?_ (by omega)), ?_, hcount, fun j => ?_, fun j => ?_⟩
  · rw [hused, hu, decide_eq_false (by omega)]
    rfl
  · have hnext : ((a.takeRun first n).take (first + n)).nextGeneration = ((a.takeRun first n).nextGeneration + 1) % u64 := rfl
    rw [hnext, hgen, Nat.mod_eq_of_lt (by omega)]
    omega
  · rw [used_take, hused]
    split
    · next he =>
      rw [decide_eq_true (by omega)]
      rfl
    next he =>
    congr 1
    rw [decide_eq_decide]
    omega
  rw [descriptors_take, hdesc]
  split
  · next he =>
    rw [if_pos (by omega), hgen]
    congr 1
    omega
  next he =>
  by_cases hj : first ≤ j ∧ j < first + n
  · rw [if_pos hj, if_pos (by omega)]
  · rw [if_neg hj, if_neg (by omega)]

lemma Owned.scan (h : a.Owned)
    (hs : (a.ranges.findSome? fun range => a.scanRange count alignment range range.count 0) = some first) :
    ∀ i < count, first + i < a.frameCount ∧ a.used (first + i) = false := by
  obtain ⟨range, hr, hscan⟩ := exists_of_findSome?_eq_some hs
  obtain ⟨h1, h2, h3⟩ := scanRange_spec le_rfl (by omega) (fun o h1 h2 => by omega) hscan
  obtain ⟨runs, hl⟩ := h.layout
  intro i hi
  refine ⟨?_, h3 i hi⟩
  obtain ⟨k, hk, hkr⟩ := getElem_of_mem hr
  have hk' : k < runs.length := by rwa [hl.ranges, length_rangesOf] at hk
  have hrange : range = ⟨runs[k].base, framesBefore runs k, runs[k].count⟩ := by
    rw [← hl.rangeAt hk']
    simp [rangeAt, getD_eq_getElem?_getD, hk, hkr]
  have htotal := framesBefore_mono runs hk'
  rw [framesBefore_succ hk'] at htotal
  have hall : framesBefore runs runs.length = a.frameCount := by simp [framesBefore, hl.total]
  rw [hrange] at h2
  dsimp only at h2
  omega

lemma Owned.allocateContiguous_cases (h : a.Owned) (hg : a.nextGeneration ≠ 0) (count : ℕ) (account : ChargeAccount)
    (alignment : ℕ) :
    (∃ status, a.allocateContiguous count account alignment = (.error status, a, account)) ∨
    ∃ first, 0 < count ∧ (∀ i < count, first + i < a.frameCount ∧ a.used (first + i) = false) ∧
      a.nextGeneration + count ≤ u64 - 1 ∧ account.charge count = (.ok (), (account.charge count).2) ∧
      a.allocateContiguous count account alignment =
        (.ok ((a.takeRun first count).handle first), a.takeRun first count, (account.charge count).2) := by
  unfold allocateContiguous
  split
  · exact .inl ⟨_, rfl⟩
  split
  · exact .inl ⟨_, rfl⟩
  next hc =>
  split
  · exact .inl ⟨_, rfl⟩
  split
  · exact .inl ⟨_, rfl⟩
  split
  · exact .inl ⟨_, rfl⟩
  next hover =>
  have hnext := h.next
  split
  · exact .inl ⟨_, rfl⟩
  next first hs =>
  have hfree := h.scan hs
  rcases ChargeAccount.charge_cases account count with ⟨status, he⟩ | he
  · rw [he]
    exact .inl ⟨status, rfl⟩
  rw [he]
  refine .inr ⟨first, by omega, hfree, by omega, rfl, ?_⟩
  obtain ⟨-, -, hcount, -, hdesc⟩ := takeRun_spec hg (by omega) hfree
  have hok : (a.takeRun first count).handleAt first = .ok ((a.takeRun first count).handle first) := by
    rw [handleAt, if_neg]
    rw [hdesc, if_pos (by omega), hcount]
    have := (hfree 0 (by omega)).1
    simp only [Nat.add_zero, not_or] at this ⊢
    exact ⟨by omega, by omega⟩
  exact congrArg (fun r => (r, a.takeRun first count, _)) hok

def freeRun (a : FrameAllocator) (first count : ℕ) : FrameAllocator :=
  (List.range count).foldl (fun a i => a.free (first + i)) a

lemma freeRun_succ : a.freeRun first (n + 1) = (a.freeRun first n).free (first + n) := by
  simp [freeRun, range_succ]

lemma freeRun_eq : a.freeRun first n =
    { (range n).foldl (fun a i => a.drop (first + i)) a with usedCount := a.usedCount - n } := by
  induction n with
  | zero => rfl
  | succ n ih =>
    rw [freeRun_succ, ih, range_succ, foldl_append]
    congr 1

lemma freeRun_spec (hused : ∀ i < n, first + i < a.frameCount ∧ a.used (first + i) = true) :
    Steps a (a.freeRun first n) ∧ (a.freeRun first n).frameCount = a.frameCount ∧
      (∀ j, (a.freeRun first n).used j = (!decide (first ≤ j ∧ j < first + n) && a.used j)) ∧
      ∀ j, (a.freeRun first n).descriptors j = if first ≤ j ∧ j < first + n then {} else a.descriptors j := by
  induction n with
  | zero =>
    refine ⟨.refl, rfl, fun j => ?_, fun j => ?_⟩
    · rw [decide_eq_false (by omega)]
      rfl
    · rw [if_neg (by omega)]
      rfl
  | succ n ih =>
  obtain ⟨hs, hcount, hus, hdesc⟩ := ih fun i hi => hused i (by omega)
  obtain ⟨hi, hu⟩ := hused n (by omega)
  rw [freeRun_succ]
  refine ⟨hs.tail (.free _ (by rwa [hcount]) ?_), hcount, fun j => ?_, fun j => ?_⟩
  · rw [hus, hu, decide_eq_false (by omega)]
    rfl
  · have hd : ((a.freeRun first n).free (first + n)).used j =
        if j = first + n then false else (a.freeRun first n).used j := used_drop
    rw [hd, hus]
    split
    · next he =>
      rw [decide_eq_true (by omega)]
      rfl
    next he =>
    congr 2
    rw [decide_eq_decide]
    omega
  have hd : ((a.freeRun first n).free (first + n)).descriptors j =
      if j = first + n then {} else (a.freeRun first n).descriptors j := descriptors_drop
  rw [hd, hdesc]
  split
  · next he =>
    rw [if_pos (by omega)]
  next he =>
  by_cases hj : first ≤ j ∧ j < first + n
  · rw [if_pos hj, if_pos (by omega)]
  · rw [if_neg hj, if_neg (by omega)]

lemma Owned.releaseContiguous_cases (h : a.Owned) (f : PhysicalFrame) (count : ℕ) (account : ChargeAccount) :
    (∃ status, a.releaseContiguous f count account = (.error status, a, account)) ∨
    ∃ hint, 0 < count ∧ a.live f = true ∧ count ≤ account.used ∧
      (∀ i < count, f.index + i < a.frameCount ∧ a.used (f.index + i) = true) ∧
      a.releaseContiguous f count account =
        (.ok (), { a.freeRun f.index count with nextFreeHint := hint }, account.uncharge count) := by
  unfold releaseContiguous
  split
  · exact .inl ⟨_, rfl⟩
  next h0 =>
  split
  · exact .inl ⟨_, rfl⟩
  next hw =>
  split
  · exact .inl ⟨_, rfl⟩
  next hc =>
  simp only [not_or, Bool.not_eq_true, Bool.not_eq_false'] at h0
  obtain ⟨hpos, hex, hlast⟩ := h0
  rw [exact_eq_live] at hex
  obtain ⟨-, hi, hn, hg, -⟩ := live_iff.mp hex
  refine .inr ⟨if f.index < a.nextFreeHint then f.index else a.nextFreeHint, by omega, hex, by omega,
    fun i hi' => ⟨by omega, ?_⟩, ?_⟩
  · rcases Nat.eq_zero_or_pos i with rfl | hpos'
    · exact (h.marked _ hi).mpr (by rw [hg]; exact hn)
    simp only [any_eq_true, mem_range, Bool.and_eq_true, bne_iff_ne, Bool.or_eq_true, Bool.not_eq_true',
      not_exists, not_and, not_or, Bool.not_eq_false] at hw
    exact (hw i hi' (by omega)).1
  · rw [freeRun_eq]

lemma release_cases (a : FrameAllocator) (f : PhysicalFrame) : (∃ status, a.release f = (.error status, a)) ∨
    ∃ hint, a.live f = true ∧ f.index < a.frameCount ∧ a.used f.index = true ∧
      a.release f = (.ok (), { a.free f.index with nextFreeHint := hint }) := by
  unfold release
  split
  · exact .inl ⟨_, rfl⟩
  next h0 =>
  simp only [not_or, Bool.not_eq_true, Bool.not_eq_false', exact_eq_live] at h0
  obtain ⟨-, hi, -⟩ := live_iff.mp h0.1
  exact .inr ⟨_, h0.1, hi, h0.2, rfl⟩

end Operations

end FrameAllocator

end ObfuscationKernel.Memory
