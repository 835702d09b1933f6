import ObfuscationKernel.User.PagePool
import ObfuscationKernel.Memory.FrameRuns

/-! The books of the native page pool: its counters count the frames, one rewriting of descriptors at a time. -/

namespace ObfuscationKernel.User

open ObfuscationKernel.Core Memory List Function FrameAllocator NativePagePool

section Counts

variable {P Q : ℕ → Bool} {first n total : ℕ} {old new : Bool}

lemma countP_range_run (hn : first + n ≤ total) (hout : ∀ j, ¬ (first ≤ j ∧ j < first + n) → Q j = P j)
    (hold : ∀ i < n, P (first + i) = old) (hnew : ∀ i < n, Q (first + i) = new) :
    (range total).countP Q + n * old.toNat = (range total).countP P + n * new.toNat := by
  induction n generalizing Q with
  | zero => simp [show Q = P from funext fun j => hout j (by omega)]
  | succ n ih =>
  -- the last frame of the run is put back, which leaves the shorter run rewritten
  have hback : (range total).countP (update Q (first + n) old) + (Q (first + n)).toNat = (range total).countP Q + old.toNat :=
    Library.Slots.countP_update id Q (first + n) old nodup_range (mem_range.mpr (by omega))
  have hrun := ih (Q := update Q (first + n) old) (by omega) (fun j hj => by grind)
    (fun i hi => hold i (by omega)) fun i hi => by rw [update_of_ne (by omega), hnew i (by omega)]
  rw [hnew n (by omega)] at hback
  rw [Nat.succ_mul, Nat.succ_mul]
  omega

end Counts

namespace NativePagePool

variable {p q : NativePagePool} {f g : PhysicalFrame} {d e : PageDescriptor} {kind : PageKind} {first n i j hint : ℕ}

inductive Book
  | user | object | pinned | pending | quarantined

def Book.holds : Book → PageDescriptor → Bool
  | user, d => d.kind = .nativeUser
  | object, d => d.kind = .nativeObject
  | pinned, d => d.kind = .nativeUser ∧ d.pins ≠ 0
  | pending, d => d.kind = .nativeUser ∧ d.pending = true
  | quarantined, d => d.kind = .nativeObject ∧ d.quarantined = true

def count (p : NativePagePool) : Book → ℕ
  | .user => p.userCount
  | .object => p.objectCount
  | .pinned => p.pinnedCount
  | .pending => p.pendingCount
  | .quarantined => p.quarantinedCount

def countFrames (a : FrameAllocator) (b : Book) : ℕ := (List.range a.frameCount).countP fun i => b.holds (a.descriptors i)

structure Sound (d : PageDescriptor) : Prop where
  user : d.kind = .nativeUser → d.generation ≠ 0 ∧ (d.references ≠ 0 ∨ d.pins ≠ 0) ∧
    (d.pending = true ↔ d.references = 0) ∧ d.quarantined = false ∧ d.references ≤ maxCount ∧ d.pins ≤ maxCount
  object : d.kind = .nativeObject → d.generation ≠ 0 ∧ d.references = 0 ∧ d.pins = 0 ∧ d.pending = false
  free : d.generation = 0 → d = {}

lemma Sound.other (hu : d.kind ≠ .nativeUser) (ho : d.kind ≠ .nativeObject) (hf : d.generation = 0 → d = {}) : Sound d :=
  ⟨fun h => absurd h hu, fun h => absurd h ho, hf⟩

structure Kept (p : NativePagePool) : Prop where
  active : p.active = true
  owned : p.frames.Owned
  pages : p.frames.pageSize = pageSize
  sound : ∀ i < p.frames.frameCount, Sound (p.frames.descriptors i)
  counted : ∀ b, p.count b = countFrames p.frames b
  user : p.userCount ≤ p.userLimit
  object : p.objectCount ≤ p.kernelReserve

structure Alike (a b : FrameAllocator) : Prop where
  identity : b.identity = a.identity
  pageSize : b.pageSize = a.pageSize
  frameCount : b.frameCount = a.frameCount
  ranges : b.ranges = a.ranges

lemma Alike.refl (a : FrameAllocator) : Alike a a := ⟨rfl, rfl, rfl, rfl⟩

variable {a b : FrameAllocator}

lemma Alike.trans {c : FrameAllocator} (h : Alike a b) (h' : Alike b c) : Alike a c :=
  ⟨h'.identity.trans h.identity, h'.pageSize.trans h.pageSize, h'.frameCount.trans h.frameCount, h'.ranges.trans h.ranges⟩

lemma Alike.addressFor (h : Alike a b) (i : ℕ) : b.addressFor i = a.addressFor i := by
  simp only [FrameAllocator.addressFor, FrameAllocator.rangeAt, h.ranges, h.pageSize]
  rfl

lemma Alike.live (h : Alike a b)
    (hg : (b.descriptors f.index).generation = (a.descriptors f.index).generation) : b.live f = a.live f := by
  rw [Bool.eq_iff_iff, live_iff, live_iff, h.identity, h.frameCount, hg, h.addressFor]

lemma state_eq_some (h : p.active = true) : p.state f kind = some d ↔
    p.frames.live f = true ∧ p.frames.descriptors f.index = d ∧ d.kind = kind := by
  unfold state descriptor
  rw [exact_eq_live, h, Bool.true_and]
  by_cases hl : p.frames.live f = true
  · have ho := (live_iff.mp hl).1
    simp only [ho, beq_self_eq_true, if_true, hl, Option.filter_eq_some_iff, Option.some.injEq, decide_eq_true_eq, true_and]
  · simp [hl]

lemma state_of_eq (h : p.active = true) (ha : q.active = p.active) (hs : Alike p.frames q.frames)
    (hd : q.frames.descriptors f.index = p.frames.descriptors f.index) : q.state f kind = p.state f kind := by
  refine Option.ext fun d => ?_
  rw [state_eq_some (ha.trans h), state_eq_some h, hs.live (by rw [hd]), hd]

lemma state_none (h : p.active = true) (hl : p.frames.live f = false) : p.state f kind = none := by
  by_contra hne
  obtain ⟨d, hd⟩ := Option.ne_none_iff_exists'.mp hne
  rw [((state_eq_some h).mp hd).1] at hl
  cases hl

lemma state_none_of_kind (h : p.active = true) (hk : (p.frames.descriptors f.index).kind ≠ kind) : p.state f kind = none := by
  by_contra hne
  obtain ⟨d, hd⟩ := Option.ne_none_iff_exists'.mp hne
  obtain ⟨-, hd, hkind⟩ := (state_eq_some h).mp hd
  exact hk (hd ▸ hkind)

lemma state_of_kind {other : PageKind} (h : p.active = true) (hs : p.state f kind = some d) (hne : other ≠ kind) :
    p.state f other = none := by
  obtain ⟨-, hd, hk⟩ := (state_eq_some h).mp hs
  exact state_none_of_kind h (by rw [hd, hk]; exact hne.symm)

structure Turn (p q : NativePagePool) (first n : ℕ) : Prop where
  active : q.active = p.active
  reserve : q.kernelReserve = p.kernelReserve
  limit : q.userLimit = p.userLimit
  alike : Alike p.frames q.frames
  steps : FrameAllocator.Steps p.frames q.frames
  within : first + n ≤ p.frames.frameCount
  frame : ∀ j, ¬ (first ≤ j ∧ j < first + n) → q.frames.descriptors j = p.frames.descriptors j
  sound : ∀ i < n, Sound (q.frames.descriptors (first + i))
  tally : ∀ b, ∃ old new : Bool, (∀ i < n, b.holds (p.frames.descriptors (first + i)) = old) ∧
    (∀ i < n, b.holds (q.frames.descriptors (first + i)) = new) ∧ q.count b + n * old.toNat = p.count b + n * new.toNat

lemma Turn.one (ha : q.active = p.active) (hr : q.kernelReserve = p.kernelReserve) (hl : q.userLimit = p.userLimit)
    (halike : Alike p.frames q.frames) (hs : FrameAllocator.Steps p.frames q.frames) (hi : i < p.frames.frameCount)
    (hd : ∀ j, q.frames.descriptors j = if j = i then d else p.frames.descriptors j) (hsound : Sound d)
    (hc : ∀ b : Book, q.count b + (b.holds (p.frames.descriptors i)).toNat = p.count b + (b.holds d).toNat) : Turn p q i 1 := by
  have hself := (hd i).trans (if_pos rfl)
  refine ⟨ha, hr, hl, halike, hs, hi, fun j hj => ?_, fun k hk => ?_, fun b =>
    ⟨b.holds (p.frames.descriptors i), b.holds d, fun k hk => ?_, fun k hk => ?_, ?_⟩⟩
  · rw [hd, if_neg (by omega)]
  · rwa [Nat.lt_one_iff.mp hk, add_zero, hself]
  · rw [Nat.lt_one_iff.mp hk, add_zero]
  · rw [Nat.lt_one_iff.mp hk, add_zero, hself]
  · rw [one_mul, one_mul]
    exact hc b

lemma Turn.kept (t : Turn p q first n) (h : Kept p) (hu : q.userCount ≤ q.userLimit) (ho : q.objectCount ≤ q.kernelReserve) :
    Kept q := by
  refine ⟨t.active.trans h.active, t.steps.owned h.owned, t.alike.pageSize.trans h.pages, fun i hi => ?_, fun b => ?_, hu, ho⟩
  · by_cases hin : first ≤ i ∧ i < first + n
    · have := t.sound (i - first) (by omega)
      rwa [show first + (i - first) = i by omega] at this
    · rw [t.frame i hin]
      exact h.sound i (by rwa [← t.alike.frameCount])
  obtain ⟨old, new, hold, hnew, htally⟩ := t.tally b
  have hcount := countP_range_run (P := fun i => b.holds (p.frames.descriptors i))
    (Q := fun i => b.holds (q.frames.descriptors i)) t.within (fun j hj => by rw [t.frame j hj]) hold hnew
  have hp := h.counted b
  unfold countFrames at hp ⊢
  rw [t.alike.frameCount]
  omega

lemma Turn.state (t : Turn p q first n) (h : Kept p) (hg : ¬ (first ≤ g.index ∧ g.index < first + n)) :
    q.state g kind = p.state g kind :=
  state_of_eq h.active t.active t.alike (t.frame _ hg)

lemma Kept.le_count (h : Kept p) (b : Book) (first : ℕ) (hn : first + n ≤ p.frames.frameCount)
    (hb : ∀ i < n, b.holds (p.frames.descriptors (first + i)) = true) : n ≤ p.count b := by
  have hcount := countP_range_run (P := fun i => b.holds (p.frames.descriptors i))
    (Q := fun i => if first ≤ i ∧ i < first + n then false else b.holds (p.frames.descriptors i)) hn
    (fun j hj => if_neg hj) hb (fun i hi => show _ = false from if_pos ⟨by omega, by omega⟩)
  rw [h.counted b]
  unfold countFrames
  simp only [Bool.toNat_true, Bool.toNat_false] at hcount
  omega

section Frame

lemma Kept.frame (h : Kept p) (hs : p.state f kind = some d) : p.frames.live f = true ∧ f.index < p.frames.frameCount ∧
    p.frames.descriptors f.index = d ∧ d.kind = kind ∧ Sound d ∧ d.generation = f.generation := by
  obtain ⟨hl, hd, hk⟩ := (state_eq_some h.active).mp hs
  obtain ⟨-, hi, -, hg, -⟩ := live_iff.mp hl
  exact ⟨hl, hi, hd, hk, hd ▸ h.sound _ hi, hd ▸ hg⟩

lemma descriptors_describe : (p.describe f e).frames.descriptors j = if j = f.index then e else p.frames.descriptors j := by
  simp [describe, setDescriptor, Function.update_apply]

lemma state_of_ne (h : Kept p) (hq : Kept q) (t : Turn p q f.index 1) (hp : ∀ g ≠ f, g.index = f.index → p.frames.live g = false)
    (hq' : ∀ g ≠ f, g.index = f.index → q.frames.live g = false) : ∀ g ≠ f, ∀ kind, q.state g kind = p.state g kind := by
  intro g hg kind
  by_cases hgi : g.index = f.index
  · rw [state_none h.active (hp g hg hgi), state_none hq.active (hq' g hg hgi)]
  · exact t.state h (by omega)

lemma live_false_of_inj {a : FrameAllocator} (h : a.Owned) (hl : a.live f = true) :
    ∀ g ≠ f, g.index = f.index → a.live g = false := by
  intro g hg hgi
  rw [Bool.eq_false_iff]
  exact fun hlg => hg (h.live_inj hlg hl (.inl hgi))

lemma Kept.describe (h : Kept p) (hs : p.state f kind = some d) (hk : e.kind = d.kind) (hg : e.generation = d.generation)
    (he : Sound e) (hq : q = { p.describe f e with
      pinnedCount := q.pinnedCount, pendingCount := q.pendingCount, quarantinedCount := q.quarantinedCount })
    (ht : ∀ b, q.count b + (b.holds d).toNat = p.count b + (b.holds e).toNat) :
    Kept q ∧ Turn p q f.index 1 ∧ q.state f kind = some e ∧ ∀ g ≠ f, ∀ kind, q.state g kind = p.state g kind := by
  obtain ⟨hl, hi, hd, hkind, -, -⟩ := h.frame hs
  have hframes : q.frames = (p.describe f e).frames := by rw [hq]
  have hdesc (j) : q.frames.descriptors j = if j = f.index then e else p.frames.descriptors j := by
    rw [hframes, descriptors_describe]
  have halike : Alike p.frames q.frames := by
    rw [hframes]
    exact ⟨rfl, rfl, rfl, rfl⟩
  have hactive : q.active = p.active := by rw [hq]; rfl
  have turn : Turn p q f.index 1 := by
    refine .one hactive (by rw [hq]; rfl) (by rw [hq]; rfl) halike ?_ hi hdesc he fun b => hd ▸ ht b
    rw [hframes]
    exact .single (.describe f.index e (by rw [hd, hg]))
  have hkept : Kept q := by
    refine turn.kept h ?_ ?_
    · rw [hq]
      exact h.user
    · rw [hq]
      exact h.object
  have hgen (g : PhysicalFrame) : (q.frames.descriptors g.index).generation = (p.frames.descriptors g.index).generation := by
    rw [hdesc]
    split
    · next he' => rw [he', hd, hg]
    · rfl
  have hdead := live_false_of_inj h.owned hl
  refine ⟨hkept, turn, ?_, state_of_ne h hkept turn hdead fun g hgf hgi => (halike.live (hgen g)).trans (hdead g hgf hgi)⟩
  rw [state_eq_some hkept.active, halike.live (hgen f), hdesc, if_pos rfl]
  exact ⟨hl, rfl, hk.trans hkind⟩

variable {a : FrameAllocator}

lemma live_false_of_unused (h : a.Owned) (hu : a.used f.index = false) : a.live f = false := by
  rw [Bool.eq_false_iff]
  intro hl
  obtain ⟨-, hi, hn, hg, -⟩ := live_iff.mp hl
  have := (h.marked f.index hi).mpr (by rw [hg]; exact hn)
  simp [hu] at this

lemma blank_of_unused (h : a.Owned) (hs : Sound (a.descriptors i)) (hi : i < a.frameCount)
    (hu : a.used i = false) : a.descriptors i = {} := by
  apply hs.free
  by_contra hne
  have := (h.marked i hi).mpr hne
  simp [hu] at this

lemma holds_unused (h : a.Owned) (hs : Sound (a.descriptors i)) (hi : i < a.frameCount)
    (hu : a.used i = false) (b : Book) : b.holds (a.descriptors i) = false := by
  rw [blank_of_unused h hs hi hu]
  cases b <;> rfl

lemma takeRun_alike (first n : ℕ) : Alike a (a.takeRun first n) := by
  induction n with
  | zero => exact Alike.refl a
  | succ n ih =>
    rw [takeRun_succ]
    exact ih.trans ⟨rfl, rfl, rfl, rfl⟩

lemma freeRun_alike (first n : ℕ) : Alike a (a.freeRun first n) := by
  induction n with
  | zero => exact Alike.refl a
  | succ n ih =>
    rw [freeRun_succ]
    exact ih.trans ⟨rfl, rfl, rfl, rfl⟩

def newFrame (kind : PageKind) (generation : ℕ) : PageDescriptor :=
  { generation := generation, kind := kind, references := if kind = .nativeUser then 1 else 0 }

lemma Kept.acquire (h : Kept p) (hk : kind = .nativeUser ∨ kind = .nativeObject) :
    (∃ status, p.acquire kind = (.error status, p)) ∨
    ∃ f q, p.acquire kind = (.ok f, q) ∧ p.frames.used f.index = false ∧ Kept q ∧ Turn p q f.index 1 ∧
      q.state f kind = some (newFrame kind f.generation) ∧ (∀ g ≠ f, ∀ kind, q.state g kind = p.state g kind) ∧
      q.runs = p.runs ∧ q.objectCount = (if kind = .nativeUser then p.objectCount else p.objectCount + 1) ∧
      ∃ hint, q = ({ p with frames := { p.frames.take f.index with nextFreeHint := hint } } : NativePagePool).enter f
        { generation := p.frames.nextGeneration } kind := by
  unfold NativePagePool.acquire
  rw [if_neg (by simp [h.active])]
  split
  · exact .inl ⟨_, rfl⟩
  next hquota =>
  rcases h.owned.allocate_cases with ⟨status, he⟩ | ⟨i, hint, hi, hu, hg, he⟩
  · rw [he]
    exact .inl ⟨status, rfl⟩
  rw [he]
  dsimp only
  have hdesc : (p.frames.take i).descriptors i = { generation := p.frames.nextGeneration } := by
    rw [descriptors_take, if_pos rfl]
  set f := (p.frames.take i).handle i with hf
  have hfi : f.index = i := rfl
  have hfg : f.generation = p.frames.nextGeneration := by rw [hf, handle, hdesc]
  have hlive : ({ p.frames.take i with nextFreeHint := hint } : FrameAllocator).live f = true :=
    live_iff.mpr ⟨rfl, hi, by rw [hfg]; exact hg, rfl, rfl⟩
  have hfilter : (({ p.frames.take i with nextFreeHint := hint } : FrameAllocator).descriptor f).filter
      (fun d => d.kind = .unowned) = some { generation := p.frames.nextGeneration } := by
    rw [descriptor, exact_eq_live, hlive, if_pos rfl]
    exact Option.filter_eq_some_iff.mpr ⟨congrArg some hdesc, by simp⟩
  rw [hfilter]
  refine .inr ⟨f, _, rfl, hu, ?_⟩
  set q := ({ p with frames := { p.frames.take i with nextFreeHint := hint } } : NativePagePool).enter f
    { generation := p.frames.nextGeneration } kind with hq
  have hqdesc (j) : q.frames.descriptors j =
      if j = i then newFrame kind p.frames.nextGeneration else p.frames.descriptors j := by
    have : q.frames.descriptors j = if j = i then newFrame kind p.frames.nextGeneration else (p.frames.take i).descriptors j := by
      simp [hq, enter, NativePagePool.describe, setDescriptor, Function.update_apply, newFrame, hfi]
    rw [this, descriptors_take]
    split <;> rfl
  have turn : Turn p q f.index 1 := by
    refine .one rfl rfl rfl ⟨rfl, rfl, rfl, rfl⟩ ?_ hi hqdesc ?_ fun b => ?_
    · refine .tail (.tail (.single (.take i hi hu hg)) (.hint hint)) (.describe f.index _ ?_)
      exact (congrArg PageDescriptor.generation hdesc).symm
    · refine ⟨fun hk => ?_, fun hk => ?_, fun hz => absurd hz hg⟩
      · simp only [newFrame] at hk
        simp [newFrame, hk, hg, maxCount]
      · simp only [newFrame] at hk
        simp [newFrame, hk, hg]
    · rw [hfi, holds_unused h.owned (h.sound i hi) hi hu b]
      rcases hk with rfl | rfl <;> cases b <;> simp [hq, count, enter, NativePagePool.describe, Book.holds, newFrame]
  have hkept : Kept q := by
    refine turn.kept h ?_ ?_
    · have huser := h.user
      rcases hk with rfl | rfl
      · simp only [ge_iff_le, true_and, not_or, Nat.not_le] at hquota
        exact hquota.1
      · exact huser
    have hobject := h.object
    rcases hk with rfl | rfl
    · exact hobject
    · simp only [ge_iff_le, reduceCtorEq, false_and, false_or, ne_eq, not_false_eq_true, true_and, Nat.not_le] at hquota
      exact hquota
  have hqlive := live_iff.mpr ⟨rfl, hi, by rw [hfg]; exact hg, by rw [hqdesc, if_pos hfi, hfg]; rfl, rfl⟩
  refine ⟨hkept, turn, ?_, state_of_ne h hkept turn (fun g _ hgi => live_false_of_unused h.owned (by rw [hgi]; exact hu))
    (live_false_of_inj hkept.owned hqlive), rfl, ?_, hint, hq⟩
  · rw [state_eq_some hkept.active, hqdesc, if_pos hfi, hfg]
    exact ⟨hqlive, rfl, rfl⟩
  · rcases hk with rfl | rfl <;> rfl

lemma leave_count (hd : Sound d) (hk : d.kind = .nativeUser ∨ d.kind = .nativeObject)
    (hc : ∀ b : Book, b.holds d = true → 1 ≤ p.count b) (b : Book) :
    (({ p with frames := a } : NativePagePool).leave d).count b + (b.holds d).toNat = p.count b := by
  have hb := hc b
  rcases hk with hk | hk
  · have hquarantined := (hd.user hk).2.2.2.1
    cases b with
    | user => simp_all [Book.holds, count, leave]
    | object => simp [Book.holds, count, leave, hk]
    | pinned => by_cases hp : d.pins = 0 <;> simp_all [Book.holds, count, leave]
    | pending => cases hp : d.pending <;> simp_all [Book.holds, count, leave]
    | quarantined => simp [Book.holds, count, leave, hk, hquarantined]
  obtain ⟨-, -, hpins, hpending⟩ := hd.object hk
  cases b with
  | user => simp [Book.holds, count, leave, hk]
  | object => simp_all [Book.holds, count, leave]
  | pinned => simp [Book.holds, count, leave, hk, hpins]
  | pending => simp [Book.holds, count, leave, hk, hpending]
  | quarantined => cases hp : d.quarantined <;> simp_all [Book.holds, count, leave]

lemma Kept.releaseFrame (h : Kept p) (hs : p.state f kind = some d) (hk : kind = .nativeUser ∨ kind = .nativeObject) :
    ∃ q, p.releaseFrame f = (.ok (), q) ∧ Kept q ∧ Turn p q f.index 1 ∧ q.frames.live f = false ∧
      (∀ g ≠ f, ∀ kind, q.state g kind = p.state g kind) ∧ q.runs = p.runs ∧
      q.objectCount = (if kind = .nativeUser then p.objectCount else p.objectCount - 1) ∧
      (kind = .nativeObject → 0 < p.objectCount) := by
  obtain ⟨hl, hi, hd, hkind, hsound, hgen⟩ := h.frame hs
  obtain ⟨-, -, hn, hg, -⟩ := live_iff.mp hl
  have hu := (h.owned.marked _ hi).mpr (by rw [hg]; exact hn)
  have hgetD : (p.frames.descriptor f).getD {} = d := by
    rw [descriptor, exact_eq_live, hl, if_pos rfl]
    exact hd
  unfold NativePagePool.releaseFrame
  rw [hgetD]
  rcases p.frames.release_cases f with ⟨status, he⟩ | ⟨hint, -, -, -, he⟩
  · rw [FrameAllocator.release, FrameAllocator.exact_eq_live, hl, hu, if_neg (by simp)] at he
    cases congrArg Prod.fst he
  rw [he]
  refine ⟨_, rfl, ?_⟩
  set q := ({ p with frames := { p.frames.free f.index with nextFreeHint := hint } } : NativePagePool).leave d with hq
  have hqdesc (j) : q.frames.descriptors j = if j = f.index then {} else p.frames.descriptors j :=
    descriptors_drop
  have hcounted (b : Book) (hb : b.holds d = true) : 1 ≤ p.count b :=
    h.le_count b f.index (by omega) fun i hi' => by rw [show f.index + i = f.index by omega, hd]; exact hb
  have turn : Turn p q f.index 1 := by
    refine .one rfl rfl rfl ⟨rfl, rfl, rfl, rfl⟩ (.tail (.single (.free f.index hi hu)) (.hint hint)) hi hqdesc
      (Sound.other (by simp) (by simp) fun _ => rfl) fun b => ?_
    rw [hd, leave_count hsound (hkind.symm ▸ hk) hcounted b]
    cases b <;> rfl
  have hkept : Kept q := by
    refine turn.kept h (le_trans ?_ h.user) (le_trans ?_ h.object)
    · simp only [hq, leave]
      split <;> omega
    · simp only [hq, leave]
      split <;> omega
  have hqused : q.frames.used f.index = false := used_drop.trans (if_pos rfl)
  refine ⟨hkept, turn, live_false_of_unused hkept.owned hqused, state_of_ne h hkept turn (live_false_of_inj h.owned hl)
    fun g _ hgi => live_false_of_unused hkept.owned (by rw [hgi]; exact hqused), rfl, ?_, fun ho => ?_⟩
  · simp [hq, leave, hkind]
  · subst ho
    exact hcounted .object (by simp [Book.holds, hkind])

end Frame

section Runs

variable {pages alignment index address : ℕ}

lemma claimRun_succ : p.claimRun first (n + 1) =
    (p.claimRun first n).describe ((p.claimRun first n).frames.handle (first + n))
      { (p.claimRun first n).frames.descriptors (first + n) with kind := .nativeObject } := by
  simp [claimRun, range_succ]

lemma claimRun_spec (p : NativePagePool) (first n : ℕ) : ∃ a, p.claimRun first n = { p with frames := a } ∧
    Alike p.frames a ∧ FrameAllocator.Steps p.frames a ∧
    ∀ j, a.descriptors j = if first ≤ j ∧ j < first + n then { p.frames.descriptors j with kind := .nativeObject }
      else p.frames.descriptors j := by
  induction n with
  | zero => exact ⟨p.frames, rfl, Alike.refl _, .refl, fun j => by rw [if_neg (by omega)]⟩
  | succ n ih =>
  obtain ⟨a, he, halike, hsteps, hdesc⟩ := ih
  rw [claimRun_succ, he]
  refine ⟨_, rfl, halike.trans ⟨rfl, rfl, rfl, rfl⟩, hsteps.tail (.describe (first + n) _ rfl), fun j => ?_⟩
  simp only [setDescriptor, handle, Function.update_apply, hdesc]
  split
  · next hj =>
    subst hj
    rw [if_neg (show ¬ (first ≤ first + n ∧ first + n < first + n) by omega),
      if_pos (show first ≤ first + n ∧ first + n < first + (n + 1) by omega)]
  next hj =>
  by_cases hin : first ≤ j ∧ j < first + n
  · rw [if_pos hin, if_pos (by omega)]
  · rw [if_neg hin, if_neg (by omega)]

lemma Kept.drawRun (h : Kept p) (hg : p.frames.nextGeneration ≠ 0) (pages alignment : ℕ) :
    let r := if pages = 1 ∧ alignment ≤ pageSize then p.frames.allocateCharged p.runs
      else p.frames.allocateContiguous pages p.runs alignment
    (∃ status, r = (.error status, p.frames, p.runs)) ∨
    (∃ status, pages = 1 ∧ r = (.error status, p.frames, { p.runs with peak := max p.runs.peak (p.runs.used + 1) })) ∨
    ∃ first a, r = (.ok (a.handle first), a, { p.runs with
        used := p.runs.used + pages, peak := max p.runs.peak (p.runs.used + pages) }) ∧
      Alike p.frames a ∧ FrameAllocator.Steps p.frames a ∧
      (∀ i < pages, first + i < p.frames.frameCount ∧ p.frames.used (first + i) = false) ∧
      ∀ j, a.descriptors j = if first ≤ j ∧ j < first + pages then { generation := p.frames.nextGeneration + (j - first) }
        else p.frames.descriptors j := by
  intro r
  by_cases hone : pages = 1 ∧ alignment ≤ pageSize
  · have hr : r = p.frames.allocateCharged p.runs := if_pos hone
    obtain ⟨rfl, -⟩ := hone
    rw [hr]
    rcases allocateCharged_cases h.owned p.runs with ⟨status, he⟩ | ⟨status, -, hc, -, he⟩ | ⟨f, hf, hc, he⟩
    · exact .inl ⟨status, he⟩
    · refine .inr (.inl ⟨status, rfl, he.trans ?_⟩)
      rcases p.runs.charge_cases 1 with ⟨status', hce⟩ | hce
      · rw [hce] at hc
        cases hc
      · rw [hce]
        simp [ChargeAccount.uncharge]
    refine .inr (.inr ?_)
    rcases h.owned.allocate_cases with ⟨status, hal⟩ | ⟨i, hint, hi, hu, -, hal⟩
    · rw [hal] at hf
      cases hf
    rcases p.runs.charge_cases 1 with ⟨status', hce⟩ | hce
    · rw [hce] at hc
      cases hc
    rw [hal] at hf he
    cases hf
    rw [hce] at he
    refine ⟨i, { p.frames.take i with nextFreeHint := hint }, he, ⟨rfl, rfl, rfl, rfl⟩,
      .tail (.single (.take i hi hu hg)) (.hint hint), fun k hk => ?_, fun j => ?_⟩
    · rw [show i + k = i by omega]
      exact ⟨hi, hu⟩
    rw [descriptors_take]
    by_cases hj : j = i
    · subst hj
      rw [if_pos rfl, if_pos (by omega), Nat.sub_self, Nat.add_zero]
    · rw [if_neg hj, if_neg (by omega)]
  have hr : r = p.frames.allocateContiguous pages p.runs alignment := if_neg hone
  rw [hr]
  rcases h.owned.allocateContiguous_cases hg pages p.runs alignment with ⟨status, he⟩ | ⟨first, -, hfree, hlast, hc, he⟩
  · exact .inl ⟨status, he⟩
  refine .inr (.inr ⟨first, p.frames.takeRun first pages, ?_⟩)
  rcases p.runs.charge_cases pages with ⟨status', hce⟩ | hce
  · rw [hce] at hc
    cases congrArg Prod.fst hc
  rw [hce] at he
  obtain ⟨hsteps, -, -, -, hdesc⟩ := takeRun_spec hg hlast hfree
  exact ⟨he, takeRun_alike first pages, hsteps, hfree, hdesc⟩

lemma Kept.allocateObjectRun (h : Kept p) (hg : p.frames.nextGeneration ≠ 0) (pages alignment : ℕ) :
    (∃ status, p.allocateObjectRun pages alignment = (.error status, p)) ∨
    (∃ status, pages = 1 ∧ p.allocateObjectRun pages alignment =
      (.error status, { p with runs := { p.runs with peak := max p.runs.peak (p.runs.used + 1) } })) ∨
    ∃ address q first, p.allocateObjectRun pages alignment = (.ok address, q) ∧ Kept q ∧ Turn p q first pages ∧
      (∀ f, first ≤ f.index → f.index < first + pages → p.frames.live f = false ∧ q.state f .nativeUser = none) ∧
      q.runs.used = p.runs.used + pages ∧ q.objectCount = p.objectCount + pages ∧ q.identity = p.identity := by
  unfold NativePagePool.allocateObjectRun
  rw [if_neg (by simp [h.active])]
  split
  · exact .inl ⟨_, rfl⟩
  next hquota =>
  rcases h.drawRun hg pages alignment with ⟨status, he⟩ | ⟨status, rfl, he⟩ | ⟨first, a, he, halike, hsteps, hfree, hdesc⟩
  · rw [he]
    exact .inl ⟨status, rfl⟩
  · rw [he]
    exact .inr (.inl ⟨status, rfl, rfl⟩)
  rw [he]
  dsimp only
  have hpos : 0 < pages := by omega
  have hown (i) (hi : i < pages) : (a.descriptor (a.handle (first + i))).filter (fun d => d.kind = .unowned) =
      some { generation := p.frames.nextGeneration + i } := by
    have hd : a.descriptors (first + i) = { generation := p.frames.nextGeneration + i } := by
      rw [hdesc, if_pos (by omega), Nat.add_sub_cancel_left]
    have hlive : a.live (a.handle (first + i)) = true := by
      refine live_iff.mpr ⟨rfl, ?_, ?_, rfl, rfl⟩
      · rw [halike.frameCount]
        exact (hfree i hi).1
      show (a.descriptors (first + i)).generation ≠ 0
      rw [hd]
      show p.frames.nextGeneration + i ≠ 0
      omega
    rw [descriptor, exact_eq_live, hlive, if_pos rfl]
    exact Option.filter_eq_some_iff.mpr ⟨congrArg some hd, by simp⟩
  rw [if_neg]
  swap
  · simp only [any_eq_true, mem_range, not_exists, not_and]
    intro i hi
    rw [show (a.handle first).index + i = first + i from rfl, hown i hi]
    simp
  refine .inr (.inr ⟨_, _, first, rfl, ?_⟩)
  obtain ⟨b, hclaim, hb, hbsteps, hbdesc⟩ := claimRun_spec ({ p with
    frames := a
    runs := { p.runs with used := p.runs.used + pages, peak := max p.runs.peak (p.runs.used + pages) } } : NativePagePool)
    first pages
  rw [show (a.handle first).index = first from rfl, hclaim]
  set q : NativePagePool := { p with
    frames := b
    runs := { p.runs with used := p.runs.used + pages, peak := max p.runs.peak (p.runs.used + pages) }
    objectCount := p.objectCount + pages
    allocations := (p.allocations + pages) % u64
    peak := max p.peak (p.userCount + (p.objectCount + pages)) } with hq
  have hqdesc (i) (hi : i < pages) : b.descriptors (first + i) =
      { generation := p.frames.nextGeneration + i, kind := .nativeObject } := by
    rw [hbdesc, if_pos (by omega)]
    rw [hdesc, if_pos (by omega), Nat.add_sub_cancel_left]
  have hold (i) (hi : i < pages) (k : Book) : k.holds (p.frames.descriptors (first + i)) = false := by
    obtain ⟨hin, hu⟩ := hfree i hi
    exact holds_unused h.owned (h.sound _ hin) hin hu k
  have turn : Turn p q first pages := by
    refine ⟨rfl, rfl, rfl, halike.trans hb, hsteps.trans hbsteps, ?_, fun j hj => ?_, fun i hi => ?_,
      fun k => ⟨false, k.holds { kind := .nativeObject }, fun i hi => hold i hi k, fun i hi => ?_, ?_⟩⟩
    · have := (hfree (pages - 1) (by omega)).1
      omega
    · rw [hbdesc, if_neg hj]
      rw [hdesc, if_neg hj]
    · rw [hqdesc i hi]
      have hgen : p.frames.nextGeneration + i ≠ 0 := by omega
      exact ⟨fun hk => by simp at hk, fun _ => ⟨hgen, rfl, rfl, rfl⟩, fun hz => absurd hz hgen⟩
    · rw [hqdesc i hi]
      cases k <;> rfl
    · cases k <;> simp [hq, count, Book.holds]
  have hkept := turn.kept h h.user (by
    show p.objectCount + pages ≤ p.kernelReserve
    omega)
  refine ⟨hkept, turn, fun f hl hu => ⟨?_, ?_⟩, rfl, rfl, rfl⟩
  · refine live_false_of_unused h.owned ?_
    have := (hfree (f.index - first) (by omega)).2
    rwa [show first + (f.index - first) = f.index by omega] at this
  have hobj := hqdesc (f.index - first) (by omega)
  rw [show first + (f.index - first) = f.index by omega] at hobj
  exact state_none_of_kind hkept.active (by rw [show q.frames.descriptors f.index = _ from hobj]; simp)

lemma handleAt_ok {a : FrameAllocator} (h : a.handleAt i = .ok f) : i < a.frameCount ∧ f = a.handle i := by
  unfold handleAt at h
  split at h
  · cases h
  next hn =>
  cases h
  exact ⟨by omega, rfl⟩

lemma Kept.releaseObjectRun (h : Kept p) (address pages : ℕ) :
    (∃ status, p.releaseObjectRun address pages = (.error status, p)) ∨
    ∃ q first, p.releaseObjectRun address pages = (.ok (), q) ∧ Kept q ∧ Turn p q first pages ∧
      (∀ f, first ≤ f.index → f.index < first + pages → p.state f .nativeUser = none ∧ q.frames.live f = false) ∧
      q.runs.used + pages = p.runs.used ∧ q.objectCount + pages = p.objectCount ∧ q.identity = p.identity := by
  unfold NativePagePool.releaseObjectRun
  split
  · exact .inl ⟨_, rfl⟩
  next index hindex =>
  split
  · exact .inl ⟨_, rfl⟩
  next first hfirst =>
  split
  · exact .inl ⟨_, rfl⟩
  split
  · exact .inl ⟨_, rfl⟩
  next hany =>
  obtain ⟨-, rfl⟩ := handleAt_ok hfirst
  rcases h.owned.releaseContiguous_cases (p.frames.handle index) pages p.runs with
    ⟨status, he⟩ | ⟨hint, hpos, -, hle, hused, he⟩
  · rw [he]
    exact .inl ⟨status, rfl⟩
  rw [he]
  refine .inr ⟨_, index, rfl, ?_⟩
  have hused : ∀ i < pages, index + i < p.frames.frameCount ∧ p.frames.used (index + i) = true := hused
  have hobject (i) (hi : i < pages) : (p.frames.descriptors (index + i)).kind = .nativeObject ∧
      (p.frames.descriptors (index + i)).quarantined = false := by
    simp only [any_eq_true, mem_range, not_exists, not_and] at hany
    have hone := hany i hi
    split at hone
    · simp at hone
    next f hf =>
    obtain ⟨-, rfl⟩ := handleAt_ok hf
    simp only [Bool.or_eq_true, not_or, Bool.not_eq_true, Option.isNone_eq_false_iff, Option.isSome_iff_exists] at hone
    obtain ⟨⟨d, hd⟩, -⟩ := hone
    obtain ⟨hd, hq⟩ := Option.filter_eq_some_iff.mp hd
    obtain ⟨-, hdesc, hk⟩ := (state_eq_some h.active).mp hd
    have hdesc : p.frames.descriptors (index + i) = d := hdesc
    rw [hdesc]
    exact ⟨hk, by simpa using hq⟩
  obtain ⟨hsteps, hframes, hfree, hdesc⟩ := freeRun_spec hused
  have hcount : pages ≤ p.objectCount := h.le_count .object index
    (by have := (hused (pages - 1) (by omega)).1; omega) fun i hi => by simp [Book.holds, (hobject i hi).1]
  set q : NativePagePool := { p with
    frames := { p.frames.freeRun index pages with nextFreeHint := hint }
    runs := p.runs.uncharge pages
    objectCount := p.objectCount - pages
    releases := (p.releases + pages) % u64 } with hq
  have turn : Turn p q index pages := by
    refine ⟨rfl, rfl, rfl, (freeRun_alike index pages).trans ⟨rfl, rfl, rfl, rfl⟩, hsteps.tail (.hint hint), ?_,
      fun j hj => ?_, fun i hi => ?_,
      fun k => ⟨k.holds { kind := .nativeObject }, false, fun i hi => ?_, fun i hi => ?_, ?_⟩⟩
    · have := (hused (pages - 1) (by omega)).1
      omega
    · exact (hdesc j).trans (if_neg hj)
    · rw [show q.frames.descriptors (index + i) = {} from (hdesc _).trans (if_pos (by omega))]
      exact Sound.other (by simp) (by simp) fun _ => rfl
    · obtain ⟨hk, hn⟩ := hobject i hi
      cases k <;> simp [Book.holds, hk, hn]
    · rw [show q.frames.descriptors (index + i) = {} from (hdesc _).trans (if_pos (by omega))]
      cases k <;> rfl
    · cases k <;> simp [hq, count, Book.holds, hcount]
  have hkept := turn.kept h h.user ((Nat.sub_le _ _).trans h.object)
  refine ⟨hkept, turn, fun f hl hu => ⟨?_, ?_⟩, ?_, ?_, rfl⟩
  · have hobj := (hobject (f.index - index) (by omega)).1
    rw [show index + (f.index - index) = f.index by omega] at hobj
    exact state_none_of_kind h.active (by rw [hobj]; simp)
  · refine live_false_of_unused hkept.owned ?_
    show (p.frames.freeRun index pages).used f.index = false
    rw [hfree, decide_eq_true ⟨hl, hu⟩]
    rfl
  · rw [ChargeAccount.uncharge, if_neg (by omega)]
    dsimp only
    omega
  · show p.objectCount - pages + pages = _
    omega

structure Marked (p q : NativePagePool) : Prop where
  rest : q = { p with
    frames := { p.frames with descriptors := q.frames.descriptors }, quarantinedCount := q.quarantinedCount }
  frame : ∀ j, q.frames.descriptors j = p.frames.descriptors j ∨ (p.frames.descriptors j).kind = .nativeObject ∧
    q.frames.descriptors j = { p.frames.descriptors j with quarantined := true }

lemma Marked.refl (p : NativePagePool) : Marked p p := ⟨rfl, fun _ => .inl rfl⟩

lemma Marked.trans {r : NativePagePool} (h : Marked p q) (h' : Marked q r) : Marked p r := by
  refine ⟨?_, fun j => ?_⟩
  · rw [h'.rest, h.rest]
  rcases h.frame j with hj | ⟨hk, hj⟩
  · rw [← hj]
    exact h'.frame j
  rcases h'.frame j with hj' | ⟨-, hj'⟩
  · exact .inr ⟨hk, hj'.trans hj⟩
  · exact .inr ⟨hk, by rw [hj', hj]⟩

lemma Kept.quarantine (h : Kept p) (hs : p.state f .nativeObject = some d) :
    Kept (p.quarantine f d) ∧ FrameAllocator.Steps p.frames (p.quarantine f d).frames ∧ Marked p (p.quarantine f d) ∧
      ∀ g, (p.quarantine f d).state g .nativeUser = p.state g .nativeUser := by
  obtain ⟨hl, hi, hd, hk, hsound, -⟩ := h.frame hs
  have hsound' : Sound { d with quarantined := true } := ⟨fun hu => by simp [hk] at hu, fun ho => hsound.object hk,
    fun hz => absurd hz (hsound.object hk).1⟩
  obtain ⟨hkept, turn, hf, hne⟩ := h.describe (q := p.quarantine f d) (e := { d with quarantined := true }) hs rfl rfl
    hsound' rfl fun b => by
      cases b with
      | quarantined => cases hq : d.quarantined <;> simp [NativePagePool.quarantine, count, Book.holds, hk, hq]
      | _ => simp [NativePagePool.quarantine, NativePagePool.describe, count, Book.holds]
  refine ⟨hkept, turn.steps, ⟨rfl, fun j => ?_⟩, fun g => ?_⟩
  · have : (p.quarantine f d).frames.descriptors j = if j = f.index then { d with quarantined := true }
        else p.frames.descriptors j := descriptors_describe
    rw [this]
    split
    · next hj =>
      subst hj
      exact .inr ⟨hd ▸ hk, by rw [hd]⟩
    · exact .inl rfl
  by_cases hg : g = f
  · rw [hg, state_of_kind h.active hs (by simp), state_of_kind hkept.active hf (by simp)]
  · exact hne g hg _

lemma Kept.quarantineAt {r : Result Unit × NativePagePool} (h : Kept r.2) (index : ℕ) :
    Kept (quarantineAt r index).2 ∧
      FrameAllocator.Steps r.2.frames (quarantineAt r index).2.frames ∧
      Marked r.2 (quarantineAt r index).2 ∧
      ∀ g, (quarantineAt r index).2.state g .nativeUser = r.2.state g .nativeUser := by
  unfold NativePagePool.quarantineAt
  split
  · exact ⟨h, .refl, .refl _, fun _ => rfl⟩
  split
  · exact ⟨h, .refl, .refl _, fun _ => rfl⟩
  next hs => exact h.quarantine hs

lemma Kept.quarantineObjectRun (h : Kept p) (address pages : ℕ) : Kept (p.quarantineObjectRun address pages).2 ∧
      FrameAllocator.Steps p.frames (p.quarantineObjectRun address pages).2.frames ∧
      Marked p (p.quarantineObjectRun address pages).2 ∧
      ∀ g, (p.quarantineObjectRun address pages).2.state g .nativeUser = p.state g .nativeUser := by
  unfold NativePagePool.quarantineObjectRun
  split
  · exact ⟨h, .refl, .refl _, fun _ => rfl⟩
  next index _ =>
  induction pages with
  | zero => exact ⟨h, .refl, .refl _, fun _ => rfl⟩
  | succ n ih =>
  obtain ⟨hk, hs, hm, hu⟩ := ih
  rw [range_succ, foldl_append]
  obtain ⟨hk', hs', hm', hu'⟩ := hk.quarantineAt ((index + n) % u64)
  exact ⟨hk', hs.trans hs', hm.trans hm', fun g => (hu' g).trans (hu g)⟩

end Runs

end NativePagePool

end ObfuscationKernel.User
