import ObfuscationKernel.User.PagePoolState

/-! Runs of the native page pool: a user frame lives exactly as long as it has a reference or a pin. -/

namespace ObfuscationKernel.User

open ObfuscationKernel.Core Memory Function NativePagePool FrameAllocator

namespace NativePagePool

def held (p : NativePagePool) (f : PhysicalFrame) : Option (ℕ × ℕ) :=
  (p.state f .nativeUser).map fun d => (d.references, d.pins)

def settled (c : ℕ × ℕ) : Option (ℕ × ℕ) := if c = (0, 0) then none else some c

def otherAllocate (p : NativePagePool) (kind : PageKind) : Result PhysicalFrame × NativePagePool :=
  match p.frames.allocate with
  | (.error status, frames) => (.error status, { p with frames := frames })
  | (.ok f, frames) =>
    (.ok f, { p with frames := frames.setDescriptor f.index { frames.descriptors f.index with kind := kind } })

def otherRelease (p : NativePagePool) (f : PhysicalFrame) : Result Unit × NativePagePool :=
  ((p.frames.release f).1, { p with frames := (p.frames.release f).2 })

end NativePagePool

inductive Reply
  | done
  | address (address : ℕ)
  | frame (f : PhysicalFrame)
  | lease (lease : Lease)

inductive PoolOp
  | allocate
  | allocateFrame
  | allocateKernelPage
  | releaseKernelPage (lease : Lease)
  | quarantineKernelPage (lease : Lease)
  | allocateObjectRun (pages alignment : ℕ)
  | releaseObjectRun (address pages : ℕ)
  | quarantineObjectRun (address pages : ℕ)
  | markShared (f : PhysicalFrame)
  | retainShared (f : PhysicalFrame)
  | retainCopy (f : PhysicalFrame)
  | releaseReference (f : PhysicalFrame)
  | release (address : ℕ)
  | pin (f : PhysicalFrame)
  | pinAddress (address : ℕ)
  | unpin (f : PhysicalFrame)
  | unpinAddress (address : ℕ)
  | otherAllocate (kind : PageKind)
  | otherRelease (f : PhysicalFrame)

namespace PoolOp

open NativePagePool

def lease : PoolOp → Lease
  | releaseKernelPage lease => lease
  | quarantineKernelPage lease => lease
  | _ => {}

def call (p : NativePagePool) : PoolOp → Result Reply × NativePagePool × Lease
  | allocate => (p.allocate.1.map .address, p.allocate.2, {})
  | allocateFrame => (p.allocateFrame.1.map .frame, p.allocateFrame.2, {})
  | allocateKernelPage => (p.allocateKernelPage.1.map .lease, p.allocateKernelPage.2, {})
  | releaseKernelPage lease => (p.releaseKernelPage lease).map (·.map fun _ => .done) id
  | quarantineKernelPage lease => (p.quarantineKernelPage lease).map (·.map fun _ => .done) id
  | allocateObjectRun pages alignment =>
    ((p.allocateObjectRun pages alignment).1.map .address, (p.allocateObjectRun pages alignment).2, {})
  | releaseObjectRun address pages =>
    ((p.releaseObjectRun address pages).1.map fun _ => .done, (p.releaseObjectRun address pages).2, {})
  | quarantineObjectRun address pages =>
    ((p.quarantineObjectRun address pages).1.map fun _ => .done, (p.quarantineObjectRun address pages).2, {})
  | markShared f => ((p.markShared f).1.map fun _ => .done, (p.markShared f).2, {})
  | retainShared f => ((p.retainShared f).1.map fun _ => .done, (p.retainShared f).2, {})
  | retainCopy f => ((p.retainCopy f).1.map fun _ => .done, (p.retainCopy f).2, {})
  | releaseReference f => ((p.releaseReference f).1.map fun _ => .done, (p.releaseReference f).2, {})
  | release address => ((p.release address).1.map fun _ => .done, (p.release address).2, {})
  | pin f => ((p.pin f).1.map fun _ => .done, (p.pin f).2, {})
  | pinAddress address => ((p.pinAddress address).1.map fun _ => .done, (p.pinAddress address).2, {})
  | unpin f => ((p.unpin f).1.map fun _ => .done, (p.unpin f).2, {})
  | unpinAddress address => ((p.unpinAddress address).1.map fun _ => .done, (p.unpinAddress address).2, {})
  | otherAllocate kind => ((p.otherAllocate kind).1.map .frame, (p.otherAllocate kind).2, {})
  | otherRelease f => ((p.otherRelease f).1.map fun _ => .done, (p.otherRelease f).2, {})

def run (p : NativePagePool) (op : PoolOp) : NativePagePool := (op.call p).2.1

def runs (p : NativePagePool) (ops : List PoolOp) : NativePagePool := ops.foldl run p

/-- The generations are not used up when a run is asked for, and the other owners keep to their frames. -/
def Fits (p : NativePagePool) : PoolOp → Prop
  | allocateObjectRun _ _ => p.frames.nextGeneration ≠ 0
  | otherAllocate kind => kind ≠ .nativeUser ∧ kind ≠ .nativeObject
  | otherRelease f => (p.frames.descriptors f.index).kind ≠ .nativeUser ∧ (p.frames.descriptors f.index).kind ≠ .nativeObject
  | _ => True

def gained (p : NativePagePool) : PoolOp → Option PhysicalFrame
  | allocate => p.allocateFrame.1.toOption
  | allocateFrame => p.allocateFrame.1.toOption
  | _ => none

def subject (p : NativePagePool) : PoolOp → Option PhysicalFrame
  | retainShared f => some f
  | retainCopy f => some f
  | releaseReference f => some f
  | release address => p.findUser address
  | pin f => some f
  | pinAddress address => p.findUser address
  | unpin f => some f
  | unpinAddress address => p.findUser address
  | _ => none

def settle : PoolOp → ℕ × ℕ → ℕ × ℕ
  | retainShared _, c => (c.1 + 1, c.2)
  | retainCopy _, c => (c.1 + 1, c.2)
  | releaseReference _, c => (c.1 - 1, c.2)
  | release _, c => (c.1 - 1, c.2)
  | pin _, c => (c.1, c.2 + 1)
  | pinAddress _, c => (c.1, c.2 + 1)
  | unpin _, c => (c.1, c.2 - 1)
  | unpinAddress _, c => (c.1, c.2 - 1)
  | _, c => c

def expected (p : NativePagePool) (op : PoolOp) (g : PhysicalFrame) : Option (ℕ × ℕ) :=
  if op.gained p = some g then some (1, 0)
  else if (op.call p).1.isOk ∧ op.subject p = some g then (p.held g).bind fun c => settled (op.settle c)
  else p.held g

def leased (p : NativePagePool) (op : PoolOp) : ℤ :=
  match op with
  | allocateKernelPage => if (op.call p).1.isOk then 1 else 0
  | releaseKernelPage _ => if (op.call p).1.isOk then -1 else 0
  | _ => 0

def Spoilt (p q : NativePagePool) : PoolOp → Prop
  | quarantineObjectRun _ _ => Marked p q
  | allocateObjectRun pages _ =>
    pages = 1 ∧ q = { p with runs := { p.runs with peak := max p.runs.peak (p.runs.used + 1) } }
  | allocateKernelPage => p.frames.addressFor 0 = 0 ∧ q = { p with
      frames := { p.frames with nextFreeHint := 0, nextGeneration := (p.frames.nextGeneration + 1) % u64 }
      allocations := (p.allocations + 1) % u64, releases := (p.releases + 1) % u64
      peak := max p.peak (p.usedCount + 1) }
  | _ => False

def token : PoolOp → Option PhysicalFrame
  | releaseKernelPage lease => some lease.frame
  | quarantineKernelPage lease => some lease.frame
  | markShared f => some f
  | retainShared f => some f
  | retainCopy f => some f
  | releaseReference f => some f
  | pin f => some f
  | unpin f => some f
  | _ => none

end PoolOp

namespace NativePagePool

variable {p q : NativePagePool} {f g : PhysicalFrame} {d e : PageDescriptor} {c : ℕ × ℕ} {status : Status}

structure Served (p q : NativePagePool) (f : PhysicalFrame) (c c' : ℕ × ℕ) : Prop where
  kept : Kept q
  steps : FrameAllocator.Steps p.frames q.frames
  before : p.held f = some c
  after : q.held f = settled c'
  back : q.held f = none → q.frames.live f = false
  others : ∀ g ≠ f, q.held g = p.held g
  runs : q.runs = p.runs
  objects : q.objectCount = p.objectCount

structure Idle (p q : NativePagePool) : Prop where
  kept : Kept q
  steps : FrameAllocator.Steps p.frames q.frames
  held : ∀ g, q.held g = p.held g

def Serves (p : NativePagePool) (f : PhysicalFrame) (act : NativePagePool → PhysicalFrame → Result Unit × NativePagePool)
    (settle : ℕ × ℕ → ℕ × ℕ) : Prop :=
  (∃ status, act p f = (.error status, p)) ∨ ∃ q c, act p f = (.ok (), q) ∧ Served p q f c (settle c)

lemma held_eq_some (hs : p.state f .nativeUser = some d) : p.held f = some (d.references, d.pins) := by
  rw [held, hs]
  rfl

lemma Kept.userFrame (h : Kept p) (hs : p.state f .nativeUser = some d) : d.kind = .nativeUser ∧
    (d.references ≠ 0 ∨ d.pins ≠ 0) ∧ (d.pending = true ↔ d.references = 0) ∧ d.references ≤ maxCount ∧ d.pins ≤ maxCount := by
  obtain ⟨-, -, -, hk, hsound, -⟩ := h.frame hs
  obtain ⟨-, hu, hp, -, hr, hn⟩ := hsound.user hk
  exact ⟨hk, hu, hp, hr, hn⟩

lemma Kept.redescribe (h : Kept p) (hs : p.state f .nativeUser = some d) (hk : e.kind = d.kind)
    (hg : e.generation = d.generation) (hz : e.quarantined = d.quarantined) (hu : e.references ≠ 0 ∨ e.pins ≠ 0)
    (hp : e.pending = true ↔ e.references = 0) (hr : e.references ≤ maxCount) (hn : e.pins ≤ maxCount)
    (hq : q = { p.describe f e with
      pinnedCount := q.pinnedCount, pendingCount := q.pendingCount, quarantinedCount := q.quarantinedCount })
    (ht : ∀ b : Book, q.count b + (b.holds d).toNat = p.count b + (b.holds e).toNat) :
    Served p q f (d.references, d.pins) (e.references, e.pins) := by
  obtain ⟨-, -, -, hkind, hsound, -⟩ := h.frame hs
  obtain ⟨hgen, -, -, hquar, -⟩ := hsound.user hkind
  rw [← hg] at hgen
  have he : Sound e := ⟨fun _ => ⟨hgen, hu, hp, hz.trans hquar, hr, hn⟩,
    (nomatch (hk.trans hkind).symm.trans ·), fun h0 => absurd h0 hgen⟩
  obtain ⟨hkept, turn, hf, hne⟩ := h.describe hs hk hg he hq ht
  have hheld := held_eq_some hf
  refine ⟨hkept, turn.steps, held_eq_some hs, ?_, fun hn => by simp [hheld] at hn,
    fun g hg => by rw [held, held, hne g hg], by rw [hq]; rfl, by rw [hq]; rfl⟩
  rw [hheld, settled, if_neg]
  intro hzero
  rw [Prod.mk.injEq] at hzero
  omega

lemma Kept.giveBack (h : Kept p) (hs : p.state f .nativeUser = some d) :
    ∃ q, p.releaseFrame f = (.ok (), q) ∧ Served p q f (d.references, d.pins) (0, 0) := by
  obtain ⟨q, he, hkept, turn, hdead, hne, hruns, hobj, -⟩ := h.releaseFrame hs (.inl rfl)
  have hnone : q.held f = none := by rw [held, state_none hkept.active hdead, Option.map_none]
  exact ⟨q, he, hkept, turn.steps, held_eq_some hs, hnone, fun _ => hdead, fun g hg => by rw [held, held, hne g hg], hruns, hobj⟩

lemma Kept.retain (h : Kept p) (hs : p.state f .nativeUser = some d) (hr : d.references ≠ 0)
    (hm : d.references ≠ maxCount) :
    Served p (p.describe f { d with references := d.references + 1 }) f (d.references, d.pins) (d.references + 1, d.pins) := by
  obtain ⟨-, -, hpend, hle, hpins⟩ := h.userFrame hs
  refine h.redescribe (e := { d with references := d.references + 1 }) hs rfl rfl rfl (.inl (Nat.succ_ne_zero _)) ?_
    (Nat.lt_of_le_of_ne hle hm) hpins rfl fun b => by cases b <;> rfl
  simp only [Nat.succ_ne_zero, iff_false, Bool.not_eq_true]
  exact Bool.eq_false_iff.mpr fun hp => hr (hpend.mp hp)

lemma Kept.retainShared (h : Kept p) (f : PhysicalFrame) : Serves p f NativePagePool.retainShared fun c => (c.1 + 1, c.2) := by
  unfold Serves NativePagePool.retainShared
  split
  · exact .inl ⟨_, rfl⟩
  next d hd =>
  split
  · exact .inl ⟨_, rfl⟩
  next hm =>
  obtain ⟨hs, hc⟩ := Option.filter_eq_some_iff.mp hd
  simp only [Bool.and_eq_true, bne_iff_ne] at hc
  exact .inr ⟨_, _, rfl, h.retain hs hc.1.2 hm⟩

lemma Kept.retainCopy (h : Kept p) (f : PhysicalFrame) : Serves p f NativePagePool.retainCopy fun c => (c.1 + 1, c.2) := by
  unfold Serves NativePagePool.retainCopy
  split
  · exact .inl ⟨_, rfl⟩
  next d hd =>
  split
  · exact .inl ⟨_, rfl⟩
  next hm =>
  obtain ⟨hs, hc⟩ := Option.filter_eq_some_iff.mp hd
  simp only [Bool.and_eq_true, bne_iff_ne] at hc
  exact .inr ⟨_, _, rfl, h.retain hs hc.2 hm⟩

lemma Kept.markShared (h : Kept p) (f : PhysicalFrame) : Serves p f NativePagePool.markShared fun c => c := by
  unfold Serves NativePagePool.markShared
  split
  · exact .inl ⟨_, rfl⟩
  next d hd =>
  obtain ⟨hs, -⟩ := Option.filter_eq_some_iff.mp hd
  obtain ⟨-, hu, hpend, hle, hpins⟩ := h.userFrame hs
  exact .inr ⟨_, (d.references, d.pins), rfl, h.redescribe (e := { d with shared := true }) hs rfl rfl rfl hu hpend hle
    hpins rfl fun b => by cases b <;> rfl⟩

lemma Kept.releaseReference (h : Kept p) (f : PhysicalFrame) :
    Serves p f NativePagePool.releaseReference fun c => (c.1 - 1, c.2) := by
  unfold Serves NativePagePool.releaseReference
  split
  · exact .inl ⟨_, rfl⟩
  next d hd =>
  obtain ⟨hs, hr⟩ := Option.filter_eq_some_iff.mp hd
  simp only [bne_iff_ne] at hr
  obtain ⟨hk, -, hpend, hle, hpins⟩ := h.userFrame hs
  have hnp := Bool.eq_false_iff.mpr fun hp => hr (hpend.mp hp)
  by_cases hmany : d.references > 1
  · rw [if_pos hmany]
    refine .inr ⟨_, (d.references, d.pins), rfl, h.redescribe (e := { d with references := d.references - 1 }) hs rfl rfl rfl
      (.inl ?_) ?_ ((Nat.sub_le _ _).trans hle) hpins rfl fun b => by cases b <;> rfl⟩
    · dsimp only
      omega
    · simp only [hnp, Bool.false_eq_true, false_iff]
      omega
  rw [if_neg hmany]
  by_cases hp : d.pins = 0
  · rw [if_neg (by simpa using hp)]
    obtain ⟨q, he, hserved⟩ := h.giveBack hs
    refine .inr ⟨q, (d.references, d.pins), he, ?_⟩
    rw [show (fun c : ℕ × ℕ => (c.1 - 1, c.2)) (d.references, d.pins) = (0, 0) from Prod.ext (by dsimp only; omega) hp]
    exact hserved
  rw [if_pos hp]
  refine .inr ⟨_, (d.references, d.pins), rfl, ?_⟩
  rw [show (fun c : ℕ × ℕ => (c.1 - 1, c.2)) (d.references, d.pins) = (0, d.pins) from Prod.ext (by dsimp only; omega) rfl]
  refine h.redescribe (e := { d with references := 0, pending := true }) hs rfl rfl rfl (.inr hp) (by simp) (Nat.zero_le _)
    hpins rfl fun b => ?_
  cases b <;> simp [count, NativePagePool.describe, Book.holds, hk, hnp]

lemma Kept.pin (h : Kept p) (f : PhysicalFrame) : Serves p f NativePagePool.pin fun c => (c.1, c.2 + 1) := by
  unfold Serves NativePagePool.pin
  split
  · exact .inl ⟨_, rfl⟩
  next d hd =>
  obtain ⟨hs, hc⟩ := Option.filter_eq_some_iff.mp hd
  simp only [Bool.and_eq_true, bne_iff_ne] at hc
  obtain ⟨⟨hm, -⟩, -⟩ := hc
  obtain ⟨hk, -, hpend, hle, hpins⟩ := h.userFrame hs
  refine .inr ⟨_, (d.references, d.pins), rfl, h.redescribe (e := { d with pins := d.pins + 1 }) hs rfl rfl rfl
    (.inr (Nat.succ_ne_zero _)) hpend hle (Nat.lt_of_le_of_ne hpins hm) rfl fun b => ?_⟩
  by_cases hp : d.pins = 0 <;> cases b <;> simp [count, NativePagePool.describe, Book.holds, hk, hp]

lemma Kept.unpin (h : Kept p) (f : PhysicalFrame) : Serves p f NativePagePool.unpin fun c => (c.1, c.2 - 1) := by
  unfold Serves NativePagePool.unpin
  split
  · exact .inl ⟨_, rfl⟩
  next d hd =>
  obtain ⟨hs, hp⟩ := Option.filter_eq_some_iff.mp hd
  simp only [bne_iff_ne] at hp
  obtain ⟨-, hi, hdesc, -⟩ := h.frame hs
  obtain ⟨hk, -, hpend, hle, hpins⟩ := h.userFrame hs
  by_cases hlast : d.pins = 1 ∧ d.pending = true ∧ d.references = 0
  · rw [if_pos hlast]
    obtain ⟨q, he, hserved⟩ := h.giveBack hs
    refine .inr ⟨q, (d.references, d.pins), he, ?_⟩
    rw [show (fun c : ℕ × ℕ => (c.1, c.2 - 1)) (d.references, d.pins) = (0, 0) from
      Prod.ext hlast.2.2 (by dsimp only; omega)]
    exact hserved
  rw [if_neg hlast]
  have hcount : 1 ≤ p.count .pinned := h.le_count .pinned f.index (by omega) fun i hi' => by
    rw [show f.index + i = f.index by omega, hdesc]
    simp [Book.holds, hk, hp]
  refine .inr ⟨_, (d.references, d.pins), rfl, h.redescribe (e := { d with pins := d.pins - 1 }) hs rfl rfl rfl ?_ hpend hle
    ((Nat.sub_le _ _).trans hpins) rfl fun b => ?_⟩
  · by_contra hzero
    simp only [ne_eq, not_or, Decidable.not_not] at hzero
    exact hlast ⟨by omega, hpend.mpr hzero.1, hzero.1⟩
  have hcount : 1 ≤ p.pinnedCount := hcount
  by_cases h1 : d.pins = 1
  · cases b <;> simp [count, NativePagePool.describe, Book.holds, hk, h1]
    omega
  · cases b <;> simp [count, NativePagePool.describe, Book.holds, hk, h1, hp, show d.pins - 1 ≠ 0 by omega]

section Others

variable {i : ℕ}

variable {a : FrameAllocator}

lemma mark_mark (hu : a.used i = false) : ((a.mark i true).mark i false).bitmap = a.bitmap := by
  have hm : i % 64 < 64 := Nat.mod_lt _ (by decide)
  funext w
  refine BitVec.eq_of_getLsbD_eq fun k hk => ?_
  have hw : (w * 64 + k) / 64 = w := by omega
  have hk' : (w * 64 + k) % 64 = k := by omega
  have hbit (b : FrameAllocator) : (b.bitmap w).getLsbD k = b.used (w * 64 + k) := by rw [used, hw, hk']
  rw [hbit, hbit, used_mark, used_mark]
  split
  · next he => rw [he, hu]
  · rfl

lemma index_of_zero (h : a.Owned) (hi : i < a.frameCount) (h0 : a.addressFor i = 0) : i = 0 := by
  obtain ⟨runs, hl⟩ := h.layout
  by_contra hne
  have := hl.addressFor_add_le (Nat.pos_of_ne_zero hne) hi
  have := hl.pages
  omega

lemma enter_leave {hint generation generation' : ℕ} (hu : p.frames.used 0 = false) (hb : p.frames.descriptors 0 = {})
    (hf : f.index = 0) :
    let q := ({ p with frames := { p.frames.take 0 with nextFreeHint := hint } } : NativePagePool).enter f
      { generation := generation } .nativeObject
    ({ q with frames := { q.frames.drop 0 with
        usedCount := q.frames.usedCount - 1
        nextFreeHint := if 0 < q.frames.nextFreeHint then 0 else q.frames.nextFreeHint } } : NativePagePool).leave
        (newFrame .nativeObject generation') =
      { p with
        frames := { p.frames with nextFreeHint := 0, nextGeneration := (p.frames.nextGeneration + 1) % u64 }
        allocations := (p.allocations + 1) % u64, releases := (p.releases + 1) % u64
        peak := max p.peak (p.usedCount + 1) } := by
  intro q
  have hbits := mark_mark hu
  have hhint : (if 0 < hint then 0 else hint) = 0 := by split <;> omega
  have hdesc (d) : update (update p.frames.descriptors 0 d) 0 {} = p.frames.descriptors := by
    rw [update_idem, ← hb, update_eq_self]
  simp only [q, enter, leave, describe, newFrame, FrameAllocator.drop, FrameAllocator.take,
    FrameAllocator.setDescriptor, hf, mk.injEq, FrameAllocator.mk.injEq, usedCount]
  simp only [hhint, update_idem, and_true, true_and, reduceCtorEq, if_false, Nat.add_sub_cancel]
  exact ⟨⟨rfl, rfl, rfl, rfl, rfl, hbits, hdesc _, rfl⟩, by simp [Nat.add_assoc]⟩

lemma Kept.allocateKernelPage (h : Kept p) : (∃ status, p.allocateKernelPage = (.error status, p)) ∨
    (∃ status q, p.allocateKernelPage = (.error status, q) ∧ PoolOp.allocateKernelPage.Spoilt p q ∧ Idle p q) ∨
    ∃ lease q, p.allocateKernelPage = (.ok lease, q) ∧ Idle p q ∧ q.runs = p.runs ∧ q.objectCount = p.objectCount + 1 := by
  unfold NativePagePool.allocateKernelPage
  rcases h.acquire (.inr rfl) with ⟨status, he⟩ | ⟨f, q, he, hnew, hkept, turn, hf, hne, hruns, hobj, hint, hq⟩
  · rw [he]
    exact .inl ⟨status, rfl⟩
  rw [he]
  dsimp only
  have hheld (g) : q.held g = p.held g := by
    by_cases hg : g = f
    · rw [hg, held, held, state_of_kind hkept.active hf (by simp), state_none h.active (live_false_of_unused h.owned hnew)]
    · rw [held, held, hne g hg]
  obtain ⟨hl, hi, hdesc, -, -, -⟩ := hkept.frame hf
  obtain ⟨-, -, hn, hgen, haddr⟩ := live_iff.mp hl
  obtain ⟨layout, hlayout⟩ := hkept.owned.layout
  obtain ⟨hdvd, hlimit⟩ := hlayout.addressFor_page hi
  rw [hkept.pages, haddr] at hdvd hlimit
  by_cases hzero : f.address = 0
  · rw [if_pos (.inl hzero)]
    obtain ⟨r, hr, hkept', turn', hdead, hne', -⟩ := hkept.releaseFrame hf (.inr rfl)
    rw [hr]
    have h0 := index_of_zero hkept.owned hi (haddr.trans hzero)
    refine .inr (.inl ⟨_, r, rfl, ⟨?_, ?_⟩, ⟨hkept', turn.steps.trans turn'.steps, fun g => ?_⟩⟩)
    · have := haddr.trans hzero
      rwa [h0, turn.alike.addressFor] at this
    · have hused := (hkept.owned.marked _ hi).mpr (by rw [hgen]; exact hn)
      rw [NativePagePool.releaseFrame, FrameAllocator.descriptor, FrameAllocator.release, FrameAllocator.exact_eq_live, hl,
        hused, if_pos rfl, if_neg (by simp), hdesc] at hr
      have hr : _ = r := congrArg Prod.snd hr
      rw [← hr, hq, h0]
      exact enter_leave (h0 ▸ hnew) (blank_of_unused h.owned (h.sound _ (h0 ▸ turn.within)) (h0 ▸ turn.within) (h0 ▸ hnew)) h0
    rw [← hheld g]
    by_cases hg : g = f
    · rw [hg, held, held, state_none hkept'.active hdead, state_of_kind hkept.active hf (by simp)]
    · rw [held, held, hne' g hg]
  have hok : ¬ (f.address = 0 ∨ f.address % pageSize ≠ 0 ∨ f.address > addressLimit - (pageSize - 1)) := by
    rw [not_or, not_or]
    refine ⟨hzero, by simpa using Nat.mod_eq_zero_of_dvd hdvd, ?_⟩
    omega
  rw [if_neg hok]
  exact .inr (.inr ⟨_, q, rfl, ⟨hkept, turn.steps, hheld⟩, hruns, by simpa using hobj⟩)

lemma Kept.releaseKernelPage (h : Kept p) (lease : Lease) :
    (∃ status, p.releaseKernelPage lease = (.error status, p, lease)) ∨
    ∃ q, p.releaseKernelPage lease = (.ok (), q, {}) ∧ Idle p q ∧ q.runs = p.runs ∧ q.objectCount + 1 = p.objectCount := by
  unfold NativePagePool.releaseKernelPage
  split
  · exact .inl ⟨_, rfl⟩
  next hok =>
  simp only [not_or, Bool.not_eq_true, Bool.not_eq_false'] at hok
  obtain ⟨d, hd⟩ := Option.isSome_iff_exists.mp hok.2.1
  obtain ⟨q, he, hkept, turn, hdead, hne, hruns, hobj, hpos⟩ := h.releaseFrame hd (.inr rfl)
  rw [he]
  refine .inr ⟨q, rfl, ⟨hkept, turn.steps, fun g => ?_⟩, hruns, ?_⟩
  · by_cases hg : g = lease.frame
    · rw [hg, held, held, state_none hkept.active hdead, state_of_kind h.active hd (by simp)]
    · rw [held, held, hne g hg]
  have := hpos rfl
  rw [if_neg (by simp)] at hobj
  omega

lemma Kept.quarantineKernelPage (h : Kept p) (lease : Lease) :
    (∃ status, p.quarantineKernelPage lease = (.error status, p, lease)) ∨
    ∃ q, p.quarantineKernelPage lease = (.ok (), q, {}) ∧ Idle p q ∧ q.runs = p.runs ∧ q.objectCount = p.objectCount := by
  unfold NativePagePool.quarantineKernelPage
  split
  · exact .inl ⟨_, rfl⟩
  next d hd =>
  split at hd
  · obtain ⟨hkept, hsteps, hmarked, hstate⟩ := h.quarantine hd
    exact .inr ⟨_, rfl, ⟨hkept, hsteps, fun g => by rw [held, held, hstate]⟩, rfl, rfl⟩
  · cases hd

lemma Kept.otherAllocate (h : Kept p) {kind : PageKind} (hu : kind ≠ .nativeUser) (ho : kind ≠ .nativeObject) :
    (∃ status, p.otherAllocate kind = (.error status, p)) ∨
    ∃ f q, p.otherAllocate kind = (.ok f, q) ∧ Idle p q ∧ q.runs = p.runs ∧ q.objectCount = p.objectCount := by
  unfold NativePagePool.otherAllocate
  rcases h.owned.allocate_cases with ⟨status, he⟩ | ⟨i, hint, hi, hfree, hg, he⟩
  · rw [he]
    exact .inl ⟨status, rfl⟩
  rw [he]
  refine .inr ⟨_, _, rfl, ?_⟩
  have hdesc : (p.frames.take i).descriptors i = { generation := p.frames.nextGeneration } := by
    rw [descriptors_take, if_pos rfl]
  set a : FrameAllocator := { p.frames.take i with nextFreeHint := hint }
  set q : NativePagePool := { p with frames := a.setDescriptor i { a.descriptors i with kind := kind } } with hq
  have hqdesc (j) : q.frames.descriptors j =
      if j = i then { generation := p.frames.nextGeneration, kind := kind } else p.frames.descriptors j := by
    simp only [hq, setDescriptor, update_apply]
    split
    · next hj => rw [show a.descriptors i = _ from hdesc]
    · next hj => exact descriptors_take.trans (if_neg hj)
  have hother (b : Book) : b.holds { generation := p.frames.nextGeneration, kind := kind } = false := by
    cases b <;> simp [Book.holds, hu, ho]
  have turn : Turn p q i 1 := by
    refine .one rfl rfl rfl ⟨rfl, rfl, rfl, rfl⟩ (.tail (.tail (.single (.take i hi hfree hg)) (.hint hint)) (.describe i _ rfl))
      hi hqdesc (Sound.other hu ho fun hz => absurd hz hg) fun b => ?_
    rw [holds_unused h.owned (h.sound i hi) hi hfree b, hother b]
    cases b <;> rfl
  have hkept := turn.kept h h.user h.object
  refine ⟨⟨hkept, turn.steps, fun g => ?_⟩, rfl, rfl⟩
  show q.held g = p.held g
  by_cases hgi : g.index = i
  · have hnone := state_none_of_kind (f := g) hkept.active (by rw [hqdesc, if_pos hgi]; exact hu)
    rw [held, held, hnone, state_none h.active (live_false_of_unused h.owned (hgi ▸ hfree))]
  · rw [held, held, turn.state h (by omega)]

lemma Kept.otherRelease (h : Kept p) (hu : (p.frames.descriptors f.index).kind ≠ .nativeUser)
    (ho : (p.frames.descriptors f.index).kind ≠ .nativeObject) : (∃ status, p.otherRelease f = (.error status, p)) ∨
    ∃ q, p.otherRelease f = (.ok (), q) ∧ Idle p q ∧ q.runs = p.runs ∧ q.objectCount = p.objectCount := by
  unfold NativePagePool.otherRelease
  rcases p.frames.release_cases f with ⟨status, he⟩ | ⟨hint, hl, hi, hused, he⟩
  · rw [he]
    exact .inl ⟨status, rfl⟩
  rw [he]
  refine .inr ⟨_, rfl, ?_⟩
  set q : NativePagePool := { p with frames := { p.frames.free f.index with nextFreeHint := hint } }
  have hqdesc (j) : q.frames.descriptors j = if j = f.index then {} else p.frames.descriptors j :=
    descriptors_drop
  have turn : Turn p q f.index 1 := by
    refine .one rfl rfl rfl ⟨rfl, rfl, rfl, rfl⟩ (.tail (.single (.free f.index hi hused)) (.hint hint)) hi hqdesc
      (Sound.other (by simp) (by simp) fun _ => rfl) fun b => ?_
    cases b <;> simp [Book.holds, hu, ho] <;> rfl
  have hkept := turn.kept h h.user h.object
  refine ⟨⟨hkept, turn.steps, fun g => ?_⟩, rfl, rfl⟩
  by_cases hgi : g.index = f.index
  · have hnone := state_none_of_kind (f := g) h.active (hgi ▸ hu)
    have hqused : q.frames.used f.index = false := used_drop.trans (if_pos rfl)
    rw [held, held, hnone, state_none hkept.active (live_false_of_unused hkept.owned (hgi ▸ hqused))]
  · rw [held, held, turn.state h (by omega)]

end Others

end NativePagePool

namespace PoolOp

open NativePagePool

variable {p q : NativePagePool} {op : PoolOp} {f g : PhysicalFrame} {c : ℕ × ℕ}

structure Outcome (op : PoolOp) (p : NativePagePool) : Prop where
  kept : Kept (op.run p)
  steps : FrameAllocator.Steps p.frames (op.run p).frames
  held : ∀ g, (op.run p).held g = op.expected p g
  back : ∀ g, p.held g ≠ none → (op.run p).held g = none → (op.run p).frames.live g = false
  failed : ∀ status, (op.call p).1 = .error status → op.run p = p ∧ (op.call p).2.2 = op.lease ∨ op.Spoilt p (op.run p)
  charge : ((op.run p).objectCount : ℤ) - (op.run p).runs.used = p.objectCount - p.runs.used + op.leased p

lemma Outcome.error {s : Status} (h : Kept p) (he : op.call p = (.error s, p, op.lease)) (hg : op.gained p = none) :
    Outcome op p := by
  have hrun : op.run p = p := by rw [run, he]
  refine ⟨hrun.symm ▸ h, by rw [hrun], fun g => ?_, fun g hn hn' => absurd (hrun ▸ hn') hn, fun _ _ => .inl ⟨hrun, by rw [he]⟩, ?_⟩
  · rw [expected, hg, he, hrun]
    simp [Except.isOk, Except.toBool]
  have : op.leased p = 0 := by
    unfold leased
    split <;> simp [he, Except.isOk, Except.toBool]
  rw [hrun, this, add_zero]

lemma Outcome.same {r : Result Reply} {lease : Lease} (he : op.call p = (r, q, lease)) (hq : Idle p q)
    (hg : op.gained p = none) (hsub : op.subject p = none) (hf : ∀ status, r = .error status → op.Spoilt p q)
    (hc : (q.objectCount : ℤ) - q.runs.used = p.objectCount - p.runs.used + op.leased p) : Outcome op p := by
  obtain rfl : op.run p = q := by rw [run, he]
  refine ⟨hq.kept, hq.steps, fun g => ?_, fun g hn hn' => absurd (hq.held g ▸ hn') hn,
    fun status hst => .inr (hf status ((congrArg Prod.fst he).symm.trans hst)), hc⟩
  rw [expected, hg, hsub, hq.held]
  simp

lemma Outcome.quiet {r : Reply} (he : op.call p = (.ok r, q, {})) (hq : Idle p q) (hg : op.gained p = none)
    (hsub : op.subject p = none) (hc : (q.objectCount : ℤ) - q.runs.used = p.objectCount - p.runs.used)
    (hl : op.leased p = 0) : Outcome op p :=
  .same he hq hg hsub (fun _ h => nomatch h) (by rw [hc, hl, add_zero])

lemma Outcome.gained {reply : Reply} (h : Kept p) (hop : op = .allocate ∨ op = .allocateFrame)
    (ha : p.allocateFrame = (.ok f, q)) (hnew : p.frames.used f.index = false) (hkept : Kept q)
    (hsteps : FrameAllocator.Steps p.frames q.frames) (hf : q.state f .nativeUser = some (newFrame .nativeUser f.generation))
    (hne : ∀ g ≠ f, ∀ kind, q.state g kind = p.state g kind) (hruns : q.runs = p.runs) (hobj : q.objectCount = p.objectCount)
    (he : op.call p = (.ok reply, q, {})) : Outcome op p := by
  have hrun : op.run p = q := by rw [run, he]
  have hgain : op.gained p = some f := by
    rcases hop with rfl | rfl <;> simp only [PoolOp.gained, ha] <;> rfl
  have hsub : op.subject p = none := by rcases hop with rfl | rfl <;> rfl
  have hheld : q.held f = some (1, 0) := held_eq_some hf
  have hfresh : p.held f = none := by
    rw [NativePagePool.held, state_none h.active (live_false_of_unused h.owned hnew), Option.map_none]
  have hother (g) (hg : g ≠ f) : q.held g = p.held g := by rw [NativePagePool.held, NativePagePool.held, hne g hg]
  refine ⟨hrun.symm ▸ hkept, hrun.symm ▸ hsteps, fun g => ?_, fun g hn hn' => ?_, fun status hst => ?_, ?_⟩
  · rw [expected, hgain, hsub, hrun]
    by_cases hg : g = f
    · rw [if_pos (by rw [hg]), hg, hheld]
    · rw [if_neg (fun heq => hg (Option.some.inj heq).symm), if_neg (by simp), hother g hg]
  · rw [hrun] at hn'
    by_cases hg : g = f
    · exact absurd (hg ▸ hfresh) hn
    · rw [hother g hg] at hn'
      exact absurd hn' hn
  · rw [he] at hst
    cases hst
  · have : op.leased p = 0 := by rcases hop with rfl | rfl <;> rfl
    rw [hrun, hruns, hobj, this, add_zero]

variable (act : NativePagePool → PhysicalFrame → Result Unit × NativePagePool)

variable {ops next last : List PoolOp}

lemma runs_append : runs p (next ++ last) = runs (runs p next) last := List.foldl_append

end PoolOp

namespace NativePagePool

open PoolOp

variable {a : FrameAllocator}

def fresh (identity : ℕ) (a : FrameAllocator) : NativePagePool := { identity := identity, frames := a }

def start (identity : ℕ) (a : FrameAllocator) (source : Source) (kernelReserve userLimit : ℕ) : NativePagePool :=
  ((fresh identity a).activate a source kernelReserve userLimit).2

end NativePagePool

end ObfuscationKernel.User
