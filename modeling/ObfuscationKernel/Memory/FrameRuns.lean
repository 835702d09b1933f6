import ObfuscationKernel.Memory.FrameOwnership

/-! Runs of the frame allocator: the bitmap, the descriptors and the count agree in every reached
allocator, and a handle names one frame until it is released, and then none. -/

namespace ObfuscationKernel.Memory

open ObfuscationKernel.Core Library List

inductive FrameOp
  | allocate
  | allocateCharged (account : ChargeAccount)
  | allocateContiguous (count : ℕ) (account : ChargeAccount) (alignment : ℕ)
  | release (f : PhysicalFrame)
  | releaseCharged (f : PhysicalFrame) (account : ChargeAccount)
  | releaseContiguous (f : PhysicalFrame) (count : ℕ) (account : ChargeAccount)
  | reinitialize (regions : List MemoryRegion) (pageSize : ℕ) (metadata : Option ℕ)

namespace FrameOp

def account : FrameOp → ChargeAccount
  | allocateCharged account => account
  | allocateContiguous _ account _ => account
  | releaseCharged _ account => account
  | releaseContiguous _ _ account => account
  | _ => {}

def call (a : FrameAllocator) : FrameOp → Result (Option PhysicalFrame) × FrameAllocator × ChargeAccount
  | allocate => (a.allocate.1.map some, a.allocate.2, {})
  | allocateCharged account => (a.allocateCharged account).map (·.map some) id
  | allocateContiguous count account alignment => (a.allocateContiguous count account alignment).map (·.map some) id
  | release f => ((a.release f).1.map fun _ => none, (a.release f).2, {})
  | releaseCharged f account => (a.releaseCharged f account).map (·.map fun _ => none) id
  | releaseContiguous f count account => (a.releaseContiguous f count account).map (·.map fun _ => none) id
  | reinitialize regions pageSize metadata =>
    ((a.initializeFrames regions pageSize metadata).1.map fun _ => none, (a.initializeFrames regions pageSize metadata).2, {})

def run (a : FrameAllocator) (op : FrameOp) : FrameAllocator := (op.call a).2.1

def runs (a : FrameAllocator) (ops : List FrameOp) : FrameAllocator := ops.foldl run a

/-- The generations are not used up when a run is asked for, unless the call is refused at once. -/
def Numbered (a : FrameAllocator) : FrameOp → Prop
  | allocateContiguous count _ alignment => a.nextGeneration ≠ 0 ∨ a.frameCount = 0 ∨ count = 0 ∨
      alignment &&& (alignment - 1) ≠ 0 ∨ a.frameCount - a.usedCount < count
  | _ => True

/-- Beside that, a charged frame is not asked for when there is none and the charge would be the account's highest. -/
def Fits (a : FrameAllocator) : FrameOp → Prop
  | allocateCharged account => a.usedCount < a.frameCount ∧ a.nextGeneration ≠ 0 ∨ account.used < account.peak ∨
      (account.charge 1).1 ≠ .ok () ∨ a.frameCount = 0
  | op => op.Numbered a

def AllNumbered (a : FrameAllocator) : List FrameOp → Prop
  | [] => True
  | op :: ops => op.Numbered a ∧ AllNumbered (op.run a) ops

/-- The frames whose handles a successful call ends. -/
def Ends : FrameOp → ℕ → Prop
  | release f, i | releaseCharged f _, i => i = f.index
  | releaseContiguous f count _, i => f.index ≤ i ∧ i < f.index + count
  | reinitialize _ _ _, _ => True
  | _, _ => False

lemma runs_cons {a : FrameAllocator} {op : FrameOp} {ops : List FrameOp} : runs a (op :: ops) = runs (op.run a) ops := rfl

lemma runs_append {a : FrameAllocator} {ops next : List FrameOp} : runs a (ops ++ next) = runs (runs a ops) next :=
  foldl_append

lemma allNumbered_append {a : FrameAllocator} {ops next : List FrameOp} :
    AllNumbered a (ops ++ next) ↔ AllNumbered a ops ∧ AllNumbered (runs a ops) next := by
  induction ops generalizing a with
  | nil => simp [AllNumbered, runs]
  | cons op ops ih => simp [AllNumbered, ih, runs, and_assoc]

end FrameOp

lemma ChargeAccount.uncharge_charge {account : ChargeAccount} (hc : (account.charge 1).1 = .ok ())
    (hp : account.used < account.peak) : (account.charge 1).2.uncharge 1 = account := by
  rcases account.charge_cases 1 with ⟨status, he⟩ | he
  · rw [he] at hc
    cases hc
  · rw [he]
    simp [ChargeAccount.uncharge, Nat.max_eq_left (show account.used + 1 ≤ account.peak from hp)]

namespace FrameAllocator

open FrameOp (call run runs runs_append runs_cons AllNumbered allNumbered_append)

variable {a : FrameAllocator} {op : FrameOp} {ops : List FrameOp} {account : ChargeAccount} {f g : PhysicalFrame}

lemma allocateCharged_cases (h : a.Owned) (account : ChargeAccount) :
    (∃ status, a.allocateCharged account = (.error status, a, account)) ∨
    (∃ status, a.frameCount ≠ 0 ∧ (account.charge 1).1 = .ok () ∧ a.allocate = (.error status, a) ∧
      a.allocateCharged account = (.error status, a, (account.charge 1).2.uncharge 1)) ∨
    ∃ f, a.allocate.1 = .ok f ∧ (account.charge 1).1 = .ok () ∧
      a.allocateCharged account = (.ok f, a.allocate.2, (account.charge 1).2) := by
  unfold allocateCharged
  split
  · exact .inl ⟨_, rfl⟩
  next h0 =>
  rcases ChargeAccount.charge_cases account 1 with ⟨status, he⟩ | he
  · rw [he]
    exact .inl ⟨_, rfl⟩
  rw [he]
  rcases h.allocate_cases with ⟨status, ha⟩ | ⟨i, hint, -, -, -, ha⟩
  · rw [ha]
    exact .inr (.inl ⟨status, h0, rfl, rfl, rfl⟩)
  · rw [ha]
    exact .inr (.inr ⟨_, rfl, rfl, rfl⟩)

lemma Owned.allocate_steps (h : a.Owned) : Steps a a.allocate.2 := by
  rcases h.allocate_cases with ⟨status, he⟩ | ⟨i, hint, hi, hu, hg, he⟩
  · rw [he]
  · rw [he]
    exact .tail (.single (.take i hi hu hg)) (.hint hint)

lemma release_steps (a : FrameAllocator) (f : PhysicalFrame) : Steps a (a.release f).2 := by
  rcases a.release_cases f with ⟨status, he⟩ | ⟨hint, -, hi, hu, he⟩
  · rw [he]
  · rw [he]
    exact .tail (.single (.free f.index hi hu)) (.hint hint)

lemma releaseCharged_cases (a : FrameAllocator) (f : PhysicalFrame) (account : ChargeAccount) :
    (∃ status, a.releaseCharged f account = (.error status, a, account)) ∨
    (a.release f).1 = .ok () ∧ a.releaseCharged f account = (.ok (), (a.release f).2, account.uncharge 1) := by
  unfold releaseCharged
  split
  · exact .inl ⟨_, rfl⟩
  split
  · exact .inl ⟨_, rfl⟩
  rcases a.release_cases f with ⟨status, he⟩ | ⟨hint, -, -, -, he⟩
  · rw [he]
    exact .inl ⟨_, rfl⟩
  · rw [he]
    exact .inr ⟨rfl, rfl⟩

lemma initializeFrames_error {regions : List MemoryRegion} {pageSize : ℕ} {metadata : Option ℕ} {status : Status}
    (h : (a.initializeFrames regions pageSize metadata).1 = .error status) :
    (a.initializeFrames regions pageSize metadata).2 = a := by
  unfold initializeFrames at h ⊢
  split
  · rfl
  next hu =>
  rw [if_neg hu] at h
  split
  · rfl
  · rfl
  next hc hs =>
  rw [hc, hs] at h
  dsimp only at h
  split
  · rfl
  next hm =>
  rw [if_neg hm] at h
  cases h

lemma allocateContiguous_refused {count alignment : ℕ} (account : ChargeAccount)
    (h : a.frameCount = 0 ∨ count = 0 ∨ alignment &&& (alignment - 1) ≠ 0 ∨ a.frameCount - a.usedCount < count) :
    ∃ status, a.allocateContiguous count account alignment = (.error status, a, account) := by
  unfold allocateContiguous
  split_ifs with h0 hc hp hu
  · exact ⟨_, rfl⟩
  · exact ⟨_, rfl⟩
  · exact ⟨_, rfl⟩
  · exact ⟨_, rfl⟩
  · exact absurd h (by tauto)
  · exact absurd h (by tauto)

lemma not_live_of_generation (h : (a.descriptors f.index).generation = 0) : a.live f = false := by
  rw [Bool.eq_false_iff]
  intro hl
  obtain ⟨-, -, hn, hg, -⟩ := live_iff.mp hl
  exact hn (hg.symm.trans h)

lemma release_ends (h : (a.release f).1 = .ok ()) (he : g.index = f.index) : (a.release f).2.live g = false := by
  rcases a.release_cases f with ⟨status, hr⟩ | ⟨hint, -, -, -, hr⟩
  · rw [hr] at h
    cases h
  · rw [hr]
    refine not_live_of_generation ?_
    show ((a.drop f.index).descriptors g.index).generation = 0
    rw [descriptors_drop, if_pos he]

/-- A call that fails leaves the allocator alone, and the account as well if the call fits. -/
lemma Owned.call_cases (h : a.Owned) (hn : op.Numbered a) :
    (∃ status account, op.call a = (.error status, a, account) ∧ (op.Fits a → account = op.account)) ∨
    (∃ r, (op.call a).1 = .ok r) ∧ Steps a (op.run a) ∧ ∀ g, op.Ends g.index → (op.run a).live g = false := by
  cases op with
  | allocate =>
    rcases h.allocate_cases with ⟨status, he⟩ | ⟨i, hint, -, -, -, he⟩
    · exact .inl ⟨status, _, by simp only [call, he]; rfl, fun _ => rfl⟩
    · exact .inr ⟨⟨_, by simp only [call, he]; rfl⟩, h.allocate_steps, nofun⟩
  | allocateCharged account =>
    rcases allocateCharged_cases h account with ⟨status, he⟩ | ⟨status, h0, hc, hal, he⟩ | ⟨f, hal, hc, he⟩ <;>
      simp only [run, call, he]
    · exact .inl ⟨status, _, rfl, fun _ => rfl⟩
    · refine .inl ⟨status, _, rfl, fun hf => ?_⟩
      rcases hf with ⟨hlt, hg⟩ | hp | hn | hz
      · obtain ⟨f, hok⟩ := h.allocate_ok hlt hg
        rw [hal] at hok
        cases hok
      · exact ChargeAccount.uncharge_charge hc hp
      · exact absurd hc hn
      · exact absurd hz h0
    · exact .inr ⟨⟨_, rfl⟩, h.allocate_steps, nofun⟩
  | allocateContiguous count account alignment =>
    rcases hn with hg | hr
    · rcases h.allocateContiguous_cases hg count account alignment with ⟨status, he⟩ | ⟨first, hpos, hfree, hlast, -, he⟩ <;>
        simp only [run, call, he]
      · exact .inl ⟨status, _, rfl, fun _ => rfl⟩
      · exact .inr ⟨⟨_, rfl⟩, (takeRun_spec hg hlast hfree).1, nofun⟩
    · obtain ⟨status, he⟩ := allocateContiguous_refused account hr
      exact .inl ⟨status, _, by simp only [call, he]; rfl, fun _ => rfl⟩
  | release f =>
    rcases a.release_cases f with ⟨status, he⟩ | ⟨hint, -, -, -, he⟩
    · exact .inl ⟨status, _, by simp only [call, he]; rfl, fun _ => rfl⟩
    · exact .inr ⟨⟨_, by simp only [call, he]; rfl⟩, a.release_steps f, fun g => release_ends (by rw [he])⟩
  | releaseCharged f account =>
    rcases a.releaseCharged_cases f account with ⟨status, he⟩ | ⟨hok, he⟩ <;> simp only [run, call, he]
    · exact .inl ⟨status, _, rfl, fun _ => rfl⟩
    · exact .inr ⟨⟨_, rfl⟩, a.release_steps f, fun g => release_ends hok⟩
  | releaseContiguous f count account =>
    rcases h.releaseContiguous_cases f count account with ⟨status, he⟩ | ⟨hint, -, -, -, hused, he⟩ <;>
      simp only [run, call, he]
    · exact .inl ⟨status, _, rfl, fun _ => rfl⟩
    obtain ⟨hs, -, -, hdesc⟩ := freeRun_spec hused
    refine .inr ⟨⟨_, rfl⟩, .tail hs (.hint hint), fun g hg => not_live_of_generation ?_⟩
    show ((a.freeRun f.index count).descriptors g.index).generation = 0
    rw [hdesc, if_pos (show f.index ≤ g.index ∧ g.index < f.index + count from hg)]
  | reinitialize regions pageSize metadata =>
  cases hi : (a.initializeFrames regions pageSize metadata).1 with
  | error status => exact .inl ⟨status, _, by simp only [call, hi, initializeFrames_error hi]; rfl, fun _ => rfl⟩
  | ok u =>
    obtain ⟨-, frames, runs, -, -, -, he⟩ := initializeFrames_ok hi
    refine .inr ⟨⟨_, by simp only [call, hi]; rfl⟩, .single (.reset regions pageSize metadata hi), fun g _ => ?_⟩
    show (a.initializeFrames regions pageSize metadata).2.live g = false
    rw [he]
    exact not_live_of_generation rfl

lemma Owned.run_steps (h : a.Owned) (hn : op.Numbered a) : Steps a (op.run a) := by
  rcases h.call_cases hn with ⟨status, account, he, -⟩ | ⟨-, hs, -⟩
  · rw [run, he]
  · exact hs

lemma Owned.runs_steps (h : a.Owned) (hn : AllNumbered a ops) : Steps a (runs a ops) := by
  induction ops generalizing a with
  | nil => exact .refl
  | cons op ops ih =>
    have hs := h.run_steps hn.1
    exact hs.trans (ih (Steps.owned hs h) hn.2)

lemma fresh_owned (identity : ℕ) : (fresh identity).Owned := by
  refine ⟨by simp [fresh], rfl, by simp [fresh], fun i _ hi => ?_, by simp [fresh], ?_, [], rfl, rfl, ?_, by simp, by simp,
    by simp⟩
  · simp [fresh] at hi
  · simp [fresh, u64]
  · simp [fresh]

theorem frame_ownership (identity : ℕ) (ops : List FrameOp) (hn : FrameOp.AllNumbered (fresh identity) ops) :
    let a := FrameOp.runs (fresh identity) ops
    (a.usedCount = (range a.frameCount).countP a.used) ∧
    (∀ i < a.frameCount, a.used i = true ↔ (a.descriptors i).generation ≠ 0) ∧
    (∀ i, a.frameCount ≤ i → i < 64 * a.words → a.used i = true) ∧
    (∀ (op : FrameOp) (status : Status), op.Numbered a → (op.call a).1 = .error status →
      op.run a = a ∧ (op.Fits a → (op.call a).2.2 = op.account)) ∧
    (∀ f g, a.live f = true → a.live g = true → f.index = g.index ∨ f.address = g.address → f = g) ∧
    (∀ (op : FrameOp) (result : Option PhysicalFrame) (f : PhysicalFrame), op.Numbered a → (op.call a).1 = .ok result →
      op.Ends f.index → (op.run a).live f = false) ∧
    (∀ (f : PhysicalFrame) (next last : List FrameOp), a.live f = true → FrameOp.AllNumbered a (next ++ last) →
      (FrameOp.runs a next).live f = false → (FrameOp.runs a (next ++ last)).live f = false) := by
  intro a
  have h0 := fresh_owned identity
  have hs := h0.runs_steps hn
  have h := Steps.owned hs h0
  refine ⟨h.counted, h.marked, h.tail, fun op status hn he => ?_, fun f g hf hg he => h.live_inj hf hg he,
    fun op result f hn hok hends => ?_, fun f next last hf hall hdead => ?_⟩
  · rcases h.call_cases hn with ⟨st, account, hcall, hsame⟩ | ⟨⟨r, hok⟩, -⟩
    · exact ⟨by rw [run, hcall], fun hf => by rw [hcall]; exact hsame hf⟩
    · rw [hok] at he
      cases he
  · rcases h.call_cases hn with ⟨st, account, hcall, -⟩ | ⟨-, -, hdead⟩
    · rw [hcall] at hok
      cases hok
    · exact hdead f hends
  obtain ⟨hnext, hlast⟩ := allNumbered_append.mp hall
  have hs' := h.runs_steps hnext
  have h' := Steps.owned hs' h
  rcases Steps.live_or_dead hs' h hf with hl | hd
  · rw [hl] at hdead
    cases hdead
  · rw [runs_append]
    exact ((h'.runs_steps hlast).dead h' hd).not_live

def threeFrames : FrameOp := FrameOp.reinitialize [⟨4096, 8192, .usable⟩, ⟨20480, 4096, .usable⟩] 4096 (some 200)

def giveBack : FrameOp := FrameOp.releaseContiguous ⟨4096, 0, 7, 1⟩ 2 { used := 2 }

theorem frame_ownership_threeFrames : let a := FrameOp.runs (fresh 7) [threeFrames, .allocateContiguous 2 {} 0, .allocate]
    a.live ⟨8192, 1, 7, 2⟩ = true ∧ (giveBack.run a).live ⟨8192, 1, 7, 2⟩ = false ∧
      (FrameOp.runs a [giveBack, .allocate, .allocate]).live ⟨8192, 1, 7, 5⟩ = true ∧
      (FrameOp.runs a [giveBack, .allocate, .allocate]).live ⟨8192, 1, 7, 2⟩ = false := by
  have h := frame_ownership 7 [threeFrames, .allocateContiguous 2 {} 0, .allocate]
    ⟨trivial, .inl (by decide +kernel), trivial, trivial⟩
  have hdead := h.2.2.2.2.2.1 giveBack none ⟨8192, 1, 7, 2⟩ trivial (by decide +kernel) ⟨by decide, by decide⟩
  exact ⟨by decide +kernel, hdead, by decide +kernel, h.2.2.2.2.2.2 ⟨8192, 1, 7, 2⟩ [giveBack] [.allocate, .allocate]
    (by decide +kernel) ⟨trivial, trivial, trivial, trivial⟩ hdead⟩

theorem allocate_complete (identity : ℕ) (ops : List FrameOp) (hn : FrameOp.AllNumbered (fresh identity) ops) :
    let a := FrameOp.runs (fresh identity) ops
    (∃ f, a.allocate.1 = .ok f) ↔ a.nextGeneration ≠ 0 ∧ ∃ i < a.frameCount, a.used i = false := by
  intro a
  have h : a.Owned := Steps.owned ((fresh_owned identity).runs_steps hn) (fresh_owned identity)
  refine ⟨fun ⟨f, hf⟩ => ?_, fun ⟨hg, i, hi, hu⟩ => h.allocate_ok ?_ hg⟩
  · rcases h.allocate_cases with ⟨status, he⟩ | ⟨i, -, hi, hu, hg, -⟩
    · rw [he] at hf
      cases hf
    · exact ⟨hg, i, hi, hu⟩
  rw [h.counted]
  exact (countP_lt_length_iff.mpr ⟨i, mem_range.mpr hi, by simp [hu]⟩).trans_eq length_range

def wordAndTwo : List FrameOp :=
  [ FrameOp.reinitialize [⟨4096, 66 * 4096, .usable⟩] 4096 (some 2000), .allocate, .allocateContiguous 64 {} 0]

/-- The first word of the bitmap is full, so the search goes on from the hint to the second one. -/
theorem allocate_complete_lastFrame : (FrameOp.runs (fresh 7) wordAndTwo).nextFreeHint = 1 ∧
    (FrameOp.runs (fresh 7) wordAndTwo).usedCount = 65 ∧ ∃ f, (FrameOp.runs (fresh 7) wordAndTwo).allocate.1 = .ok f :=
  ⟨by decide +kernel, by decide +kernel,
    (allocate_complete 7 wordAndTwo ⟨trivial, trivial, .inl (by decide +kernel), trivial⟩).mpr
      ⟨by decide +kernel, 65, by decide +kernel, by decide +kernel⟩⟩

def oneFrame : FrameOp := FrameOp.reinitialize [⟨4096, 4096, .usable⟩] 4096 (some 64)

def single (g : ℕ) : FrameAllocator := { (fresh 7).reset 4096 1 [⟨4096, 1⟩] with nextGeneration := g }

lemma run_oneFrame : oneFrame.run (fresh 7) = single 1 := by
  have hs : sweepUsable [⟨4096, 4096, .usable⟩] 4096 = .ok [⟨4096, 1⟩] := by decide +kernel
  have hc : countUsable [⟨4096, 4096, .usable⟩] 4096 = .ok (1, 1) := by decide +kernel
  simp only [oneFrame, run, call, initializeFrames, hs, hc]
  rfl

def singleUsed (g : ℕ) : FrameAllocator := { (single g).take 0 with nextFreeHint := 0 }

lemma single_addressFor (g : ℕ) : (single g).addressFor 0 = 4096 ∧ (singleUsed g).addressFor 0 = 4096 := by
  have hr (a : FrameAllocator) (hr : a.ranges = [⟨4096, 0, 1⟩]) : a.addressFor 0 = 4096 := by
    simp [addressFor, rangeAt, hr, bisect, bisectIn]
  exact ⟨hr _ rfl, hr _ rfl⟩

lemma single_allocate {g : ℕ} (h0 : g ≠ 0) : (single g).allocate = (.ok ⟨4096, 0, 7, g⟩, singleUsed g) := by
  have hw : (single g).freeWord = some 0 := show (single 1).freeWord = some 0 by decide +kernel
  have hb : lowestClearBit ((single g).bitmap 0) = 0 := show lowestClearBit ((single 1).bitmap 0) = 0 by decide +kernel
  have hh : ((single g).take 0).handle 0 = ⟨4096, 0, 7, g⟩ := by
    rw [handle, descriptors_take, if_pos rfl]
    exact congrArg (fun address => PhysicalFrame.mk address 0 7 g) (single_addressFor g).2
  unfold allocate
  have hcount : (single g).frameCount = 1 ∧ (single g).usedCount = 0 ∧ (single g).nextGeneration = g := ⟨rfl, rfl, rfl⟩
  rw [hcount.1, hcount.2.1, hcount.2.2, if_neg (by decide), if_neg (by decide), if_neg h0, hw]
  simp only [hb, Nat.zero_mul, Nat.zero_add, hh]
  rfl

lemma singleUsed_release {g : ℕ} (h0 : g ≠ 0) : ((singleUsed g).release ⟨4096, 0, 7, g⟩).2 = single ((g + 1) % u64) := by
  have hex : (singleUsed g).exact ⟨4096, 0, 7, g⟩ = true := by
    rw [exact_eq_live]
    refine live_iff.mpr ⟨rfl, Nat.zero_lt_one, h0, ?_, (single_addressFor g).2⟩
    show (((single g).take 0).descriptors 0).generation = g
    rw [descriptors_take]
    rfl
  have hu : (singleUsed g).used 0 = true := used_take
  rw [release, if_neg (by simp [hex, hu])]
  simp only [singleUsed, drop, take, mark, setDescriptor, single, reset, fresh, FrameAllocator.mk.injEq, true_and]
  refine ⟨rfl, ?_, ?_, trivial⟩
  · funext w
    rcases eq_or_ne w 0 with rfl | hw
    · simp
    · simp [hw]
  funext w
  rcases eq_or_ne w 0 with rfl | hw
  · simp
  · simp [hw]

def churn (n : ℕ) : List FrameOp := (List.range n).flatMap fun g => [.allocate, .release ⟨4096, 0, 7, g + 1⟩]

lemma runs_churn {n : ℕ} (hn : n < u64) : runs (single 1) (churn n) = single ((n + 1) % u64) := by
  induction n with
  | zero => rfl
  | succ n ih =>
  rw [churn, range_succ, flatMap_append, runs_append]
  have ih := ih (by omega)
  rw [churn] at ih
  rw [ih, Nat.mod_eq_of_lt (by omega)]
  simp only [flatMap_cons, flatMap_nil, append_nil, runs, foldl_cons, foldl_nil, run,
    call, single_allocate (Nat.succ_ne_zero n), singleUsed_release (Nat.succ_ne_zero n)]

/-- A charge that is taken back leaves its mark on the account, and after the last generation a run is
handed out with generation 0: a frame in use that no handle names. -/
theorem frame_ownership_broken : (let a := FrameOp.runs (fresh 7) [oneFrame, .allocate]
     (∃ status, ((FrameOp.allocateCharged {}).call a).1 = .error status) ∧ ((FrameOp.allocateCharged {}).call a).2.2 ≠ {}) ∧
    (let a := FrameOp.runs (fresh 7) (oneFrame :: churn (u64 - 1) ++ [.allocateContiguous 1 {} 0])
     a.used 0 = true ∧ (a.descriptors 0).generation = 0) := by
  refine ⟨⟨⟨.noMemory "physical frame allocator exhausted", by decide +kernel⟩, by decide +kernel⟩, ?_⟩
  have hrun : runs (fresh 7) (oneFrame :: churn (u64 - 1) ++ [.allocateContiguous 1 {} 0]) =
      run (single 0) (.allocateContiguous 1 {} 0) := by
    rw [cons_append, runs_cons, run_oneFrame, runs_append, runs_churn (by decide)]
    rfl
  rw [hrun]
  exact ⟨by decide +kernel, by decide +kernel⟩

end FrameAllocator

end ObfuscationKernel.Memory
