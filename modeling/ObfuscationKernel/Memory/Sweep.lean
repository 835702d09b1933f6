import ObfuscationKernel.Core.Status
import Mathlib.Tactic

/-! The sweep that turns a list of memory regions into runs of usable pages. -/

namespace ObfuscationKernel.Memory

open ObfuscationKernel.Core List

inductive RegionType
  | usable | reserved | deviceMmio | kernelImage
  deriving DecidableEq, Repr

structure MemoryRegion where
  base : ℕ
  size : ℕ
  type : RegionType := .reserved
  deriving DecidableEq, Repr

def addressLimit : ℕ := 2 ^ 64 - 1

structure Run where
  base : ℕ
  count : ℕ
  deriving DecidableEq, Repr

namespace MemoryRegion

def covers (r : MemoryRegion) (cursor : ℕ) : Bool := r.size != 0 && decide (r.base ≤ cursor) && decide (cursor < r.base + r.size)

def boundaries (regions : List MemoryRegion) : List ℕ :=
  regions.flatMap fun r => if r.size = 0 then [] else [r.base, r.base + r.size]

end MemoryRegion

def nextBoundary (bs : List ℕ) (cursor : ℕ) : Option ℕ :=
  bs.foldl (fun next b => if b > cursor ∧ next.all (fun n => decide (b < n)) then some b else next) none

def appendRun (pageSize : ℕ) (runs : List Run) (start stop : ℕ) : List Run :=
  let adjustment := (pageSize - start % pageSize) % pageSize
  if adjustment ≥ stop - start then runs
  else
    let start := start + adjustment
    let stop := stop - stop % pageSize
    if stop ≤ start then runs else runs ++ [⟨start, (stop - start) / pageSize⟩]

def closeRun (pageSize : ℕ) (runs : List Run) (run : Option ℕ) (cursor : ℕ) : List Run :=
  match run with
  | some start => appendRun pageSize runs start cursor
  | none => runs

/-- The sweep from `cursor` on, inside a usable run since `run`; none if `fuel` boundaries do not suffice. -/
def sweepFrom (regions : List MemoryRegion) (pageSize : ℕ) : ℕ → ℕ → Option ℕ → List Run → Option (List Run)
  | 0, _, _, _ => none
  | fuel + 1, cursor, run, runs =>
    match nextBoundary (MemoryRegion.boundaries regions) cursor with
    | none => some (closeRun pageSize runs run cursor)
    | some next =>
      if (regions.any fun r => r.covers cursor && r.type == .usable) &&
          !(regions.any fun r => r.covers cursor && r.type != .usable) then
        sweepFrom regions pageSize fuel next (some (run.getD cursor)) runs
      else
        sweepFrom regions pageSize fuel next none (closeRun pageSize runs run cursor)

def sweepStart (regions : List MemoryRegion) : ℕ :=
  regions.foldl (fun cursor r => if r.size ≠ 0 ∧ r.base < cursor then r.base else cursor) addressLimit

def isPowerOfTwo (n : ℕ) : Bool := n != 0 && n &&& (n - 1) == 0

def sweepUsable (regions : List MemoryRegion) (pageSize : ℕ) : Result (List Run) :=
  if !isPowerOfTwo pageSize then .error (.invalidArgument "page size must be a power of two")
  else if regions.any fun r => decide (r.size > addressLimit - r.base) then
    .error (.overflow "physical memory region wraps the address space")
  else .ok ((sweepFrom regions pageSize (2 * regions.length + 1) (sweepStart regions) none []).getD [])

def countUsable (regions : List MemoryRegion) (pageSize : ℕ) : Result (ℕ × ℕ) := do
  let runs ← sweepUsable regions pageSize
  let (frames, ranges) ← runs.foldlM (fun (totals : ℕ × ℕ) run =>
    if run.count > addressLimit - totals.1 then .error (.overflow "physical frame count overflows")
    else .ok (totals.1 + run.count, totals.2 + 1)) (0, 0)
  if frames = 0 then .error (.noMemory "no complete usable physical frames")
  else if frames > (addressLimit - 8) / 17 ∨ ranges > addressLimit / 24 / 2 then
    .error (.overflow "frame metadata size overflows")
  else .ok (frames, ranges)

structure Runs (pageSize bound : ℕ) (runs : List Run) : Prop where
  ordered : runs.Pairwise fun r s => r.base + r.count * pageSize ≤ s.base
  bounded : ∀ r ∈ runs, r.base + r.count * pageSize ≤ bound
  aligned : ∀ r ∈ runs, pageSize ∣ r.base ∧ 0 < r.count

section

variable {bs : List ℕ} {cursor next : ℕ}

lemma nextBoundary_concat (b : ℕ) : nextBoundary (bs ++ [b]) cursor =
    if b > cursor ∧ (nextBoundary bs cursor).all (fun n => decide (b < n)) then some b else nextBoundary bs cursor := by
  simp [nextBoundary]

lemma nextBoundary_mem (h : nextBoundary bs cursor = some next) : next ∈ bs ∧ cursor < next := by
  induction bs using reverseRecOn with
  | nil => simp [nextBoundary] at h
  | append_singleton bs b ih =>
  rw [nextBoundary_concat] at h
  split at h
  · next hb =>
    cases h
    exact ⟨by simp, hb.1⟩
  · exact ⟨by simp [(ih h).1], (ih h).2⟩

lemma countP_nextBoundary (h : nextBoundary bs cursor = some next) :
    bs.countP (fun b => decide (next < b)) < bs.countP fun b => decide (cursor < b) := by
  obtain ⟨hm, hlt⟩ := nextBoundary_mem h
  clear h
  induction bs with
  | nil => simp at hm
  | cons b bs ih =>
  have hle : bs.countP (fun b => decide (next < b)) ≤ bs.countP fun b => decide (cursor < b) :=
    countP_mono_left fun b _ hb => by
      simp only [decide_eq_true_eq] at hb ⊢
      omega
  rw [countP_cons, countP_cons]
  rcases mem_cons.mp hm with rfl | hm
  · simp [hlt]
    omega
  have := ih hm
  split <;> split <;> simp_all
  omega

end

variable {regions : List MemoryRegion} {pageSize bound : ℕ} {runs : List Run}

lemma length_boundaries (regions : List MemoryRegion) : (MemoryRegion.boundaries regions).length ≤ 2 * regions.length := by
  induction regions with
  | nil => simp [MemoryRegion.boundaries]
  | cons r rs ih =>
    simp only [MemoryRegion.boundaries, flatMap_cons, length_append, length_cons] at ih ⊢
    split <;> simp only [length_nil, length_cons] <;> omega

lemma sweepFrom_some (regions : List MemoryRegion) (pageSize fuel cursor : ℕ) (run : Option ℕ) (runs : List Run)
    (hf : (MemoryRegion.boundaries regions).countP (fun b => decide (cursor < b)) < fuel) :
    ∃ out, sweepFrom regions pageSize fuel cursor run runs = some out := by
  induction fuel generalizing cursor run runs with
  | zero => omega
  | succ fuel ih =>
  rw [sweepFrom]
  cases hn : nextBoundary (MemoryRegion.boundaries regions) cursor with
  | none => exact ⟨_, rfl⟩
  | some next =>
  have hlt := countP_nextBoundary hn
  dsimp only
  split
  · exact ih _ _ _ (by omega)
  · exact ih _ _ _ (by omega)

lemma Runs.mono (h : Runs pageSize bound runs) {bound' : ℕ} (hb : bound ≤ bound') : Runs pageSize bound' runs :=
  ⟨h.ordered, fun r hr => (h.bounded r hr).trans hb, h.aligned⟩

lemma dvd_roundUp (hp : 0 < pageSize) (start : ℕ) : pageSize ∣ start + (pageSize - start % pageSize) % pageSize := by
  have hm := Nat.mod_lt start hp
  rw [Nat.dvd_iff_mod_eq_zero, Nat.add_mod, Nat.mod_mod]
  rcases Nat.eq_zero_or_pos (start % pageSize) with h0 | h0
  · simp [h0]
  · rw [Nat.mod_eq_of_lt (show pageSize - start % pageSize < pageSize by omega),
      show start % pageSize + (pageSize - start % pageSize) = pageSize by omega, Nat.mod_self]

lemma Runs.appendRun {start stop : ℕ} (h : Runs pageSize start runs) (hp : 0 < pageSize) (hs : start ≤ stop) :
    Runs pageSize stop (appendRun pageSize runs start stop) := by
  unfold Memory.appendRun
  dsimp only
  split
  · exact h.mono hs
  next hadj =>
  split
  · exact h.mono hs
  next hlt =>
  have hup := dvd_roundUp hp start
  have hdown : pageSize ∣ stop - stop % pageSize := Nat.dvd_sub_mod stop
  have hmul := Nat.div_mul_cancel (Nat.dvd_sub hdown hup)
  have hpos : 0 < (stop - stop % pageSize - (start + (pageSize - start % pageSize) % pageSize)) / pageSize := by
    rcases Nat.eq_zero_or_pos ((stop - stop % pageSize - (start + (pageSize - start % pageSize) % pageSize)) / pageSize)
      with h0 | h0
    · rw [h0] at hmul
      omega
    · exact h0
  refine ⟨pairwise_append.mpr ⟨h.ordered, by simp, fun r hr => forall_mem_singleton.mpr ?_⟩,
    forall_mem_append.mpr ⟨fun r hr => (h.bounded r hr).trans hs, forall_mem_singleton.mpr ?_⟩,
    forall_mem_append.mpr ⟨h.aligned, forall_mem_singleton.mpr ⟨hup, hpos⟩⟩⟩
  · have := h.bounded r hr
    dsimp only
    omega
  · dsimp only
    omega

lemma Runs.closeRun {run : Option ℕ} {cursor : ℕ} (h : Runs pageSize (run.getD cursor) runs) (hp : 0 < pageSize)
    (hr : run.getD cursor ≤ cursor) : Runs pageSize cursor (closeRun pageSize runs run cursor) := by
  cases run with
  | none => exact h
  | some start => exact h.appendRun hp hr

lemma Runs.sweepFrom {fuel cursor : ℕ} {run : Option ℕ} {out : List Run} (hp : 0 < pageSize)
    (hb : ∀ b ∈ MemoryRegion.boundaries regions, b ≤ bound) (hc : cursor ≤ bound) (hr : run.getD cursor ≤ cursor)
    (h : Runs pageSize (run.getD cursor) runs) (he : sweepFrom regions pageSize fuel cursor run runs = some out) :
    Runs pageSize bound out := by
  induction fuel generalizing cursor run runs with
  | zero => simp [Memory.sweepFrom] at he
  | succ fuel ih =>
  rw [Memory.sweepFrom] at he
  cases hn : nextBoundary (MemoryRegion.boundaries regions) cursor with
  | none =>
    rw [hn] at he
    cases he
    exact (h.closeRun hp hr).mono hc
  | some next =>
  rw [hn] at he
  obtain ⟨hm, hlt⟩ := nextBoundary_mem hn
  dsimp only at he
  split at he
  · exact ih (hb next hm) (by simpa using hr.trans hlt.le) (by simpa using h) he
  · exact ih (hb next hm) (by simp) ((h.closeRun hp hr).mono (by simpa using hlt.le)) he

lemma sweepStart_le (regions : List MemoryRegion) : sweepStart regions ≤ addressLimit := by
  unfold sweepStart
  induction regions using reverseRecOn with
  | nil => simp
  | append_singleton rs r ih =>
  rw [foldl_append]
  simp only [foldl_cons, foldl_nil]
  split
  · next h => exact (Nat.le_of_lt h.2).trans ih
  · exact ih

lemma isPowerOfTwo_pos {n : ℕ} (h : isPowerOfTwo n = true) : 0 < n := by
  simp only [isPowerOfTwo, Bool.and_eq_true, bne_iff_ne] at h
  omega

lemma sweepUsable_ok (h : sweepUsable regions pageSize = .ok runs) : 0 < pageSize ∧
    (∀ r ∈ regions, r.size ≤ addressLimit - r.base) ∧
    sweepFrom regions pageSize (2 * regions.length + 1) (sweepStart regions) none [] = some runs := by
  unfold sweepUsable at h
  split at h
  · cases h
  next hp =>
  split at h
  · cases h
  next hw =>
  simp only [any_eq_true, decide_eq_true_eq, not_exists, not_and, gt_iff_lt, not_lt] at hw
  refine ⟨isPowerOfTwo_pos (by simpa using hp), hw, ?_⟩
  obtain ⟨out, hout⟩ := sweepFrom_some regions pageSize (2 * regions.length + 1) (sweepStart regions) none []
    (Nat.lt_succ_of_le (countP_le_length.trans (length_boundaries regions)))
  rw [hout] at h
  cases h
  exact hout

lemma sweepUsable_runs (h : sweepUsable regions pageSize = .ok runs) : 0 < pageSize ∧ Runs pageSize addressLimit runs := by
  obtain ⟨hp, hw, hout⟩ := sweepUsable_ok h
  refine ⟨hp, Runs.sweepFrom hp (fun b hb => ?_) (sweepStart_le regions) (by simp) ⟨by simp, by simp, by simp⟩ hout⟩
  simp only [MemoryRegion.boundaries, mem_flatMap] at hb
  obtain ⟨r, hr, hb⟩ := hb
  have hlim := hw r hr
  split at hb
  · simp at hb
  · simp only [mem_cons, not_mem_nil, or_false] at hb
    omega

lemma foldlM_counts {totals out : ℕ × ℕ} (h : runs.foldlM (fun (totals : ℕ × ℕ) run =>
    if run.count > addressLimit - totals.1 then (.error (.overflow "physical frame count overflows") : Result (ℕ × ℕ))
    else .ok (totals.1 + run.count, totals.2 + 1)) totals = .ok out) :
    out = (totals.1 + (runs.map Run.count).sum, totals.2 + runs.length) := by
  induction runs generalizing totals with
  | nil =>
    cases h
    simp
  | cons r rs ih =>
  rw [foldlM_cons] at h
  split at h
  · cases h
  have := ih h
  simp only [this, map_cons, sum_cons, length_cons, Prod.mk.injEq]
  omega

lemma countUsable_ok {totals : ℕ × ℕ} (h : countUsable regions pageSize = .ok totals) :
    ∃ runs, sweepUsable regions pageSize = .ok runs ∧ totals.1 = (runs.map Run.count).sum ∧ totals.2 = runs.length ∧
      0 < totals.1 := by
  unfold countUsable at h
  cases hs : sweepUsable regions pageSize with
  | error e => simp [hs, bind, Except.bind] at h
  | ok runs =>
  simp only [hs, bind, Except.bind] at h
  split at h
  · cases h
  next out hout =>
  have := foldlM_counts hout
  split at h
  · cases h
  split at h
  · cases h
  cases h
  simp only [Nat.zero_add] at this
  cases this
  exact ⟨runs, rfl, rfl, rfl, by omega⟩

end ObfuscationKernel.Memory
