import ObfuscationKernel.Memory.FrameOwnership

/-! Which pages the frame allocator manages: the sweep line meets every usable page once, and the two searches of
the allocator are inverse to each other on them. -/

namespace ObfuscationKernel.Memory

open ObfuscationKernel.Core Library List MemoryRegion

def Free (regions : List MemoryRegion) (b : ℕ) : Prop :=
  (∃ r ∈ regions, r.covers b = true ∧ r.type = .usable) ∧ ∀ r ∈ regions, r.covers b = true → r.type = .usable

def Eligible (regions : List MemoryRegion) (pageSize p : ℕ) : Prop :=
  pageSize ∣ p ∧ ∀ b, p ≤ b → b < p + pageSize → Free regions b

def Run.Holds (pageSize : ℕ) (r : Run) (p : ℕ) : Prop := ∃ i < r.count, p = r.base + i * pageSize

section Boundaries

variable {regions : List MemoryRegion} {r : MemoryRegion} {bs : List ℕ} {cursor next b : ℕ}

lemma nextBoundary_le (hb : b ∈ bs) (hc : cursor < b) : ∃ n, nextBoundary bs cursor = some n ∧ n ≤ b := by
  induction bs using reverseRecOn with
  | nil => simp at hb
  | append_singleton bs a ih =>
  rw [nextBoundary_concat]
  split
  · next h =>
    refine ⟨a, rfl, ?_⟩
    rcases mem_append.mp hb with hm | hm
    · obtain ⟨n, hn, hle⟩ := ih hm
      have ha : a < n := by simpa [hn] using h.2
      omega
    · exact (mem_singleton.mp hm).ge
  next h =>
  rcases mem_append.mp hb with hm | hm
  · exact ih hm
  obtain rfl := mem_singleton.mp hm
  cases hn : nextBoundary bs cursor with
  | none => simp [hn, hc] at h
  | some n => exact ⟨n, rfl, by simpa [hn, hc] using h⟩

lemma mem_boundaries (hr : r ∈ regions) (hs : r.size ≠ 0) :
    r.base ∈ boundaries regions ∧ r.base + r.size ∈ boundaries regions := by
  simp only [boundaries, mem_flatMap]
  exact ⟨⟨r, hr, by simp [hs]⟩, ⟨r, hr, by simp [hs]⟩⟩

lemma covers_iff : r.covers b = true ↔ r.size ≠ 0 ∧ r.base ≤ b ∧ b < r.base + r.size := by
  simp [covers, and_assoc]

lemma free_congr (h : ∀ x ∈ boundaries regions, cursor < x → b < x) (hb : cursor ≤ b) :
    Free regions b ↔ Free regions cursor := by
  have hc : ∀ r ∈ regions, r.covers b = true ↔ r.covers cursor = true := by
    intro r hr
    rw [covers_iff, covers_iff]
    refine and_congr_right fun hs => ?_
    obtain ⟨h1, h2⟩ := mem_boundaries hr hs
    have := h _ h1
    have := h _ h2
    omega
  refine and_congr (exists_congr fun r => and_congr_right fun hr => ?_) (forall₂_congr fun r hr => ?_) <;> rw [hc r hr]

lemma free_of_step (h : nextBoundary (boundaries regions) cursor = some next) (hb : cursor ≤ b)
    (hn : b < next) : Free regions b ↔ Free regions cursor := by
  refine free_congr (fun x hx hc => ?_) hb
  obtain ⟨n, he, hle⟩ := nextBoundary_le hx hc
  obtain rfl := Option.some.inj (h.symm.trans he)
  omega

lemma not_free_of_last (h : nextBoundary (boundaries regions) cursor = none) (hb : cursor ≤ b) :
    ¬ Free regions b := by
  rintro ⟨⟨r, hr, hc, -⟩, -⟩
  obtain ⟨hs, -, hlt⟩ := covers_iff.mp hc
  obtain ⟨n, he, -⟩ := nextBoundary_le (mem_boundaries hr hs).2 (hb.trans_lt hlt)
  simp [h] at he

lemma sweepStart_le_base (hr : r ∈ regions) (hs : r.size ≠ 0) : sweepStart regions ≤ r.base := by
  unfold sweepStart
  induction regions using reverseRecOn with
  | nil => simp at hr
  | append_singleton rs a ih =>
  rw [foldl_append]
  simp only [foldl_cons, foldl_nil]
  rcases mem_append.mp hr with hm | hm
  · have := ih hm
    split <;> omega
  · obtain rfl := mem_singleton.mp hm
    split <;> omega

lemma not_free_of_first (hb : b < sweepStart regions) : ¬ Free regions b := by
  rintro ⟨⟨r, hr, hc, -⟩, -⟩
  obtain ⟨hs, hle, -⟩ := covers_iff.mp hc
  have := sweepStart_le_base hr hs
  omega

lemma free_iff_any : Free regions cursor ↔ ((regions.any fun r => r.covers cursor && r.type == .usable) &&
    !(regions.any fun r => r.covers cursor && r.type != .usable)) = true := by
  simp [Free, any_eq_true, any_eq_false]

end Boundaries

section Pages

variable {pageSize start stop p : ℕ} {runs : List Run}

lemma roundUp_le (hp : 0 < pageSize) (hd : pageSize ∣ p) (hs : start ≤ p) :
    start + (pageSize - start % pageSize) % pageSize ≤ p := by
  have hlt := Nat.mod_lt (pageSize - start % pageSize) hp
  obtain ⟨n, hn⟩ := dvd_roundUp hp start
  obtain ⟨q, rfl⟩ := hd
  rw [hn]
  refine Nat.mul_le_mul_left _ (Nat.lt_succ_iff.mp (Nat.lt_of_mul_lt_mul_left (a := pageSize) ?_))
  rw [Nat.mul_succ]
  omega

lemma le_roundDown (hd : pageSize ∣ p) (hs : p ≤ stop) : p ≤ stop - stop % pageSize := by
  obtain ⟨q, rfl⟩ := hd
  have := Nat.div_add_mod stop pageSize
  have : pageSize * q ≤ pageSize * (stop / pageSize) := by
    rcases Nat.eq_zero_or_pos pageSize with rfl | hp
    · simp
    · exact Nat.mul_le_mul_left _ ((Nat.le_div_iff_mul_le hp).mpr (by rwa [Nat.mul_comm]))
  omega

lemma holds_between (hp : 0 < pageSize) (hd : pageSize ∣ start) (he : pageSize ∣ stop) :
    (⟨start, (stop - start) / pageSize⟩ : Run).Holds pageSize p ↔ pageSize ∣ p ∧ start ≤ p ∧ p + pageSize ≤ stop := by
  obtain ⟨u, rfl⟩ := hd
  obtain ⟨d, rfl⟩ := he
  rw [← Nat.mul_sub, Nat.mul_div_cancel_left _ hp]
  simp only [Run.Holds]
  constructor
  · rintro ⟨i, hi, rfl⟩
    have : pageSize * (u + i + 1) ≤ pageSize * d := Nat.mul_le_mul_left _ (by omega)
    rw [Nat.mul_comm i, ← Nat.mul_add]
    exact ⟨Nat.dvd_mul_right _ _, Nat.mul_le_mul_left _ (by omega), this⟩
  rintro ⟨⟨q, rfl⟩, h1, h2⟩
  have h1 := Nat.le_of_mul_le_mul_left h1 hp
  have h2 : q + 1 ≤ d := Nat.le_of_mul_le_mul_left h2 hp
  exact ⟨q - u, by omega, by rw [Nat.mul_comm _ pageSize, ← Nat.mul_add, Nat.add_sub_cancel' h1]⟩

lemma holds_appendRun (hp : 0 < pageSize) : (∃ r ∈ appendRun pageSize runs start stop, r.Holds pageSize p) ↔
    (∃ r ∈ runs, r.Holds pageSize p) ∨ pageSize ∣ p ∧ start ≤ p ∧ p + pageSize ≤ stop := by
  have hup := dvd_roundUp hp start
  have hdown : pageSize ∣ stop - stop % pageSize := Nat.dvd_sub_mod stop
  have hle : pageSize ∣ p ∧ start ≤ p ∧ p + pageSize ≤ stop ↔ pageSize ∣ p ∧
      start + (pageSize - start % pageSize) % pageSize ≤ p ∧ p + pageSize ≤ stop - stop % pageSize := by
    refine and_congr_right fun hd => ⟨fun h => ?_, fun h => by omega⟩
    exact ⟨roundUp_le hp hd h.1, le_roundDown (hd.add (dvd_refl _)) h.2⟩
  rw [hle]
  unfold appendRun
  dsimp only
  split_ifs with h1 h2
  iterate 2 exact ⟨.inl, fun h => h.resolve_right (by omega)⟩
  · rw [← holds_between hp hup hdown]
    simp [or_and_right, exists_or]

end Pages

structure Swept (regions : List MemoryRegion) (pageSize cursor : ℕ) (run : Option ℕ) (runs : List Run) : Prop where
  le : run.getD cursor ≤ cursor
  open_free : ∀ b, run.getD cursor ≤ b → b < cursor → Free regions b
  edge : ∀ b, b + 1 = run.getD cursor → ¬ Free regions b
  pages : ∀ p, (∃ r ∈ runs, r.Holds pageSize p) ↔ Eligible regions pageSize p ∧ p + pageSize ≤ run.getD cursor
  apart : runs.Pairwise fun r s => r.base + r.count * pageSize < s.base
  behind : ∀ r ∈ runs, r.base + r.count * pageSize < run.getD cursor

namespace Swept

variable {regions : List MemoryRegion} {pageSize cursor next : ℕ} {run : Option ℕ} {runs : List Run}

lemma start (hp : 0 < pageSize) : Swept regions pageSize (sweepStart regions) none [] where
  le := le_rfl
  open_free b h1 h2 := absurd h1 (by simpa using h2)
  edge b hb := not_free_of_first (by simp only [Option.getD_none] at hb; omega)
  pages p := by
    refine ⟨by simp, fun ⟨he, hle⟩ => absurd (he.2 p le_rfl (by omega)) (not_free_of_first ?_)⟩
    simp only [Option.getD_none] at hle
    omega
  apart := by simp
  behind := by simp

lemma extend (h : Swept regions pageSize cursor run runs) (hf : Free regions cursor)
    (hn : nextBoundary (boundaries regions) cursor = some next) :
    Swept regions pageSize next (some (run.getD cursor)) runs where
  le := h.le.trans (nextBoundary_mem hn).2.le
  open_free b h1 h2 := by
    rcases Nat.lt_or_ge b cursor with hb | hb
    · exact h.open_free b h1 hb
    · exact (free_of_step hn hb h2).mpr hf
  edge := h.edge
  pages := h.pages
  apart := h.apart
  behind := h.behind

lemma pages_closeRun (h : Swept regions pageSize cursor run runs) (hp : 0 < pageSize) {p : ℕ} :
    (∃ r ∈ closeRun pageSize runs run cursor, r.Holds pageSize p) ↔ Eligible regions pageSize p ∧ p + pageSize ≤ cursor := by
  cases run with
  | none => exact h.pages p
  | some start =>
  rw [closeRun, holds_appendRun hp, h.pages]
  constructor
  · rintro (⟨he, hle⟩ | ⟨hd, h1, h2⟩)
    · exact ⟨he, hle.trans h.le⟩
    · exact ⟨⟨hd, fun b hb hb' => h.open_free b (h1.trans hb) (by omega)⟩, h2⟩
  rintro ⟨he, hle⟩
  by_cases hs : p + pageSize ≤ start
  · exact .inl ⟨he, hs⟩
  · refine .inr ⟨he.1, Nat.le_of_not_lt fun hlt => ?_, hle⟩
    exact h.edge (start - 1) (by simp; omega) (he.2 _ (by omega) (by omega))

lemma apart_closeRun (h : Swept regions pageSize cursor run runs) (hp : 0 < pageSize) :
    (closeRun pageSize runs run cursor).Pairwise (fun r s => r.base + r.count * pageSize < s.base) ∧
      ∀ r ∈ closeRun pageSize runs run cursor, r.base + r.count * pageSize ≤ cursor := by
  cases run with
  | none => exact ⟨h.apart, fun r hr => (h.behind r hr).le⟩
  | some start =>
  have hold := h.behind
  have hle := h.le
  rw [closeRun]
  unfold appendRun
  dsimp only
  split_ifs with h1 h2
  iterate 2 exact ⟨h.apart, fun r hr => (hold r hr).le.trans hle⟩
  have hmul := Nat.div_mul_cancel (Nat.dvd_sub (Nat.dvd_sub_mod cursor) (dvd_roundUp hp start))
  refine ⟨pairwise_append.mpr ⟨h.apart, by simp, fun r hr => forall_mem_singleton.mpr ?_⟩,
    forall_mem_append.mpr ⟨fun r hr => (hold r hr).le.trans hle, forall_mem_singleton.mpr ?_⟩⟩
  · exact (hold r hr).trans_le (Nat.le_add_right _ _)
  dsimp only
  omega

lemma close (h : Swept regions pageSize cursor run runs) (hp : 0 < pageSize) (hf : ¬ Free regions cursor)
    (hn : nextBoundary (boundaries regions) cursor = some next) :
    Swept regions pageSize next none (closeRun pageSize runs run cursor) := by
  have hlt := (nextBoundary_mem hn).2
  have hdry : ∀ b, cursor ≤ b → b < next → ¬ Free regions b := fun b h1 h2 hb => hf ((free_of_step hn h1 h2).mp hb)
  obtain ⟨ha, hb⟩ := h.apart_closeRun hp
  refine ⟨le_rfl, fun b h1 h2 => absurd h1 (by simpa using h2), fun b he => ?_, fun p => ?_, ha, fun r hr => ?_⟩
  · simp only [Option.getD_none] at he
    exact hdry b (by omega) (by omega)
  · rw [h.pages_closeRun hp]
    refine and_congr_right fun he => ⟨fun hle => hle.trans hlt.le, fun hle => ?_⟩
    by_contra hc
    simp only [Option.getD_none] at hle
    exact hdry (p + pageSize - 1) (by omega) (by omega) (he.2 _ (by omega) (by omega))
  · exact (hb r hr).trans_lt hlt

lemma finish (h : Swept regions pageSize cursor run runs) (hp : 0 < pageSize)
    (hn : nextBoundary (boundaries regions) cursor = none) (p : ℕ) :
    (∃ r ∈ closeRun pageSize runs run cursor, r.Holds pageSize p) ↔ Eligible regions pageSize p := by
  rw [h.pages_closeRun hp]
  refine ⟨fun hx => hx.1, fun he => ⟨he, ?_⟩⟩
  by_contra hc
  exact not_free_of_last hn (show cursor ≤ p + pageSize - 1 by omega) (he.2 _ (by omega) (by omega))

lemma sweepFrom {fuel : ℕ} {out : List Run} (h : Swept regions pageSize cursor run runs) (hp : 0 < pageSize)
    (he : sweepFrom regions pageSize fuel cursor run runs = some out) :
    (∀ p, (∃ r ∈ out, r.Holds pageSize p) ↔ Eligible regions pageSize p) ∧
      out.Pairwise fun r s => r.base + r.count * pageSize < s.base := by
  induction fuel generalizing cursor run runs with
  | zero => simp [Memory.sweepFrom] at he
  | succ fuel ih =>
  rw [Memory.sweepFrom] at he
  cases hn : nextBoundary (boundaries regions) cursor with
  | none =>
    rw [hn] at he
    cases he
    exact ⟨h.finish hp hn, (h.apart_closeRun hp).1⟩
  | some next =>
  rw [hn] at he
  dsimp only at he
  split at he
  · next hf => exact ih (h.extend (free_iff_any.mpr hf) hn) he
  · next hf => exact ih (h.close hp (fun hx => hf (free_iff_any.mp hx)) hn) he

end Swept

lemma sweepUsable_pages {regions : List MemoryRegion} {pageSize : ℕ} {runs : List Run}
    (h : sweepUsable regions pageSize = .ok runs) :
    (∀ p, (∃ r ∈ runs, r.Holds pageSize p) ↔ Eligible regions pageSize p) ∧
      runs.Pairwise fun r s => r.base + r.count * pageSize < s.base := by
  obtain ⟨hp, -, hout⟩ := sweepUsable_ok h
  exact (Swept.start hp).sweepFrom hp hout

section Totals

variable {regions : List MemoryRegion} {pageSize bound : ℕ} {runs : List Run}

lemma Runs.total_le (h : Runs pageSize bound runs) : (runs.map Run.count).sum * pageSize ≤ bound := by
  induction runs using reverseRecOn generalizing bound with
  | nil => simp
  | append_singleton rs r ih =>
  obtain ⟨ho, -, hx⟩ := pairwise_append.mp h.ordered
  have hrs : Runs pageSize r.base rs :=
    ⟨ho, fun s hs => hx s hs r (by simp), fun s hs => h.aligned s (mem_append_left _ hs)⟩
  have hb := h.bounded r (by simp)
  have := ih hrs
  simp only [map_append, sum_append, map_cons, map_nil, sum_cons, sum_nil, Nat.add_zero, Nat.add_mul]
  omega

lemma Runs.length_le (h : Runs pageSize bound runs) : runs.length ≤ (runs.map Run.count).sum := by
  have := card_nsmul_le_sum (runs.map Run.count) 1 fun n hn => by
    obtain ⟨r, hr, rfl⟩ := mem_map.mp hn
    exact (h.aligned r hr).2
  simpa using this

lemma foldlM_total {totals : ℕ × ℕ} (h : totals.1 + (runs.map Run.count).sum ≤ addressLimit) :
    runs.foldlM (fun (totals : ℕ × ℕ) run =>
      if run.count > addressLimit - totals.1 then (.error (.overflow "physical frame count overflows") : Result (ℕ × ℕ))
      else .ok (totals.1 + run.count, totals.2 + 1)) totals =
    .ok (totals.1 + (runs.map Run.count).sum, totals.2 + runs.length) := by
  induction runs generalizing totals with
  | nil => simp [pure, Except.pure]
  | cons r rs ih =>
  simp only [map_cons, sum_cons, length_cons] at h ⊢
  rw [foldlM_cons, if_neg (by omega)]
  simp only [bind, Except.bind]
  rw [ih (by dsimp only; omega)]
  simp only [Except.ok.injEq, Prod.mk.injEq]
  omega

lemma countUsable_of_eligible (hp : isPowerOfTwo pageSize = true) (h64 : 64 ≤ pageSize)
    (hw : ∀ r ∈ regions, r.size ≤ addressLimit - r.base) (he : ∃ p, Eligible regions pageSize p) :
    ∃ runs, sweepUsable regions pageSize = .ok runs ∧
      countUsable regions pageSize = .ok ((runs.map Run.count).sum, runs.length) := by
  obtain ⟨runs, hs⟩ : ∃ runs, sweepUsable regions pageSize = .ok runs := by
    unfold sweepUsable
    rw [if_neg (by simp [hp]), if_neg (by simpa using hw)]
    exact ⟨_, rfl⟩
  obtain ⟨-, hr⟩ := sweepUsable_runs hs
  obtain ⟨p, hp⟩ := he
  obtain ⟨r, hm, i, hi, -⟩ := ((sweepUsable_pages hs).1 p).mpr hp
  have hsum : r.count ≤ (runs.map Run.count).sum := single_le_sum (by simp) _ (mem_map_of_mem hm)
  have hle := (Nat.mul_le_mul_left _ h64).trans hr.total_le
  have hlen := hr.length_le
  have hlim : addressLimit = 2 ^ 64 - 1 := rfl
  refine ⟨runs, hs, ?_⟩
  unfold countUsable
  simp only [hs, bind, Except.bind]
  rw [foldlM_total (by dsimp only; omega)]
  dsimp only
  rw [if_neg (by omega), if_neg (by omega), Nat.zero_add, Nat.zero_add]

lemma map_rangesOf (runs : List Run) (n : ℕ) : (rangesOf runs n).map (fun r => (⟨r.base, r.count⟩ : Run)) = runs := by
  induction runs generalizing n with
  | nil => rfl
  | cons r rs ih => simp [rangesOf, ih]

end Totals

namespace FrameAllocator

variable {a : FrameAllocator} {runs : List Run} {k i address index : ℕ}

def Manages (a : FrameAllocator) (p : ℕ) : Prop := ∃ r ∈ a.ranges, ∃ i < r.count, p = r.base + i * a.pageSize

lemma rangeAt_eq (hk : k < a.ranges.length) : a.rangeAt k = a.ranges[k] := by
  simp [rangeAt, getD_eq_getElem?_getD, hk]

lemma Layout.manages_iff (h : a.Layout runs) (p : ℕ) : a.Manages p ↔ ∃ r ∈ runs, r.Holds a.pageSize p := by
  have hm : ∀ (rs : List Run) (n : ℕ), (∃ r ∈ rangesOf rs n, ∃ i < r.count, p = r.base + i * a.pageSize) ↔
      ∃ r ∈ rs, r.Holds a.pageSize p := by
    intro rs
    induction rs with
    | nil => simp [rangesOf]
    | cons r rs ih =>
      intro n
      simp only [rangesOf, mem_cons, exists_eq_or_imp, ih, Run.Holds]
  rw [Manages, h.ranges, hm]

lemma Layout.indexOf (h : a.Layout runs) (hk : k < runs.length) (hi : i < runs[k].count) :
    a.indexOf (runs[k].base + i * a.pageSize) = .ok (framesBefore runs k + i) := by
  have hp := h.pages
  have hord := pairwise_iff_getElem.mp h.runs.ordered
  have hpos : a.frameCount ≠ 0 := by
    have := framesBefore_mono runs (show k + 1 ≤ runs.length from hk)
    rw [framesBefore_succ hk] at this
    rw [h.total]
    simp only [framesBefore, take_length] at this
    omega
  have hin : (i + 1) * a.pageSize ≤ runs[k].count * a.pageSize := Nat.mul_le_mul_right _ hi
  rw [Nat.succ_mul] at hin
  unfold FrameAllocator.indexOf
  rw [if_neg hpos, bisect_complete (k := k)]
  · simp only [h.rangeAt hk, Nat.add_sub_cancel_left, Nat.mul_mod_left, Nat.mul_div_cancel _ hp]
    simp
  · rwa [h.ranges, length_rangesOf]
  · simp only [h.rangeAt hk, Nat.add_sub_cancel_left, Nat.mul_div_cancel _ hp]
    rw [if_neg (by omega), if_neg (by omega)]
  · intro j hj
    have hle := hord j k (hj.trans hk) hk hj
    simp only [h.rangeAt (hj.trans hk)]
    rw [if_neg (by omega), if_pos ?_]
    exact (Nat.le_div_iff_mul_le hp).mpr (by omega)
  intro j hj hn
  rw [h.ranges, length_rangesOf] at hn
  have hle := hord k j hk hn hj
  simp only [h.rangeAt hn]
  rw [if_pos (by omega)]

lemma manages_of_indexOf (he : a.indexOf address = .ok index) : a.Manages address := by
  unfold FrameAllocator.indexOf at he
  split at he
  · cases he
  cases hb : bisect (fun k =>
      if address < (a.rangeAt k).base then .lt
      else if (address - (a.rangeAt k).base) / a.pageSize ≥ (a.rangeAt k).count then .gt
      else .eq) a.ranges.length with
  | none =>
    rw [hb] at he
    cases he
  | some k =>
  rw [hb] at he
  dsimp only at he
  split at he
  · cases he
  next hm =>
  obtain ⟨hk, hs⟩ := bisect_sound hb
  split at hs
  · cases hs
  split at hs
  · cases hs
  next h1 h2 =>
  refine ⟨a.rangeAt k, rangeAt_eq hk ▸ getElem_mem hk, (address - (a.rangeAt k).base) / a.pageSize, by omega, ?_⟩
  have hdvd := Nat.div_mul_cancel (Nat.dvd_of_mod_eq_zero (by simpa using hm) : a.pageSize ∣ address - (a.rangeAt k).base)
  omega

lemma Layout.indexOf_addressFor (h : a.Layout runs) (hi : index < a.frameCount) :
    a.indexOf (a.addressFor index) = .ok index ∧ a.Manages (a.addressFor index) := by
  obtain ⟨k, hk, hl, hu⟩ := exists_run (h.total ▸ hi)
  have hx : a.indexOf (a.addressFor index) = .ok index := by
    rw [h.addressFor hk hl hu, h.indexOf hk (by omega), Nat.add_sub_cancel' hl]
  exact ⟨hx, manages_of_indexOf hx⟩

lemma Layout.addressFor_surjective (h : a.Layout runs) (hm : a.Manages address) :
    ∃ index < a.frameCount, a.addressFor index = address := by
  obtain ⟨r, hr, i, hi, rfl⟩ := (h.manages_iff _).mp hm
  obtain ⟨k, hk, rfl⟩ := getElem_of_mem hr
  have hs := framesBefore_mono runs (show k + 1 ≤ runs.length from hk)
  rw [framesBefore_succ hk] at hs
  refine ⟨framesBefore runs k + i, ?_, ?_⟩
  · rw [h.total]
    simp only [framesBefore, take_length] at hs ⊢
    omega
  · rw [h.addressFor hk (Nat.le_add_right _ _) (by omega), Nat.add_sub_cancel_left]

lemma Layout.map_count (h : a.Layout runs) : a.ranges.map FrameRange.count = runs.map Run.count := by
  conv_rhs => rw [← map_rangesOf runs 0, ← h.ranges, map_map]
  rfl

lemma Layout.pairwise_ranges (h : a.Layout runs)
    (hs : runs.Pairwise fun r s => r.base + r.count * a.pageSize < s.base) :
    a.ranges.Pairwise fun r s => r.base + r.count * a.pageSize < s.base := by
  rw [← map_rangesOf runs 0, ← h.ranges, pairwise_map] at hs
  exact hs

lemma Layout.firstIndex (h : a.Layout runs) (hk : k < a.ranges.length) :
    a.ranges[k].firstIndex = ((a.ranges.take k).map FrameRange.count).sum := by
  have hn : k < runs.length := by
    have := hk
    rwa [h.ranges, length_rangesOf] at this
  rw [← rangeAt_eq hk, h.rangeAt hn, map_take, h.map_count, framesBefore, map_take]

/-- Discovery succeeds with a usable page and enough storage. It then manages exactly the pages whose bytes all lie in
usable regions and none in another; the ranges are in order and apart, each begins with the index after the last one's,
and the address of an index and the index of an address are inverse to each other. -/
theorem frame_discovery (a : FrameAllocator) (regions : List MemoryRegion) (pageSize : ℕ) :
    (a.usedCount = 0 → isPowerOfTwo pageSize = true → 64 ≤ pageSize → (∀ r ∈ regions, r.size ≤ addressLimit - r.base) →
      (∃ p, Eligible regions pageSize p) →
      ∃ bytes, ∀ n, bytes ≤ n → (a.initializeFrames regions pageSize (some n)).1 = .ok ()) ∧
    ∀ metadata, (a.initializeFrames regions pageSize metadata).1 = .ok () →
      let b := (a.initializeFrames regions pageSize metadata).2
      (∀ p, b.Manages p ↔ Eligible regions pageSize p) ∧
      (b.ranges.Pairwise fun r s => r.base + r.count * pageSize < s.base) ∧
      (∀ k, ∀ hk : k < b.ranges.length, b.ranges[k].firstIndex = ((b.ranges.take k).map FrameRange.count).sum) ∧
      b.frameCount = (b.ranges.map FrameRange.count).sum ∧
      (∀ i < b.frameCount, b.Manages (b.addressFor i) ∧ b.indexOf (b.addressFor i) = .ok i) ∧
      (∀ p, b.Manages p → ∃ i < b.frameCount, b.addressFor i = p) ∧
      ∀ p, ¬ b.Manages p → ∃ status, b.indexOf p = .error status := by
  refine ⟨fun hu hp h64 hw he => ?_, fun metadata h => ?_⟩
  · obtain ⟨runs, hs, hc⟩ := countUsable_of_eligible hp h64 hw he
    refine ⟨metadataBytesFor (runs.map Run.count).sum runs.length, fun n hn => ?_⟩
    unfold initializeFrames
    rw [if_neg (by simpa using hu), hc, hs]
    dsimp only
    rw [if_neg (by simpa using hn)]
  obtain ⟨-, frames, runs, -, hs, hf, hb⟩ := initializeFrames_ok h
  obtain ⟨hp, hr⟩ := sweepUsable_runs hs
  obtain ⟨hpages, happart⟩ := sweepUsable_pages hs
  have hl : (a.reset pageSize frames runs).Layout runs := ⟨rfl, hf, hp, hr⟩
  rw [hb]
  refine ⟨fun p => (hl.manages_iff p).trans (hpages p), hl.pairwise_ranges happart, fun k hk => hl.firstIndex hk, ?_,
    fun i hi => (hl.indexOf_addressFor hi).symm, fun p hm => hl.addressFor_surjective hm, fun p hm => ?_⟩
  · rw [hl.map_count, hl.total]
  cases hx : (a.reset pageSize frames runs).indexOf p with
  | error status => exact ⟨status, rfl⟩
  | ok index => exact absurd (manages_of_indexOf hx) hm

/-- Three regions in no order, two of them adjacent, and a reservation inside a page. -/
theorem frame_discovery_split : ((fresh 1).initializeFrames
      [⟨4096 + 100, 8192 - 100, .usable⟩, ⟨4000, 196, .usable⟩, ⟨9000, 8, .kernelImage⟩] 4096 (some 4096)).2.Manages 4096 := by
  refine (((frame_discovery (fresh 1) _ 4096).2 (some 4096) (by decide +kernel)).1 4096).mpr ⟨by decide, ?_⟩
  intro b h1 h2
  refine ⟨?_, ?_⟩
  · rcases Nat.lt_or_ge b 4196 with hb | hb
    · exact ⟨_, mem_cons_of_mem _ (mem_cons_self ..), covers_iff.mpr (by dsimp only; omega), rfl⟩
    · exact ⟨_, mem_cons_self .., covers_iff.mpr (by dsimp only; omega), rfl⟩
  intro r hr hc
  have := covers_iff.mp hc
  simp only [mem_cons, not_mem_nil, or_false] at hr
  rcases hr with rfl | rfl | rfl
  · rfl
  · rfl
  · dsimp only at this
    omega

end FrameAllocator

end ObfuscationKernel.Memory
