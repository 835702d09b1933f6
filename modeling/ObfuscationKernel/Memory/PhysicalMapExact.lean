import ObfuscationKernel.Library.Splice
import ObfuscationKernel.Memory.PhysicalMap

/-! Which pages a normalized memory map calls usable, and when these are the right ones. -/

namespace ObfuscationKernel.Memory

open ObfuscationKernel.Core Library List

variable {pageSize p : ℕ} {r w : MemoryRegion}

def top : ℕ := addressLimit + 1

namespace MemoryRegion

def stop (w : MemoryRegion) : ℕ := if w.wrappedEnd = 0 then top else w.wrappedEnd

structure Block (pageSize : ℕ) (w : MemoryRegion) : Prop where
  lt : w.base < w.stop
  le : w.stop ≤ top
  base_dvd : pageSize ∣ w.base
  stop_dvd : pageSize ∣ w.stop
  size : w.size = wrap (w.stop - w.base)

lemma stop_mk {b e : ℕ} (t : RegionType) (hlt : b < e) (hle : e ≤ top) : (⟨b, wrap (e - b), t⟩ : MemoryRegion).stop = e := by
  have hend : (⟨b, wrap (e - b), t⟩ : MemoryRegion).wrappedEnd = e % top := by
    simp only [wrappedEnd, wrap, top, Nat.add_mod_mod]
    rw [Nat.add_sub_cancel' hlt.le]
  rw [stop, hend]
  rcases hle.eq_or_lt with rfl | hlt'
  · simp
  · rw [Nat.mod_eq_of_lt hlt', if_neg (by omega)]

lemma Block.mk' {b e : ℕ} (t : RegionType) (hlt : b < e) (hle : e ≤ top) (hb : pageSize ∣ b) (he : pageSize ∣ e) :
    Block pageSize ⟨b, wrap (e - b), t⟩ := by
  have hs := stop_mk t hlt hle
  exact ⟨by rwa [hs], by rwa [hs], hb, by rwa [hs], by rw [hs]⟩

end MemoryRegion

open MemoryRegion

lemma two_pow_dvd_top (k : Fin 64) : 2 ^ k.val ∣ top := show 2 ^ k.val ∣ 2 ^ 64 from Nat.pow_dvd_pow 2 k.isLt.le

lemma wrap_of_lt {n : ℕ} (h : n < top) : wrap n = n := Nat.mod_eq_of_lt h

lemma stop_cases (w : MemoryRegion) :
    w.wrappedEnd = 0 ∧ w.stop = top ∨ w.wrappedEnd ≠ 0 ∧ w.stop = w.wrappedEnd ∧ w.stop < top := by
  unfold MemoryRegion.stop
  split
  · next h => exact .inl ⟨h, rfl⟩
  · next h => exact .inr ⟨h, rfl, Nat.mod_lt _ (Nat.succ_pos _)⟩

section Alignment

lemma page_add_le {a b : ℕ} (ha : pageSize ∣ a) (hb : pageSize ∣ b) (h : a < b) : a + pageSize ≤ b := by
  obtain ⟨k, rfl⟩ := ha
  obtain ⟨m, rfl⟩ := hb
  have hkm := Nat.lt_of_mul_lt_mul_left h
  calc pageSize * k + pageSize = pageSize * (k + 1) := rfl
    _ ≤ pageSize * m := Nat.mul_le_mul_left _ hkm

lemma dvd_alignDown (v : ℕ) : pageSize ∣ alignDown v pageSize := Nat.dvd_sub_mod v

lemma alignDown_spec (v : ℕ) (h0 : 0 < pageSize) : alignDown v pageSize ≤ v ∧ v < alignDown v pageSize + pageSize := by
  have := Nat.mod_lt v h0
  unfold alignDown
  omega

variable {v : ℕ}

lemma le_alignDown_iff (hp : pageSize ∣ p) (h0 : 0 < pageSize) : p ≤ alignDown v pageSize ↔ p ≤ v := by
  obtain ⟨h1, h2⟩ := alignDown_spec v h0
  refine ⟨fun h => h.trans h1, fun h => ?_⟩
  by_contra hgt
  have := page_add_le (dvd_alignDown v) hp (by omega)
  omega

lemma alignDown_le_iff (hp : pageSize ∣ p) (h0 : 0 < pageSize) : alignDown v pageSize ≤ p ↔ v < p + pageSize := by
  obtain ⟨h1, h2⟩ := alignDown_spec v h0
  refine ⟨fun h => by omega, fun h => ?_⟩
  by_contra hgt
  have := page_add_le hp (dvd_alignDown v) (by omega)
  omega

lemma alignUpChecked_some {up : ℕ} (h0 : 0 < pageSize) (ht : pageSize ∣ top) (h : alignUpChecked v pageSize = some up) :
    pageSize ∣ up ∧ up < top ∧ ∀ p, pageSize ∣ p → (up ≤ p ↔ v ≤ p) := by
  unfold alignUpChecked at h
  split at h
  · cases h
  cases h
  have := (alignDown_spec (v + (pageSize - 1)) h0).1
  have := Nat.le_of_dvd (Nat.succ_pos _) ht
  refine ⟨dvd_alignDown _, by unfold top at *; omega, fun p hp => ?_⟩
  rw [alignDown_le_iff hp h0]
  omega

lemma alignUpChecked_none (h0 : 0 < pageSize) (h : alignUpChecked v pageSize = none) : top < v + pageSize := by
  unfold alignUpChecked at h
  split at h
  · unfold top
    omega
  · cases h

end Alignment

def Page (pageSize p : ℕ) : Prop := pageSize ∣ p ∧ p + pageSize ≤ top

def Fits (r : MemoryRegion) : Prop := 0 < r.size ∧ r.base + r.size ≤ top

def Covers (work : List MemoryRegion) (p : ℕ) : Prop := ∃ w ∈ work, w.base ≤ p ∧ p < w.stop

lemma covers_append {xs ys : List MemoryRegion} : Covers (xs ++ ys) p ↔ Covers xs p ∨ Covers ys p := by
  simp only [Covers, mem_append, or_and_right, exists_or]

lemma covers_cons {xs : List MemoryRegion} : Covers (w :: xs) p ↔ (w.base ≤ p ∧ p < w.stop) ∨ Covers xs p := by
  simp [Covers]

def Withholds (pageSize : ℕ) (r : MemoryRegion) (p : ℕ) : Prop := r.base < p + pageSize ∧ (p < r.last ∨ r.last = 0)

def withheldStop (stop : ℕ) (toTop : Bool) : ℕ := if toTop then top else stop

section Regions

variable (h0 : 0 < pageSize) (ht : pageSize ∣ top)

include h0 ht

lemma candidate_spec (hr : Fits r) (hu : r.type = .usable) : (∀ w, r.candidate pageSize = some w → w.Block pageSize ∧
      ∀ p, Page pageSize p → (w.base ≤ p ∧ p < w.stop ↔ r.base ≤ p ∧ p ≤ r.last)) ∧
    (r.candidate pageSize = none → ∀ p, Page pageSize p → ¬ (r.base ≤ p ∧ p ≤ r.last)) := by
  have hlast : r.last < top := by
    have := hr.1
    have := hr.2
    unfold last
    omega
  unfold candidate
  rw [if_neg (by simp [hu])]
  cases hup : alignUpChecked r.base pageSize with
  | none =>
    have := alignUpChecked_none h0 hup
    exact ⟨nofun, fun _ p hp h => by have := hp.2; omega⟩
  | some start =>
  obtain ⟨hd, -, hle⟩ := alignUpChecked_some h0 ht hup
  dsimp only
  split
  · next hlt =>
    refine ⟨nofun, fun _ p hp h => ?_⟩
    have := (hle p hp.1).mpr h.1
    have := (le_alignDown_iff hp.1 h0).mpr h.2
    omega
  next hge =>
  refine ⟨fun w hw => ?_, nofun⟩
  cases hw
  obtain ⟨h1, h2⟩ := alignDown_spec r.last h0
  have hdvd : pageSize ∣ alignDown r.last pageSize := dvd_alignDown _
  have hend := page_add_le hdvd ht (by omega)
  have hsize : alignDown r.last pageSize - start + pageSize = alignDown r.last pageSize + pageSize - start := by omega
  rw [hsize]
  have hs := stop_mk RegionType.usable (show start < alignDown r.last pageSize + pageSize by omega) hend
  refine ⟨Block.mk' _ (by omega) hend hd (Dvd.dvd.add hdvd dvd_rfl), fun p hp => ?_⟩
  rw [hle p hp.1, ← le_alignDown_iff hp.1 h0]
  refine and_congr_right fun _ => ⟨fun h => ?_, fun h => by omega⟩
  by_contra hgt
  have := page_add_le hdvd hp.1 (by omega)
  omega

lemma withheld_spec (hr : Fits r) {start stop : ℕ} {toTop : Bool} (he : r.withheld pageSize = (start, stop, toTop)) :
    pageSize ∣ start ∧ start < top ∧ pageSize ∣ withheldStop stop toTop ∧ (toTop = false → stop < top) ∧
      ∀ p, Page pageSize p → (start ≤ p ∧ p < withheldStop stop toTop ↔ Withholds pageSize r p) := by
  have hlast : r.base ≤ r.last ∧ r.last < top := by
    have := hr.1
    have := hr.2
    unfold last
    omega
  have hstart := (alignDown_spec r.base h0).1
  unfold withheld at he
  cases hup : alignUpChecked r.last pageSize with
  | none =>
    have := alignUpChecked_none h0 hup
    rw [hup] at he
    cases he
    refine ⟨dvd_alignDown _, by omega, ht, nofun, fun p hp => ?_⟩
    have := hp.2
    rw [alignDown_le_iff hp.1 h0]
    simp only [withheldStop, if_true, Withholds]
    omega
  | some up =>
  obtain ⟨hd, hlt, hle⟩ := alignUpChecked_some h0 ht hup
  rw [hup] at he
  cases he
  have hzero := hle 0 (dvd_zero _)
  have hself := hle stop hd
  by_cases hz : stop = 0
  · subst hz
    simp only [beq_self_eq_true, withheldStop, if_true]
    refine ⟨dvd_alignDown _, by omega, ht, nofun, fun p hp => ?_⟩
    have := hp.2
    rw [alignDown_le_iff hp.1 h0, Withholds]
    omega
  simp only [beq_false_of_ne hz, withheldStop, Bool.false_eq_true, if_false]
  refine ⟨dvd_alignDown _, by omega, hd, fun _ => hlt, fun p hp => ?_⟩
  have := hle p hp.1
  rw [alignDown_le_iff hp.1 h0, Withholds]
  omega

end Regions

section Carving

variable {start stop : ℕ} {toTop : Bool} {work : List MemoryRegion}

lemma touches_iff (hs : start < top) (ht : toTop = false → stop < top) (hw : w.Block pageSize) :
    touches start stop toTop w = true ↔ start < w.stop ∧ w.base < withheldStop stop toTop := by
  have := hw.lt
  simp only [touches, withheldStop]
  rcases stop_cases w with ⟨h1, h2⟩ | ⟨h1, h2, h3⟩
  · cases toTop <;> simp [h1, h2] <;> omega
  · cases toTop <;> simp [← h2] <;> omega

lemma pieces_eq (hs : start < top) (ht : toTop = false → stop < top) (hw : w.Block pageSize) :
    pieces start stop toTop w = (if w.base < start then [⟨w.base, wrap (start - w.base), .usable⟩] else []) ++
      if withheldStop stop toTop < w.stop then [⟨withheldStop stop toTop, wrap (w.stop - withheldStop stop toTop), .usable⟩]
      else [] := by
  have hle := hw.le
  have hlt := hw.lt
  unfold pieces
  congr 1
  · rw [wrap_of_lt (show start - w.base < top by omega)]
  cases toTop with
  | true => simp [withheldStop, hle]
  | false =>
  have hstop := ht rfl
  rcases stop_cases w with ⟨he, heq⟩ | ⟨he, heq, hltop⟩
  · simp [withheldStop, he, heq, top, Nat.lt_succ_iff.mp hstop]
  · have hwrap : wrap (w.wrappedEnd - stop) = w.wrappedEnd - stop := wrap_of_lt (by omega)
    simp [withheldStop, he, heq, hwrap]

lemma pieces_spec (hs : start < top) (ht : toTop = false → stop < top)
    (hd : pageSize ∣ start) (hd' : pageSize ∣ withheldStop stop toTop) (hw : w.Block pageSize)
    (htouch : touches start stop toTop w = true) :
    (∀ x ∈ pieces start stop toTop w, x.Block pageSize ∧ touches start stop toTop x = false) ∧
    ∀ p, Covers (pieces start stop toTop w) p ↔ w.base ≤ p ∧ p < w.stop ∧ ¬ (start ≤ p ∧ p < withheldStop stop toTop) := by
  obtain ⟨htl, htr⟩ := (touches_iff hs ht hw).mp htouch
  have hlt := hw.lt
  have htop := hw.le
  rw [pieces_eq hs ht hw]
  have hleft (h : w.base < start) : Block pageSize ⟨w.base, wrap (start - w.base), .usable⟩ :=
    Block.mk' _ h hs.le hw.base_dvd hd
  have hright (h : withheldStop stop toTop < w.stop) :
      Block pageSize ⟨withheldStop stop toTop, wrap (w.stop - withheldStop stop toTop), .usable⟩ :=
    Block.mk' _ h htop hd' hw.stop_dvd
  constructor
  · intro x hx
    simp only [mem_append, mem_ite_nil_right, mem_singleton] at hx
    rcases hx with ⟨h, rfl⟩ | ⟨h, rfl⟩
    · refine ⟨hleft h, Bool.eq_false_iff.mpr fun htx => ?_⟩
      have := (touches_iff hs ht (hleft h)).mp htx
      rw [stop_mk _ h hs.le] at this
      omega
    · refine ⟨hright h, Bool.eq_false_iff.mpr fun htx => ?_⟩
      have := ((touches_iff hs ht (hright h)).mp htx).2
      dsimp only at this
      omega
  intro p
  simp only [Covers, mem_append, mem_ite_nil_right, mem_singleton]
  constructor
  · rintro ⟨x, ⟨h, rfl⟩ | ⟨h, rfl⟩, hp⟩
    · rw [stop_mk _ h hs.le] at hp
      dsimp only at hp
      omega
    · rw [stop_mk _ h htop] at hp
      dsimp only at hp
      omega
  rintro ⟨h1, h2, h3⟩
  by_cases hp : p < start
  · refine ⟨_, .inl ⟨by omega, rfl⟩, h1, ?_⟩
    rw [stop_mk _ (by omega) hs.le]
    exact hp
  · refine ⟨_, .inr ⟨by omega, rfl⟩, by dsimp only; omega, ?_⟩
    rw [stop_mk _ (by omega) htop]
    exact h2

/-- What a reservation leaves of the regions: those that it does not touch, and the pieces of the others. -/
def fragments (start stop : ℕ) (toTop : Bool) (work : List MemoryRegion) : List MemoryRegion :=
  spliced (touches start stop toTop) (pieces start stop toTop) work

/-- There is room for the fragments while the reservations are taken out, each out of one region after the other. -/
def Room (pageSize : ℕ) : List MemoryRegion → List MemoryRegion → Prop
  | [], _ => True
  | r :: rs, work =>
    let (start, stop, toTop) := r.withheld pageSize
    SpliceRoom (touches start stop toTop) (pieces start stop toTop) maxDiscoveredRegions work ∧
      Room pageSize rs (fragments start stop toTop work)

lemma push_iff {message : String} {xs : List MemoryRegion} (h : work.length ≤ maxDiscoveredRegions) :
    xs.foldlM (pushRegion message) work =
      if work.length + xs.length ≤ maxDiscoveredRegions then .ok (work ++ xs) else .error (.overflow message) := by
  induction xs generalizing work with
  | nil => simp [h]; rfl
  | cons x xs ih =>
  rw [foldlM_cons, pushRegion, length_cons]
  split
  · rw [if_neg (by omega)]
    rfl
  next hne =>
  have hlen : (work ++ [x]).length = work.length + 1 := by simp
  refine (ih (by omega)).trans ?_
  rw [hlen, append_assoc, singleton_append, Nat.add_right_comm, Nat.add_assoc]

lemma carve_eq (hs : start < top) (ht : toTop = false → stop < top) (hd : pageSize ∣ start)
    (hd' : pageSize ∣ withheldStop stop toTop) {fuel : ℕ} (hf : work.countP (touches start stop toTop) < fuel)
    (hw : ∀ w ∈ work, w.Block pageSize) (hlen : work.length ≤ maxDiscoveredRegions) :
    let room := SpliceRoom (touches start stop toTop) (pieces start stop toTop) maxDiscoveredRegions work
    (room → carve start stop toTop fuel work = .ok (fragments start stop toTop work)) ∧
      (¬ room → ∃ status, carve start stop toTop fuel work = .error status) := by
  induction fuel generalizing work with
  | zero => omega
  | succ fuel ih =>
  rw [carve]
  cases hfind : work.find? (touches start stop toTop) with
  | none =>
    obtain ⟨hsame, hall⟩ := spliced_of_none (g := pieces start stop toTop) (find?_eq_none.mp hfind)
    exact ⟨fun _ => by rw [fragments, hsame], fun h => absurd (hall hlen) h⟩
  | some w =>
  obtain ⟨htouch, before, after, rfl, hbefore⟩ := find?_eq_some_iff_append.mp hfind
  have hblock := (pieces_spec hs ht hd hd' (hw w (by simp)) htouch).1
  have hnone : ∀ x ∈ before, touches start stop toTop x = false := fun x hx => by simpa using hbefore x hx
  obtain ⟨hcount, hsame, hroom⟩ := spliced_step htouch hnone (fun x hx => (hblock x hx).2) hlen
  have hshort : (before ++ after).length ≤ maxDiscoveredRegions := by
    rw [length_append, length_cons] at hlen
    rw [length_append]
    omega
  rw [eraseP_append_right _ fun x hx => by simp [hnone x hx], eraseP_cons_of_pos htouch]
  dsimp only
  rw [push_iff hshort, ← length_append]
  by_cases hfit : (before ++ after ++ pieces start stop toTop w).length ≤ maxDiscoveredRegions
  · rw [if_pos hfit, hroom, fragments, hsame]
    refine ih (by omega) (forall_mem_append.mpr ⟨fun x hx => hw x ?_, fun x hx => (hblock x hx).1⟩) hfit
    exact perm_middle.symm.subset (mem_cons_of_mem w hx)
  · rw [if_neg hfit]
    exact ⟨fun h => absurd (hroom.mp h 0 (Nat.zero_le _)) (by simpa using hfit), fun _ => ⟨_, rfl⟩⟩

lemma fragments_spec (hs : start < top) (ht : toTop = false → stop < top) (hd : pageSize ∣ start)
    (hd' : pageSize ∣ withheldStop stop toTop) (hw : ∀ w ∈ work, w.Block pageSize) :
    (∀ w ∈ fragments start stop toTop work, w.Block pageSize) ∧ ∀ p, Covers (fragments start stop toTop work) p ↔
      Covers work p ∧ ¬ (start ≤ p ∧ p < withheldStop stop toTop) := by
  have hpiece (w) (hm : w ∈ work.filter (touches start stop toTop)) :=
    pieces_spec hs ht hd hd' (hw w (mem_filter.mp hm).1) (mem_filter.mp hm).2
  refine ⟨forall_mem_append.mpr ⟨fun w hm => hw w (mem_filter.mp hm).1, fun x hx => ?_⟩, fun p => ?_⟩
  · obtain ⟨w, hm, hx⟩ := mem_flatMap.mp hx
    exact ((hpiece w hm).1 x hx).1
  rw [fragments, spliced, covers_append]
  constructor
  · rintro (⟨w, hm, hp⟩ | ⟨x, hx, hp⟩)
    · obtain ⟨hm, ht'⟩ := mem_filter.mp hm
      rw [Bool.not_eq_true', ← Bool.not_eq_true, touches_iff hs ht (hw w hm)] at ht'
      exact ⟨⟨w, hm, hp⟩, by omega⟩
    · obtain ⟨w, hm, hx⟩ := mem_flatMap.mp hx
      obtain ⟨h1, h2, h3⟩ := ((hpiece w hm).2 p).mp ⟨x, hx, hp⟩
      exact ⟨⟨w, (mem_filter.mp hm).1, h1, h2⟩, h3⟩
  rintro ⟨⟨w, hm, hp⟩, hout⟩
  by_cases ht' : touches start stop toTop w = true
  · have hm : w ∈ work.filter (touches start stop toTop) := mem_filter.mpr ⟨hm, ht'⟩
    obtain ⟨x, hx, hp⟩ := ((hpiece w hm).2 p).mpr ⟨hp.1, hp.2, hout⟩
    exact .inr ⟨x, mem_flatMap.mpr ⟨w, hm, hx⟩, hp⟩
  · exact .inl ⟨w, mem_filter.mpr ⟨hm, by simpa using ht'⟩, hp⟩

end Carving

section Merging

variable {xs : List MemoryRegion}

lemma insertRegion_perm (sorted : List MemoryRegion) (key : MemoryRegion) : (insertRegion sorted key).Perm (key :: sorted) := by
  refine perm_middle.trans (List.Perm.cons key ?_)
  rw [rdropWhile_append_rtakeWhile]

lemma insertRegion_sorted {sorted : List MemoryRegion} (key : MemoryRegion)
    (h : sorted.Pairwise fun a b => a.base ≤ b.base) : (insertRegion sorted key).Pairwise fun a b => a.base ≤ b.base := by
  induction sorted using reverseRecOn with
  | nil => simp [insertRegion]
  | append_singleton xs x ih =>
  obtain ⟨hxs, -, hlast⟩ := pairwise_append.mp h
  have hx (y) (hy : y ∈ xs) : y.base ≤ x.base := hlast y hy x (by simp)
  by_cases hgt : x.base > key.base
  · have hstep : insertRegion (xs ++ [x]) key = insertRegion xs key ++ [x] := by
      rw [insertRegion, rdropWhile_concat_pos _ _ _ (by simpa using hgt), rtakeWhile_concat_pos _ _ _ (by simpa using hgt)]
      simp [insertRegion]
    rw [hstep]
    refine pairwise_append.mpr ⟨ih hxs, by simp, fun y hy => forall_mem_singleton.mpr ?_⟩
    rcases mem_cons.mp ((insertRegion_perm xs key).subset hy) with rfl | hy
    · exact hgt.le
    · exact hx y hy
  have hstep : insertRegion (xs ++ [x]) key = xs ++ [x] ++ [key] := by
    rw [insertRegion, rdropWhile_concat_neg _ _ _ (by simpa using hgt), rtakeWhile_concat_neg _ _ _ (by simpa using hgt)]
  rw [hstep]
  refine pairwise_append.mpr ⟨h, by simp, fun y hy => forall_mem_singleton.mpr ?_⟩
  rcases mem_append.mp hy with hy | hy
  · have := hx y hy
    omega
  · obtain rfl := mem_singleton.mp hy
    omega

lemma sort_spec (xs : List MemoryRegion) :
    (xs.foldl insertRegion []).Perm xs ∧ (xs.foldl insertRegion []).Pairwise fun a b => a.base ≤ b.base := by
  induction xs using reverseRecOn with
  | nil => simp
  | append_singleton xs x ih =>
  simp only [foldl_append, foldl_cons, foldl_nil]
  refine ⟨(insertRegion_perm _ x).trans ((List.Perm.cons x ih.1).trans ?_), insertRegion_sorted x ih.2⟩
  exact (perm_append_singleton x xs).symm

def Separate (xs : List MemoryRegion) : Prop := xs.Pairwise fun a b => a.stop < b.base

lemma mergeRegion_concat {prev : MemoryRegion} (us : List MemoryRegion) (hp : prev.Block pageSize) (hw : w.Block pageSize) :
    mergeRegion (us ++ [prev]) w = if prev.stop ≠ top ∧ w.base ≤ prev.stop then
      (if prev.stop < w.stop then us ++ [⟨prev.base, wrap (w.stop - prev.base), prev.type⟩] else us ++ [prev])
      else us ++ [prev] ++ [w] := by
  have hplt := hp.lt
  have hwlt := hw.lt
  have hends : (prev.wrappedEnd ≠ 0 ∧ w.base ≤ prev.wrappedEnd) ↔ prev.stop ≠ top ∧ w.base ≤ prev.stop := by
    rcases stop_cases prev with ⟨he, heq⟩ | ⟨he, heq, hlt⟩ <;> omega
  rw [mergeRegion, getLast?_append_of_ne_nil _ (by simp)]
  simp only [getLast?_singleton, dropLast_concat]
  by_cases hcond : prev.stop ≠ top ∧ w.base ≤ prev.stop
  · rw [if_pos (hends.mpr hcond), if_pos hcond]
    have hgrow : (w.wrappedEnd = 0 ∨ w.wrappedEnd > prev.wrappedEnd) ↔ prev.stop < w.stop := by
      rcases stop_cases prev with ⟨he, heq⟩ | ⟨he, heq, hlt⟩ <;> rcases stop_cases w with ⟨we, weq⟩ | ⟨we, weq, wlt⟩ <;> omega
    by_cases hlt : prev.stop < w.stop
    · rw [if_pos (hgrow.mpr hlt), if_pos hlt]
      rcases stop_cases w with ⟨we, weq⟩ | ⟨we, weq, wlt⟩
      · rw [if_pos we, weq]
        rfl
      · rw [if_neg we, ← weq, wrap_of_lt (show w.stop - prev.base < top by omega)]
    · rw [if_neg (fun h => hlt (hgrow.mp h)), if_neg hlt]
  · rw [if_neg (fun h => hcond (hends.mp h)), if_neg hcond]

/-- While no range reaches the top, a region joins the last range or becomes the new last one. -/
lemma mergeRegion_spec {usable : List MemoryRegion} (hb : ∀ u ∈ usable, u.Block pageSize) (hs : Separate usable)
    (hn : ∀ u ∈ usable, u.stop ≠ top) (hw : w.Block pageSize) (hle : ∀ u ∈ usable, u.base ≤ w.base) :
    ∃ us u, mergeRegion usable w = us ++ [u] ∧ us ⊆ usable ∧ (u.stop = top ↔ w.stop = top) ∧ u.Block pageSize ∧
      u.base ≤ w.base ∧ Separate (us ++ [u]) ∧ ∀ p, Covers (us ++ [u]) p ↔ Covers usable p ∨ (w.base ≤ p ∧ p < w.stop) := by
  have hwtop := hw.le
  have hnil (p) : ¬ Covers [] p := by simp [Covers]
  rcases eq_nil_or_concat usable with rfl | ⟨us, prev, rfl⟩
  · exact ⟨[], w, rfl, nofun, .rfl, hw, le_rfl, pairwise_singleton _ _, by simp [Covers]⟩
  rw [concat_eq_append] at *
  obtain ⟨hus, -, hgap⟩ := pairwise_append.mp hs
  have hp := hb prev (by simp)
  have hplt := hp.lt
  have hple := hle prev (by simp)
  have hpn := hn prev (by simp)
  rw [mergeRegion_concat us hp hw]
  by_cases hcond : w.base ≤ prev.stop
  · rw [if_pos ⟨hpn, hcond⟩]
    split
    · next hlt =>
      have hstop := stop_mk prev.type (show prev.base < w.stop by omega) hwtop
      refine ⟨us, _, rfl, subset_append_left _ _, by rw [hstop], Block.mk' _ (by omega) hwtop hp.base_dvd hw.stop_dvd, hple,
        pairwise_append.mpr ⟨hus, by simp, fun a ha => forall_mem_singleton.mpr (hgap a ha prev (by simp))⟩, fun p => ?_⟩
      rw [covers_append, covers_append, covers_cons, covers_cons, hstop, or_assoc]
      simp only [hnil, or_false]
      refine or_congr_right ?_
      omega
    next hge =>
    have := hp.le
    refine ⟨us, prev, rfl, subset_append_left _ _, by omega, hp, hple, hs, fun p => ⟨.inl, fun h => h.elim id fun hx => ?_⟩⟩
    exact ⟨prev, by simp, by omega, by omega⟩
  rw [if_neg fun h => hcond h.2]
  refine ⟨us ++ [prev], w, rfl, Subset.refl _, .rfl, hw, le_rfl, pairwise_append.mpr ⟨hs, by simp, fun a ha =>
    forall_mem_singleton.mpr ?_⟩, fun p => ?_⟩
  · rcases mem_append.mp ha with ha | ha
    · have := hgap a ha prev (by simp)
      omega
    · obtain rfl := mem_singleton.mp ha
      omega
  · rw [covers_append, covers_cons]
    simp only [hnil, or_false]

def merge (xs : List MemoryRegion) : List MemoryRegion := xs.foldl mergeRegion []

lemma merge_concat (xs : List MemoryRegion) (w : MemoryRegion) : merge (xs ++ [w]) = mergeRegion (merge xs) w := by
  simp [merge]

lemma merge_spec (hs : xs.Pairwise fun a b => a.base ≤ b.base) (hb : ∀ x ∈ xs, x.Block pageSize)
    (hn : ∀ x ∈ xs.dropLast, x.stop ≠ top) :
    (∀ u ∈ merge xs, u.Block pageSize ∧ (∃ x ∈ xs, u.base ≤ x.base) ∧ (u.stop = top → ∃ x ∈ xs, x.stop = top)) ∧
      Separate (merge xs) ∧ (∀ p, Covers (merge xs) p ↔ Covers xs p) ∧
      ((∃ x ∈ xs, x.stop = top) → ∃ us u, merge xs = us ++ [u] ∧ u.stop = top) := by
  induction xs using reverseRecOn with
  | nil => simp [merge, Separate]
  | append_singleton xs x ih =>
  rw [dropLast_concat] at hn
  obtain ⟨hxs, -, hlast⟩ := pairwise_append.mp hs
  obtain ⟨h1, h2, h3, -⟩ := ih hxs (fun y hy => hb y (by simp [hy])) fun y hy => hn y (dropLast_subset _ hy)
  have hle : ∀ u ∈ merge xs, u.base ≤ x.base := by
    intro u hu
    obtain ⟨-, ⟨y, hy, hle⟩, -⟩ := h1 u hu
    exact hle.trans (hlast y hy x (by simp))
  have hlow : ∀ u ∈ merge xs, u.stop ≠ top := fun u hu ht =>
    have ⟨y, hy, hyt⟩ := (h1 u hu).2.2 ht
    hn y hy hyt
  obtain ⟨us, u, he, hsub, htop, hu, hbase, hsep, hcov⟩ := mergeRegion_spec (fun u hu => (h1 u hu).1) h2 hlow (hb x (by simp)) hle
  rw [merge_concat, he]
  refine ⟨forall_mem_append.mpr ⟨fun v hv => ?_, forall_mem_singleton.mpr ⟨hu, ⟨x, by simp, hbase⟩,
    fun ht => ⟨x, by simp, htop.mp ht⟩⟩⟩, hsep, fun p => ?_, ?_⟩
  · exact ⟨(h1 v (hsub hv)).1, ⟨x, by simp, hle v (hsub hv)⟩, fun ht => absurd ht (hlow v (hsub hv))⟩
  · rw [hcov, h3, covers_append, covers_cons]
    simp [Covers]
  · rintro ⟨y, hy, hyt⟩
    rcases mem_append.mp hy with hy | hy
    · exact absurd hyt (hn y hy)
    · rw [mem_singleton.mp hy] at hyt
      exact ⟨us, u, rfl, htop.mpr hyt⟩

lemma mergeRegion_bases (usable : List MemoryRegion) (w : MemoryRegion) : (mergeRegion usable w).map base = usable.map base ∨
    (mergeRegion usable w).map base = usable.map base ++ [w.base] := by
  rcases eq_nil_or_concat usable with rfl | ⟨us, prev, rfl⟩
  · exact .inr rfl
  rw [concat_eq_append, mergeRegion, getLast?_append_of_ne_nil _ (by simp)]
  simp only [getLast?_singleton, dropLast_concat]
  split_ifs <;> simp

lemma merge_bases (xs : List MemoryRegion) : ((merge xs).map base).Sublist (xs.map base) := by
  induction xs using reverseRecOn with
  | nil => exact .slnil
  | append_singleton xs x ih =>
  rw [merge_concat, map_append]
  rcases mergeRegion_bases (merge xs) x with h | h <;> rw [h]
  · exact ih.trans (sublist_append_left _ _)
  · exact ih.append (.refl _)

lemma mergeRegion_append (us : List MemoryRegion) {vs : List MemoryRegion} (hv : vs ≠ []) (w : MemoryRegion) :
    mergeRegion (us ++ vs) w = us ++ mergeRegion vs w ∧ mergeRegion vs w ≠ [] := by
  obtain ⟨ys, prev, rfl⟩ := (eq_nil_or_concat vs).resolve_left hv
  rw [concat_eq_append, mergeRegion, mergeRegion, ← append_assoc, getLast?_append_of_ne_nil _ (by simp),
    getLast?_append_of_ne_nil _ (by simp)]
  simp only [getLast?_singleton, dropLast_concat]
  split_ifs <;> simp

/-- Behind a range that reaches the top the merge starts again. -/
lemma foldl_merge_top {us : List MemoryRegion} {u : MemoryRegion} (hu : u.stop = top) (xs : List MemoryRegion) :
    xs.foldl mergeRegion (us ++ [u]) = us ++ [u] ++ merge xs := by
  have hkeep (ys vs : List MemoryRegion) (hv : vs ≠ []) : ys.foldl mergeRegion (us ++ [u] ++ vs) =
      us ++ [u] ++ ys.foldl mergeRegion vs := by
    induction ys generalizing vs with
    | nil => rfl
    | cons y ys ih =>
      obtain ⟨he, hne⟩ := mergeRegion_append (us ++ [u]) hv y
      rw [foldl_cons, foldl_cons, he, ih _ hne]
  cases xs with
  | nil => simp [merge]
  | cons x xs =>
    have hend : u.wrappedEnd = 0 := by
      rcases stop_cases u with h | ⟨-, -, h⟩
      · exact h.1
      · exact absurd hu h.ne
    have hx : mergeRegion (us ++ [u]) x = us ++ [u] ++ [x] := by
      rw [mergeRegion, getLast?_append_of_ne_nil _ (by simp)]
      simp [hend]
    rw [foldl_cons, hx, hkeep xs [x] (by simp)]
    rfl

/-- The regions in groups, each of which ends with a region that reaches the top. -/
def groups (group : List MemoryRegion) : List MemoryRegion → List (List MemoryRegion)
  | [] => [group]
  | w :: ws => if w.stop = top then (group ++ [w]) :: groups [] ws else groups (group ++ [w]) ws

lemma groups_flatten (group xs : List MemoryRegion) : (groups group xs).flatten = group ++ xs := by
  induction xs generalizing group with
  | nil => simp [groups]
  | cons x xs ih =>
    rw [groups]
    split <;> simp [ih]

lemma covers_groups (xs : List MemoryRegion) (p : ℕ) : Covers xs p ↔ ∃ g ∈ groups [] xs, Covers g p := by
  conv_lhs => rw [← nil_append xs, ← groups_flatten]
  simp only [Covers, mem_flatten]
  tauto

lemma groups_low {group : List MemoryRegion} (hg : ∀ x ∈ group, x.stop ≠ top) :
    ∀ g ∈ groups group xs, ∀ x ∈ g.dropLast, x.stop ≠ top := by
  induction xs generalizing group with
  | nil => exact forall_mem_singleton.mpr fun x hx => hg x (dropLast_subset _ hx)
  | cons x xs ih =>
    rw [groups]
    split
    · refine forall_mem_cons.mpr ⟨fun y hy => ?_, ih (by simp)⟩
      rw [dropLast_concat] at hy
      exact hg y hy
    · next hx => exact ih (forall_mem_append.mpr ⟨hg, by simpa using hx⟩)

lemma merge_groups (group : List MemoryRegion) (hg : ∀ x ∈ group, x.stop ≠ top)
    (hs : (group ++ xs).Pairwise fun a b => a.base ≤ b.base) (hb : ∀ x ∈ group ++ xs, x.Block pageSize) :
    xs.foldl mergeRegion (merge group) = (groups group xs).flatMap merge := by
  induction xs generalizing group with
  | nil => simp [groups]
  | cons x xs ih =>
  have hsplit : group ++ x :: xs = group ++ [x] ++ xs := by simp
  rw [hsplit] at hs hb
  rw [foldl_cons, ← merge_concat, groups]
  split
  · next hx =>
    obtain ⟨us, u, he, hu⟩ := (merge_spec (pairwise_append.mp hs).1 (fun y hy => hb y (mem_append_left _ hy))
      (by rwa [dropLast_concat])).2.2.2 ⟨x, by simp, hx⟩
    rw [flatMap_cons, he, foldl_merge_top hu]
    congr 1
    exact ih [] (by simp) (pairwise_append.mp hs).2.1 fun y hy => hb y (mem_append_right _ hy)
  · next hx => exact ih _ (forall_mem_append.mpr ⟨hg, by simpa using hx⟩) hs hb

lemma Separate.whole (hs : Separate xs) (hb : ∀ x ∈ xs, x.Block pageSize) (hall : ∀ p, Page pageSize p → Covers xs p)
    (ht : pageSize ∣ top) : ∃ x, xs = [x] ∧ x.base = 0 ∧ x.stop = top := by
  have hp0 : Page pageSize 0 := ⟨dvd_zero _, by rw [Nat.zero_add]; exact Nat.le_of_dvd (Nat.succ_pos _) ht⟩
  cases xs with
  | nil =>
    obtain ⟨x, hx, -⟩ := hall 0 hp0
    simp at hx
  | cons x xs =>
  obtain ⟨hx, -⟩ := pairwise_cons.mp hs
  have hxb := hb x (by simp)
  have hbase : x.base = 0 := by
    obtain ⟨y, hy, hle, -⟩ := hall 0 hp0
    rcases mem_cons.mp hy with rfl | hy
    · omega
    · have := hx y hy
      omega
  have hstop : x.stop = top := by
    by_contra hne
    have hlt := lt_of_le_of_ne hxb.le hne
    obtain ⟨y, hy, hle, hlt'⟩ := hall x.stop ⟨hxb.stop_dvd, page_add_le hxb.stop_dvd ht hlt⟩
    rcases mem_cons.mp hy with rfl | hy
    · omega
    · have := hx y hy
      omega
  refine ⟨x, congrArg (x :: ·) (eq_nil_iff_forall_not_mem.mpr fun y hy => ?_), hbase, hstop⟩
  have := hx y hy
  have := (hb y (by simp [hy])).lt
  have := (hb y (by simp [hy])).le
  omega

/-- A page is in one of the separate ranges by their sizes if it is covered and not everything is: the range over the whole
address space has size 0. -/
lemma Separate.contains (hs : Separate xs) (hb : ∀ x ∈ xs, x.Block pageSize) (ht : pageSize ∣ top) (hp : Page pageSize p) :
    (∃ r ∈ xs, r.base ≤ p ∧ p + pageSize ≤ r.base + r.size) ↔ Covers xs p ∧ ∃ q, Page pageSize q ∧ ¬ Covers xs q := by
  have hpos : 0 < pageSize := Nat.pos_of_dvd_of_pos ht (Nat.succ_pos _)
  have hsize (r) (hr : r ∈ xs) : r.base = 0 ∧ r.stop = top ∧ r.size = 0 ∨ r.base + r.size = r.stop := by
    have hblock := hb r hr
    have hlt := hblock.lt
    have hle := hblock.le
    rcases Nat.lt_or_ge (r.stop - r.base) top with h | h
    · rw [hblock.size, wrap_of_lt h]
      omega
    rw [hblock.size, show r.stop - r.base = top by omega]
    exact .inl ⟨by omega, by omega, Nat.mod_self _⟩
  constructor
  · rintro ⟨r, hr, h1, h2⟩
    have hfit : r.base + r.size = r.stop := (hsize r hr).resolve_left (by omega)
    refine ⟨⟨r, hr, h1, by omega⟩, ?_⟩
    by_contra hall
    push Not at hall
    obtain ⟨x, rfl, hbase, hstop⟩ := hs.whole hb hall ht
    rw [mem_singleton.mp hr] at hfit h2
    have := (hb x (by simp)).size
    rw [hstop, hbase, Nat.sub_zero, show wrap top = 0 from Nat.mod_self _] at this
    omega
  rintro ⟨⟨r, hr, h1, h2⟩, q, hq, hnone⟩
  refine ⟨r, hr, h1, ?_⟩
  rcases hsize r hr with ⟨hbase, hstop, -⟩ | hfit
  · exact absurd ⟨r, hr, by omega, by have := hq.2; omega⟩ hnone
  · rw [hfit]
    exact page_add_le hp.1 (hb r hr).stop_dvd h2

end Merging

inductive MapOp
  | add (base size : BitVec 64) (type : RegionType)
  | reserve (base size : BitVec 64) (type : RegionType)

namespace PhysicalMemoryMap

def step (m : PhysicalMemoryMap) : MapOp → PhysicalMemoryMap
  | .add base size type => (m.add ⟨base.toNat, size.toNat, type⟩).2
  | .reserve base size type => (m.reserve base.toNat size.toNat type).2

def runs (ops : List MapOp) : PhysicalMemoryMap := ops.foldl step {}

variable {m : PhysicalMemoryMap} {work : List MemoryRegion}

/-- What is left of the regions when every reservation has been taken out. -/
def remaining (pageSize : ℕ) (rs work : List MemoryRegion) : List MemoryRegion :=
  rs.foldl (fun work r => let (start, stop, toTop) := r.withheld pageSize
    fragments start stop toTop work) work

/-- The fragments of the usable regions, in the order of their bases. -/
def fragments (m : PhysicalMemoryMap) (pageSize : ℕ) : List MemoryRegion :=
  (remaining pageSize (m.inputs.filter fun r => r.type != .usable) (m.inputs.filterMap (candidate pageSize))).foldl insertRegion []

def Contains (m : PhysicalMemoryMap) (pageSize p : ℕ) : Prop :=
  ∃ r ∈ m.usable, r.base ≤ p ∧ p + pageSize ≤ r.base + r.size

def Wanted (m : PhysicalMemoryMap) (pageSize p : ℕ) : Prop :=
  (∃ r ∈ m.inputs, r.type = .usable ∧ r.base ≤ p ∧ p + pageSize ≤ r.base + r.size) ∧
    ∀ r ∈ m.inputs, r.type ≠ .usable → ¬ (r.base < p + pageSize ∧ p < r.base + r.size)

def Kept (m : PhysicalMemoryMap) (pageSize p : ℕ) : Prop :=
  (∃ r ∈ m.inputs, r.type = .usable ∧ r.base ≤ p ∧ p ≤ r.last) ∧ ∀ r ∈ m.inputs, r.type ≠ .usable → ¬ Withholds pageSize r p

lemma add_fits (h : ∀ r ∈ m.inputs, Fits r) (hs : r.size ≤ addressLimit) : ∀ x ∈ (m.add r).2.inputs, Fits x := by
  unfold add
  split
  · exact h
  next h0 =>
  split
  · exact h
  next hf =>
  split
  · exact h
  exact forall_mem_append.mpr ⟨h, forall_mem_singleton.mpr ⟨by omega, by unfold top; omega⟩⟩

lemma runs_fits (ops : List MapOp) : ∀ r ∈ (runs ops).inputs, Fits r := by
  induction ops using reverseRecOn with
  | nil => simp [runs]
  | append_singleton ops op ih =>
  simp only [runs, foldl_append, foldl_cons, foldl_nil]
  cases op with
  | add base size type => exact add_fits ih (Nat.le_of_lt_succ size.isLt)
  | reserve base size type =>
  unfold step reserve
  dsimp only
  split
  · exact ih
  · exact add_fits ih (Nat.le_of_lt_succ size.isLt)

lemma runs_length (ops : List MapOp) : (runs ops).inputs.length ≤ maxDiscoveredRegions := by
  have hadd {m : PhysicalMemoryMap} (r : MemoryRegion) (h : m.inputs.length ≤ maxDiscoveredRegions) :
      (m.add r).2.inputs.length ≤ maxDiscoveredRegions := by
    unfold add
    split_ifs with h1 h2 h3
    iterate 3 exact h
    · rw [length_append]
      exact Nat.lt_of_le_of_ne h h3
  induction ops using reverseRecOn with
  | nil => exact Nat.zero_le _
  | append_singleton ops op ih =>
  simp only [runs, foldl_append, foldl_cons, foldl_nil]
  cases op with
  | add base size type => exact hadd _ ih
  | reserve base size type =>
  unfold step reserve
  dsimp only
  split
  · exact ih
  · exact hadd _ ih

section Normalize

variable (h0 : 0 < pageSize) (ht : pageSize ∣ top)

include h0 ht

lemma candidates_spec (hf : ∀ r ∈ m.inputs, Fits r) : (∀ w ∈ m.inputs.filterMap (candidate pageSize), w.Block pageSize) ∧
    ∀ p, Page pageSize p → (Covers (m.inputs.filterMap (candidate pageSize)) p ↔
      ∃ r ∈ m.inputs, r.type = .usable ∧ r.base ≤ p ∧ p ≤ r.last) := by
  have husable (r w : MemoryRegion) (hw : r.candidate pageSize = some w) : r.type = .usable := by
    unfold candidate at hw
    split at hw
    · cases hw
    · next hu => simpa using hu
  simp only [Covers, mem_filterMap]
  refine ⟨fun w ⟨r, hr, hw⟩ => ((candidate_spec h0 ht (hf r hr) (husable r w hw)).1 w hw).1, fun p hp => ?_⟩
  constructor
  · rintro ⟨w, ⟨r, hr, hw⟩, hc⟩
    have hu := husable r w hw
    exact ⟨r, hr, hu, (((candidate_spec h0 ht (hf r hr) hu).1 w hw).2 p hp).mp hc⟩
  rintro ⟨r, hr, hu, hc⟩
  cases hw : r.candidate pageSize with
  | none => exact absurd hc ((candidate_spec h0 ht (hf r hr) hu).2 hw p hp)
  | some w => exact ⟨w, ⟨r, hr, hw⟩, (((candidate_spec h0 ht (hf r hr) hu).1 w hw).2 p hp).mpr hc⟩

lemma remaining_spec {rs : List MemoryRegion} (hf : ∀ r ∈ rs, Fits r) (hw : ∀ w ∈ work, w.Block pageSize) :
    (∀ w ∈ remaining pageSize rs work, w.Block pageSize) ∧ ∀ p, Page pageSize p →
      (Covers (remaining pageSize rs work) p ↔ Covers work p ∧ ∀ r ∈ rs, ¬ Withholds pageSize r p) := by
  induction rs generalizing work with
  | nil => exact ⟨hw, by simp [remaining]⟩
  | cons r rs ih =>
  obtain ⟨hd, hs, hd', hlt, hiff⟩ := withheld_spec h0 ht (hf r (by simp)) rfl
  obtain ⟨hb, hc⟩ := fragments_spec hs hlt hd hd' hw
  obtain ⟨ho, hcov⟩ := ih (fun x hx => hf x (by simp [hx])) hb
  refine ⟨ho, fun p hp => ?_⟩
  refine (hcov p hp).trans ?_
  rw [hc, hiff p hp]
  simp only [mem_cons, forall_eq_or_imp, and_assoc]

lemma fragments_sorted (hf : ∀ r ∈ m.inputs, Fits r) : ((m.fragments pageSize).Pairwise fun a b => a.base ≤ b.base) ∧
    (∀ w ∈ m.fragments pageSize, w.Block pageSize) ∧
    ∀ p, Page pageSize p → (Covers (m.fragments pageSize) p ↔ m.Kept pageSize p) := by
  obtain ⟨hb, hcov⟩ := candidates_spec h0 ht hf
  obtain ⟨hb', hcov'⟩ := remaining_spec h0 ht (fun r hr => hf r (mem_filter.mp hr).1) hb
  obtain ⟨hperm, hsorted⟩ := sort_spec (remaining pageSize (m.inputs.filter fun r => r.type != .usable)
    (m.inputs.filterMap (candidate pageSize)))
  refine ⟨hsorted, fun w hw => hb' w (hperm.subset hw), fun p hp => ?_⟩
  have hmem : Covers (m.fragments pageSize) p ↔ Covers (remaining pageSize (m.inputs.filter fun r => r.type != .usable)
      (m.inputs.filterMap (candidate pageSize))) p := by
    simp only [Covers, fragments, hperm.mem_iff]
  rw [hmem, hcov' p hp, hcov p hp]
  simp only [Kept, mem_filter, bne_iff_ne, and_imp]

lemma reservations_eq {rs : List MemoryRegion} (hf : ∀ r ∈ rs, Fits r) (hb : ∀ w ∈ work, w.Block pageSize)
    (hlen : work.length ≤ maxDiscoveredRegions) :
    let carved := rs.foldlM (fun work r => let (start, stop, toTop) := r.withheld pageSize
      carve start stop toTop (work.length + 1) work) work
    (Room pageSize rs work → carved = .ok (remaining pageSize rs work)) ∧
      (¬ Room pageSize rs work → ∃ status, carved = .error status) := by
  induction rs generalizing work with
  | nil => exact ⟨fun _ => rfl, fun h => absurd trivial h⟩
  | cons r rs ih =>
  rcases he : r.withheld pageSize with ⟨start, stop, toTop⟩
  obtain ⟨hd, hs, hd', hlt, -⟩ := withheld_spec h0 ht (hf r mem_cons_self) he
  obtain ⟨hok, herr⟩ := carve_eq hs hlt hd hd' (Nat.lt_succ_of_le countP_le_length) hb hlen
  simp only [foldlM_cons, Room, remaining, foldl_cons, he]
  by_cases hh : SpliceRoom (touches start stop toTop) (pieces start stop toTop) maxDiscoveredRegions work
  · rw [hok hh]
    obtain ⟨h1, h2⟩ := ih (fun x hx => hf x (mem_cons_of_mem r hx)) (fragments_spec hs hlt hd hd' hb).1 hh.length
    exact ⟨fun h => h1 h.2, fun h => h2 fun h' => h ⟨hh, h'⟩⟩
  · obtain ⟨status, hc⟩ := herr hh
    rw [hc]
    exact ⟨fun h => absurd h.1 hh, fun _ => ⟨status, rfl⟩⟩

end Normalize

/-- A normalization either merges the fragments or fails for want of room. -/
lemma normalize_eq (ops : List MapOp) (k : Fin 64) :
    let room := Room (2 ^ k.val) ((runs ops).inputs.filter fun r => r.type != .usable)
      ((runs ops).inputs.filterMap (candidate (2 ^ k.val)))
    (room → (runs ops).normalize (2 ^ k.val) =
      (.ok (), { runs ops with usable := merge ((runs ops).fragments (2 ^ k.val)), normalized := true })) ∧
    (¬ room → ∃ status, (runs ops).normalize (2 ^ k.val) = (.error status, runs ops)) := by
  have hpow : ∀ k : Fin 64, isPowerOfTwo (2 ^ k.val) = true := by decide
  have h0 : 0 < 2 ^ k.val := Nat.two_pow_pos _
  have ht := two_pow_dvd_top k
  have hf := runs_fits ops
  have hlen := (length_filterMap_le (candidate (2 ^ k.val)) (runs ops).inputs).trans (runs_length ops)
  have hc : (runs ops).candidates (2 ^ k.val) = .ok ((runs ops).inputs.filterMap (candidate (2 ^ k.val))) := by
    rw [candidates, push_iff (Nat.zero_le _), if_pos (by rwa [length_nil, Nat.zero_add])]
    rfl
  have hfits : ∀ r ∈ (runs ops).inputs.filter fun r => r.type != .usable, Fits r := fun r hr => hf r (mem_filter.mp hr).1
  obtain ⟨hok, herr⟩ := reservations_eq h0 ht hfits (candidates_spec h0 ht hf).1 hlen
  unfold normalize
  rw [hpow k, hc]
  dsimp only [remainder]
  refine ⟨fun hr => ?_, fun hr => ?_⟩
  · rw [hok hr]
    rfl
  · obtain ⟨status, he⟩ := herr hr
    rw [he]
    exact ⟨status, rfl⟩

lemma normalize_usable {ops : List MapOp} {k : Fin 64} (h : ((runs ops).normalize (2 ^ k.val)).1 = .ok ()) :
    ((runs ops).normalize (2 ^ k.val)).2.usable = (groups [] ((runs ops).fragments (2 ^ k.val))).flatMap merge := by
  obtain ⟨hok, herr⟩ := normalize_eq ops k
  rw [hok (by_contra fun hr => by obtain ⟨status, he⟩ := herr hr; rw [he] at h; cases h)]
  obtain ⟨hs, hb, -⟩ := fragments_sorted (Nat.two_pow_pos _) (two_pow_dvd_top k) (runs_fits ops)
  exact merge_groups [] (by simp) hs hb

/-- The merge of each group of fragments, whose ranges are separate. -/
lemma merge_group {ops : List MapOp} {k : Fin 64} {g : List MemoryRegion} (hg : g ∈ groups [] ((runs ops).fragments (2 ^ k.val))) :
    (∀ u ∈ merge g, u.Block (2 ^ k.val)) ∧ Separate (merge g) ∧ ∀ p, Covers (merge g) p ↔ Covers g p := by
  obtain ⟨hs, hb, -⟩ := fragments_sorted (Nat.two_pow_pos _) (two_pow_dvd_top k) (runs_fits ops)
  have hsub : g.Sublist ((runs ops).fragments (2 ^ k.val)) := by
    have := sublist_flatten_of_mem hg
    rwa [groups_flatten, nil_append] at this
  obtain ⟨h1, h2, h3, -⟩ := merge_spec (hs.sublist hsub) (fun x hx => hb x (hsub.subset hx)) (groups_low (by simp) g hg)
  exact ⟨fun u hu => (h1 u hu).1, h2, h3⟩

def Begins (m : PhysicalMemoryMap) (p : ℕ) : Prop := ∃ r ∈ m.inputs, r.type = .usable ∧ r.base ≤ p ∧ p ≤ r.last

/-- A byte of the page beyond its first one is reserved. -/
def Reserved (m : PhysicalMemoryMap) (pageSize p : ℕ) : Prop :=
  ∃ r ∈ m.inputs, r.type ≠ .usable ∧ r.base < p + pageSize ∧ p < r.last

def ZeroReserved (m : PhysicalMemoryMap) : Prop := ∃ r ∈ m.inputs, r.type ≠ .usable ∧ r.last = 0

/-- The inputs for which a normalization is right. Byte 0 is not reserved alone, unless nothing is wanted. A page that is not
complete in a usable region lies in another one or is reserved beyond its first byte, and so is a page whose first byte is
the last one of a reservation. If every page is kept, then the wanted pages are those of the groups of fragments that do not
make up the whole address space. -/
structure Regular (m : PhysicalMemoryMap) (pageSize : ℕ) : Prop where
  zero : m.ZeroReserved → ∀ p, Page pageSize p → ¬ m.Wanted pageSize p
  part : ¬ m.ZeroReserved → (∃ p, Page pageSize p ∧ ¬ (m.Begins p ∧ ¬ m.Reserved pageSize p)) →
    ∀ r ∈ m.inputs, r.type = .usable → ∀ p, Page pageSize p → r.base ≤ p → p ≤ r.last → r.base + r.size < p + pageSize →
      (∃ r' ∈ m.inputs, r'.type = .usable ∧ r'.base ≤ p ∧ p + pageSize ≤ r'.base + r'.size) ∨ m.Reserved pageSize p
  first : ¬ m.ZeroReserved → (∃ p, Page pageSize p ∧ ¬ (m.Begins p ∧ ¬ m.Reserved pageSize p)) →
    ∀ r ∈ m.inputs, r.type ≠ .usable → Page pageSize r.last → m.Begins r.last → m.Reserved pageSize r.last
  whole : ¬ m.ZeroReserved → (∀ p, Page pageSize p → m.Begins p ∧ ¬ m.Reserved pageSize p) → ∀ p, Page pageSize p →
    ((∃ g ∈ groups [] (m.fragments pageSize), Covers g p ∧ ∃ q, Page pageSize q ∧ ¬ Covers g q) ↔ m.Wanted pageSize p)

lemma kept_iff (h0 : 0 < pageSize) : m.Kept pageSize p ↔ m.Begins p ∧ ¬ m.Reserved pageSize p ∧ ¬ m.ZeroReserved := by
  unfold Kept Begins Reserved ZeroReserved Withholds
  refine and_congr_right fun _ => ⟨fun h => ⟨?_, ?_⟩, fun ⟨h1, h2⟩ r hr hu hw => ?_⟩
  · rintro ⟨r, hr, hu, hb, hl⟩
    exact h r hr hu ⟨hb, .inl hl⟩
  · rintro ⟨r, hr, hu, hl⟩
    exact h r hr hu ⟨by unfold last at hl; omega, .inr hl⟩
  · rcases hw with ⟨hb, hl | hl⟩
    · exact h1 ⟨r, hr, hu, hb, hl⟩
    · exact h2 ⟨r, hr, hu, hl⟩

theorem normalize_exact (ops : List MapOp) (k : Fin 64) (h : ((runs ops).normalize (2 ^ k.val)).1 = .ok ()) :
    (∀ p, Page (2 ^ k.val) p → (((runs ops).normalize (2 ^ k.val)).2.Contains (2 ^ k.val) p ↔ (runs ops).Wanted (2 ^ k.val) p)) ↔
      (runs ops).Regular (2 ^ k.val) := by
  have h0 : 0 < 2 ^ k.val := Nat.two_pow_pos _
  have ht := two_pow_dvd_top k
  have hf := runs_fits ops
  obtain ⟨-, -, hkept⟩ := fragments_sorted h0 ht hf
  have hgroups (p) (hp : Page (2 ^ k.val) p) : ((runs ops).normalize (2 ^ k.val)).2.Contains (2 ^ k.val) p ↔
      ∃ g ∈ groups [] ((runs ops).fragments (2 ^ k.val)), Covers g p ∧ ∃ q, Page (2 ^ k.val) q ∧ ¬ Covers g q := by
    have hg (g) (hg : g ∈ groups [] ((runs ops).fragments (2 ^ k.val))) : (∃ r ∈ merge g, r.base ≤ p ∧ p + 2 ^ k.val ≤
        r.base + r.size) ↔ Covers g p ∧ ∃ q, Page (2 ^ k.val) q ∧ ¬ Covers g q := by
      obtain ⟨hb, hs, hc⟩ := merge_group hg
      rw [hs.contains hb ht hp]
      simp only [hc]
    simp only [Contains, normalize_usable h, mem_flatMap]
    constructor
    · rintro ⟨r, ⟨g, hgm, hr⟩, hin⟩
      exact ⟨g, hgm, (hg g hgm).mp ⟨r, hr, hin⟩⟩
    · rintro ⟨g, hgm, hin⟩
      obtain ⟨r, hr, hin⟩ := (hg g hgm).mpr hin
      exact ⟨r, ⟨g, hgm, hr⟩, hin⟩
  have hall (p) (hp : Page (2 ^ k.val) p) : (∃ g ∈ groups [] ((runs ops).fragments (2 ^ k.val)), Covers g p) ↔
      (runs ops).Begins p ∧ ¬ (runs ops).Reserved (2 ^ k.val) p ∧ ¬ (runs ops).ZeroReserved := by
    rw [← kept_iff h0, ← hkept p hp, covers_groups]
  -- unless every page is kept, the map contains the pages that are kept
  have hsome (hex : ∃ q, Page (2 ^ k.val) q ∧ ¬ ((runs ops).Begins q ∧ ¬ (runs ops).Reserved (2 ^ k.val) q)) (p)
      (hp : Page (2 ^ k.val) p) : ((runs ops).normalize (2 ^ k.val)).2.Contains (2 ^ k.val) p ↔
        (runs ops).Begins p ∧ ¬ (runs ops).Reserved (2 ^ k.val) p ∧ ¬ (runs ops).ZeroReserved := by
    obtain ⟨q, hq, hno⟩ := hex
    rw [hgroups p hp, ← hall p hp]
    refine exists_congr fun g => and_congr_right fun hg => and_iff_left ⟨q, hq, fun hc => hno ?_⟩
    obtain ⟨h1, h2, -⟩ := (hall q hq).mp ⟨g, hg, hc⟩
    exact ⟨h1, h2⟩
  constructor
  · intro hiff
    refine ⟨fun hz p hp hw => ?_, fun hz hex r hr hu p hp h1 h2 h3 => ?_, fun hz hex r hr hu hp hb => ?_,
      fun _ _ p hp => (hgroups p hp).symm.trans (hiff p hp)⟩
    · obtain ⟨g, hg, hc, -⟩ := (hgroups p hp).mp ((hiff p hp).mpr hw)
      exact ((hall p hp).mp ⟨g, hg, hc⟩).2.2 hz
    · by_contra hno
      rw [not_or] at hno
      exact hno.1 ((hiff p hp).mp ((hsome hex p hp).mpr ⟨⟨r, hr, hu, h1, h2⟩, hno.2, hz⟩)).1
    · by_contra hno
      have hlast := (hf r hr).1
      refine ((hiff _ hp).mp ((hsome hex _ hp).mpr ⟨hb, hno, hz⟩)).2 r hr hu ?_
      unfold last
      omega
  intro hreg p hp
  by_cases hz : (runs ops).ZeroReserved
  · refine iff_of_false (fun hc => ?_) (hreg.zero hz p hp)
    obtain ⟨g, hg, hc, -⟩ := (hgroups p hp).mp hc
    exact ((hall p hp).mp ⟨g, hg, hc⟩).2.2 hz
  by_cases hw : ∀ p, Page (2 ^ k.val) p → (runs ops).Begins p ∧ ¬ (runs ops).Reserved (2 ^ k.val) p
  · rw [hgroups p hp]
    exact hreg.whole hz hw p hp
  push Not at hw
  have hex : ∃ q, Page (2 ^ k.val) q ∧ ¬ ((runs ops).Begins q ∧ ¬ (runs ops).Reserved (2 ^ k.val) q) := by
    obtain ⟨q, hq, hno⟩ := hw
    exact ⟨q, hq, by tauto⟩
  rw [hsome hex p hp]
  constructor
  · rintro ⟨⟨r, hr, hu, h1, h2⟩, hno, -⟩
    refine ⟨?_, fun r' hr' hu' ⟨hb, hl⟩ => hno ?_⟩
    · rcases Nat.lt_or_ge (r.base + r.size) (p + 2 ^ k.val) with h3 | h3
      · exact (hreg.part hz hex r hr hu p hp h1 h2 h3).resolve_right hno
      · exact ⟨r, hr, hu, h1, h3⟩
    · have hlast : p ≤ r'.last := by
        unfold last
        omega
      rcases hlast.eq_or_lt with rfl | hlt
      · exact hreg.first hz hex r' hr' hu' hp ⟨r, hr, hu, h1, h2⟩
      · exact ⟨r', hr', hu', hb, hlt⟩
  rintro ⟨⟨r, hr, hu, h1, h2⟩, hno⟩
  refine ⟨⟨r, hr, hu, h1, by unfold last; omega⟩, ?_, hz⟩
  rintro ⟨r', hr', hu', hb, hl⟩
  have := (hf r' hr').1
  exact hno r' hr' hu' ⟨hb, by unfold last at hl; omega⟩

def sample : List MapOp := [.add 4096 16484 .usable, .add 20480 8192 .usable, .reserve 12288 4096 .reserved]

lemma sample_inputs : (runs sample).inputs = [⟨4096, 16484, .usable⟩, ⟨20480, 8192, .usable⟩, ⟨12288, 4096, .reserved⟩] := by
  decide +kernel

theorem normalize_exact_sample : ((runs sample).normalize (2 ^ 12)).1 = .ok () ∧
    ((runs sample).normalize (2 ^ 12)).2.usable = [⟨4096, 8192, .usable⟩, ⟨16384, 12288, .usable⟩] ∧
    ∀ p, Page (2 ^ 12) p → (((runs sample).normalize (2 ^ 12)).2.Contains (2 ^ 12) p ↔ (runs sample).Wanted (2 ^ 12) p) := by
  refine ⟨by decide +kernel, by decide +kernel, (normalize_exact sample 12 (by decide +kernel)).mpr ⟨?_, ?_, ?_, ?_⟩⟩
  · simp [ZeroReserved, sample_inputs, last]
  · rintro - - r hr hu p ⟨⟨q, rfl⟩, -⟩ h1 h2 h3
    have hpage : 2 ^ (12 : Fin 64).val = 4096 := rfl
    simp only [sample_inputs, mem_cons, not_mem_nil, or_false, hpage] at hr h1 h2 h3 ⊢
    refine .inl ⟨⟨20480, 8192, .usable⟩, by simp, rfl, ?_⟩
    rcases hr with rfl | rfl | rfl
    · dsimp only [last] at h1 h2 h3 ⊢
      omega
    · dsimp only [last] at h1 h2 h3 ⊢
      omega
    · cases hu
  · simp [sample_inputs, last, Reserved, Begins, Page]
  · intro _ hall
    have h0 := (hall 0 ⟨dvd_zero _, by decide⟩).1
    simp [Begins, sample_inputs] at h0

/-- The page of a region's last byte is kept although it is not complete; a reservation of the first byte of a page is
lost; a reservation of byte 0 takes everything; and a map that is usable everywhere is one range of size 0. -/
theorem normalize_inexact :
    ((runs [.add 0 100 .usable]).normalize 4096).2.Contains 4096 0 ∧ ¬ (runs [.add 0 100 .usable]).Wanted 4096 0 ∧
    ((runs [.add 0 12288 .usable, .reserve 4096 1 .reserved]).normalize 4096).2.Contains 4096 4096 ∧
    ¬ (runs [.add 0 12288 .usable, .reserve 4096 1 .reserved]).Wanted 4096 4096 ∧
    ¬ ((runs [.add 0 12288 .usable, .reserve 0 1 .reserved]).normalize 4096).2.Contains 4096 4096 ∧
    (runs [.add 0 12288 .usable, .reserve 0 1 .reserved]).Wanted 4096 4096 ∧
    ((runs [.add 0 0x8000000000000000 .usable, .add 0x8000000000000000 0x8000000000000000 .usable]).normalize 4096).2.usable =
      [⟨0, 0, .usable⟩] := by
  unfold Contains Wanted
  refine ⟨by decide +kernel, by decide +kernel, by decide +kernel, by decide +kernel, by decide +kernel, by decide +kernel,
    by decide +kernel⟩

end PhysicalMemoryMap

end ObfuscationKernel.Memory
