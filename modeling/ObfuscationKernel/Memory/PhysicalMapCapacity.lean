import ObfuscationKernel.Memory.PhysicalMapExact

/-! When a memory map has room for the fragments that its normalization goes through, and when its ranges are separate. -/

namespace ObfuscationKernel.Memory

open ObfuscationKernel.Core MemoryRegion Library List

variable {pageSize : ℕ} {xs : List MemoryRegion}

lemma mergeRegion_ne_nil (usable : List MemoryRegion) (w : MemoryRegion) : mergeRegion usable w ≠ [] := by
  rcases eq_or_ne usable [] with rfl | h
  · exact cons_ne_nil w []
  · exact (mergeRegion_append [] h w).2

lemma merge_ne_nil (h : xs ≠ []) : merge xs ≠ [] := by
  obtain ⟨ys, y, rfl⟩ := (eq_nil_or_concat xs).resolve_left h
  rw [concat_eq_append, merge_concat]
  exact mergeRegion_ne_nil _ _

/-- Behind the first region that reaches the top, a range is laid over the one that ends with that region. -/
lemma low_of_separate (hs : xs.Pairwise fun a b => a.base ≤ b.base) (hb : ∀ x ∈ xs, x.Block pageSize)
    (hm : ∀ u ∈ merge xs, u.Block pageSize) (h : Separate (merge xs)) : ∀ x ∈ xs.dropLast, x.stop ≠ top := by
  rcases eq_nil_or_concat xs with rfl | ⟨init, z, rfl⟩
  · simp
  rw [concat_eq_append] at *
  rw [dropLast_concat]
  by_contra hno
  push Not at hno
  obtain ⟨x, hx, hxt⟩ := hno
  obtain ⟨f, hf⟩ : ∃ f, init.find? (fun x => decide (x.stop = top)) = some f :=
    Option.isSome_iff_exists.mp (find?_isSome.mpr ⟨x, hx, decide_eq_true hxt⟩)
  obtain ⟨hft, ys, zs, rfl, hys⟩ := find?_eq_some_iff_append.mp hf
  have hsplit : ys ++ f :: zs ++ [z] = ys ++ [f] ++ (zs ++ [z]) := by simp
  rw [hsplit] at hs hb hm h
  obtain ⟨us, u, he, hu⟩ := (merge_spec (pairwise_append.mp hs).1 (fun y hy => hb y (mem_append_left _ hy))
    (by rw [dropLast_concat]; exact fun y hy => by simpa using hys y hy)).2.2.2 ⟨f, by simp, by simpa using hft⟩
  have hmerge : merge (ys ++ [f] ++ (zs ++ [z])) = us ++ [u] ++ merge (zs ++ [z]) := by
    rw [← foldl_merge_top hu, ← he]
    simp [merge]
  rw [hmerge] at h hm
  obtain ⟨v, hv⟩ := exists_mem_of_ne_nil _ (merge_ne_nil (show zs ++ [z] ≠ [] by simp))
  have hlt : u.stop < v.base := (pairwise_append.mp h).2.2 u (by simp) v hv
  have hblock := hm v (mem_append_right _ hv)
  have := hblock.lt
  have := hblock.le
  omega

namespace PhysicalMemoryMap

/-- A normalization succeeds if and only if there is room for the fragments, and what it leaves is in order; its ranges are
apart if and only if no fragment comes behind one that reaches the top. -/
theorem normalize_room (ops : List MapOp) (k : Fin 64) :
    (((runs ops).normalize (2 ^ k.val)).1 = .ok () ↔ Room (2 ^ k.val) ((runs ops).inputs.filter fun r => r.type != .usable)
      ((runs ops).inputs.filterMap (candidate (2 ^ k.val)))) ∧
    (((runs ops).normalize (2 ^ k.val)).1 = .ok () →
      let usable := ((runs ops).normalize (2 ^ k.val)).2.usable
      (∀ u ∈ usable, u.Block (2 ^ k.val)) ∧ (usable.Pairwise fun a b => a.base ≤ b.base) ∧
        (Separate usable ↔ ∀ w ∈ ((runs ops).fragments (2 ^ k.val)).dropLast, w.stop ≠ top) ∧
        ∀ p, Page (2 ^ k.val) p → (Covers usable p ↔ (runs ops).Kept (2 ^ k.val) p)) := by
  obtain ⟨hs, hb, hkept⟩ := fragments_sorted (Nat.two_pow_pos _) (show 2 ^ k.val ∣ 2 ^ 64 from Nat.pow_dvd_pow 2 k.isLt.le)
    (runs_fits ops)
  obtain ⟨hok, herr⟩ := normalize_eq ops k
  refine ⟨⟨fun h => by_contra fun hr => ?_, fun hr => by rw [hok hr]⟩, fun h => ?_⟩
  · obtain ⟨status, he⟩ := herr hr
    rw [he] at h
    cases h
  have hgroups := normalize_usable h
  have hmerge : ((runs ops).normalize (2 ^ k.val)).2.usable = merge ((runs ops).fragments (2 ^ k.val)) := by
    rw [hgroups]
    exact (merge_groups [] (by simp) hs hb).symm
  have hblocks : ∀ u ∈ ((runs ops).normalize (2 ^ k.val)).2.usable, u.Block (2 ^ k.val) := by
    rw [hgroups]
    intro u hu
    obtain ⟨g, hg, hu⟩ := mem_flatMap.mp hu
    exact (merge_group hg).1 u hu
  refine ⟨hblocks, ?_, ?_, fun p hp => ?_⟩
  · rw [hmerge, ← pairwise_map]
    exact (pairwise_map.mpr hs).sublist (merge_bases _)
  · rw [hmerge] at hblocks ⊢
    exact ⟨low_of_separate hs hb hblocks, fun hn => (merge_spec hs hb hn).2.1⟩
  · rw [← hkept p hp, covers_groups ((runs ops).fragments _), hgroups]
    constructor
    · rintro ⟨u, hu, hp⟩
      obtain ⟨g, hg, hu⟩ := mem_flatMap.mp hu
      exact ⟨g, hg, ((merge_group hg).2.2 p).mp ⟨u, hu, hp⟩⟩
    · rintro ⟨g, hg, hcover⟩
      obtain ⟨u, hu, hp⟩ := ((merge_group hg).2.2 p).mpr hcover
      exact ⟨u, mem_flatMap.mpr ⟨g, hg, hu⟩, hp⟩

/-- Two of the regions share a page, and the reservation splits the first one. -/
theorem normalize_room_sample : ((runs sample).normalize (2 ^ 12)).1 = .ok () ∧
    Separate ((runs sample).normalize (2 ^ 12)).2.usable := by
  have h := normalize_room sample 12
  have hok := h.1.mpr ⟨by unfold SpliceRoom; decide +kernel, trivial⟩
  exact ⟨hok, (h.2 hok).2.2.1.mpr (by decide +kernel)⟩

/-- A region that is reported 33 times is split 33 times. -/
def crowded : List MapOp := replicate 33 (.add 0 12288 .usable) ++ [.reserve 4096 4096 .reserved]

def stacked : List MapOp := [.add 0x8000000000000000 0x8000000000000000 .usable, .add 0x8000000000001000 4096 .usable]

theorem normalize_no_room : ((runs crowded).normalize 4096).1 = .error (.overflow "too many usable fragments after reservation") ∧
    (∀ p, Page 4096 p → ((runs crowded).Wanted 4096 p ↔ p = 0 ∨ p = 8192)) ∧
    ((runs stacked).normalize 4096).2.usable = [⟨2 ^ 63, 2 ^ 63, .usable⟩, ⟨2 ^ 63 + 4096, 4096, .usable⟩] := by
  have hin : (runs crowded).inputs = replicate 33 ⟨0, 12288, .usable⟩ ++ [⟨4096, 4096, .reserved⟩] := by decide +kernel
  refine ⟨by decide +kernel, ?_, by decide +kernel⟩
  rintro p ⟨⟨q, rfl⟩, -⟩
  simp [Wanted, hin]
  omega

end PhysicalMemoryMap

end ObfuscationKernel.Memory
