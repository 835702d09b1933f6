import ObfuscationKernel.Library.Ring

/-! Reassembly of a stream from pieces that arrive in any order: a ring holds a window of
the stream, and a short list of spans says which positions beyond the readable part are filled. -/

namespace ObfuscationKernel.Library

open List

def swapRemove {α : Type} (l : List α) (i : ℕ) : List α :=
  match l.getLast? with
  | none => l
  | some x => (l.set i x).dropLast

section

variable {α β : Type}

lemma swapRemove_concat (l : List α) (x : α) (i : ℕ) : swapRemove (l ++ [x]) i = if i < l.length then l.set i x else l := by
  simp only [swapRemove, getLast?_concat]
  split
  · next h => rw [set_append_left i x h, dropLast_concat]
  next h =>
  rw [set_append_right i x (Nat.le_of_not_lt h)]
  cases i - l.length <;> simp

variable {i : ℕ}

lemma swapRemove_perm (l : List α) (h : i < l.length) : (swapRemove l i).Perm (l.eraseIdx i) := by
  obtain ⟨l, x, rfl⟩ := eq_nil_or_concat l |>.resolve_left (by rintro rfl; simp at h)
  rw [concat_eq_append, swapRemove_concat]
  rw [concat_eq_append, length_append, length_singleton] at h
  split
  · next hi =>
    rw [eraseIdx_append_of_lt_length hi]
    exact (set_perm_cons_eraseIdx hi x).trans (perm_append_singleton x _).symm
  next hi =>
  obtain rfl : i = l.length := by omega
  rw [eraseIdx_append_of_length_le le_rfl]
  simp

lemma length_swapRemove (l : List α) (h : i < l.length) : (swapRemove l i).length = l.length - 1 := by
  rw [(swapRemove_perm l h).length_eq, length_eraseIdx_of_lt h]

lemma mem_of_mem_swapRemove {l : List α} (h : i < l.length) {x : α} (hx : x ∈ swapRemove l i) : x ∈ l :=
  mem_of_mem_eraseIdx ((swapRemove_perm l h).mem_iff.mp hx)

lemma pairwise_swapRemove {R : α → α → Prop} (hR : ∀ {x y}, R x y → R y x) {l : List α}
    (h : i < l.length) (hl : l.Pairwise R) : (swapRemove l i).Pairwise R :=
  ((swapRemove_perm l h).pairwise_iff hR).mpr (hl.sublist (eraseIdx_sublist l i))

lemma swapRemove_getElem? (l : List α) {j : ℕ} (h : i < l.length) (hj : j < i) : (swapRemove l i)[j]? = l[j]? := by
  obtain ⟨l, x, rfl⟩ := eq_nil_or_concat l |>.resolve_left (by rintro rfl; simp at h)
  rw [concat_eq_append, length_append, length_singleton] at h
  rw [concat_eq_append, swapRemove_concat, getElem?_append_left (by omega)]
  split
  · rw [getElem?_set_ne (by omega)]
  · rfl

lemma map_swapRemove (f : α → β) (l : List α) (i : ℕ) : (swapRemove l i).map f = swapRemove (l.map f) i := by
  rcases eq_nil_or_concat l with rfl | ⟨l, x, rfl⟩
  · rfl
  rw [concat_eq_append, map_append, map_singleton, swapRemove_concat, swapRemove_concat, length_map]
  split
  · rw [map_set]
  · rfl

end

namespace Reassembly

/-- The positions from `start` up to `stop`; `fin` marks a stream that ends at `stop`. -/
structure Span where
  start : ℕ
  stop : ℕ
  fin : Bool
  deriving DecidableEq, Repr

namespace Span

def Apart (x y : Span) : Prop := x.stop < y.start ∨ y.stop < x.start

instance (x y : Span) : Decidable (Apart x y) := inferInstanceAs (Decidable (_ ∨ _))

lemma Apart.symm {x y : Span} (h : Apart x y) : Apart y x := Or.symm h

def hull (x y : Span) : Span :=
  let last := max x.stop y.stop
  ⟨min x.start y.start, last, x.fin && x.stop == last || y.fin && y.stop == last⟩

lemma Apart.hull {x y z : Span} (hx : Apart x z) (hy : Apart y z) (hxy : ¬ Apart x y)
    (hz : z.start ≤ z.stop) : Apart (x.hull y) z := by
  simp only [Apart, Span.hull] at *
  omega

end Span

def absorb : ℕ → List Span → Span → List Span × Span
  | 0, l, x => (l, x)
  | k + 1, l, x =>
    match l[l.length - (k + 1)]? with
    | none => (l, x)
    | some r => if x.Apart r then absorb k l x else absorb k (swapRemove l (l.length - (k + 1))) (x.hull r)

section

variable {P : Span → Prop} (hP : ∀ x y, P x → P y → ¬ x.Apart y → P (x.hull y))
  (hle : ∀ x, P x → x.start ≤ x.stop)
include hP hle

lemma absorb_spec (k : ℕ) (l : List Span) (x : Span) (hk : k ≤ l.length) (hl : ∀ r ∈ l, P r) (hx : P x)
    (hp : l.Pairwise Span.Apart) (hd : ∀ j r, j < l.length - k → l[j]? = some r → x.Apart r) :
    (∀ r ∈ (absorb k l x).1, P r ∧ (absorb k l x).2.Apart r) ∧ P (absorb k l x).2 ∧
      (absorb k l x).1.Pairwise Span.Apart ∧ (absorb k l x).1.length ≤ l.length := by
  induction k generalizing l x with
  | zero =>
    refine ⟨fun r hr => ⟨hl r hr, ?_⟩, hx, hp, le_rfl⟩
    obtain ⟨j, hj⟩ := mem_iff_getElem?.mp hr
    exact hd j r (by have := List.getElem?_eq_some_iff.mp hj; obtain ⟨h, _⟩ := this; simpa [absorb] using h) hj
  | succ k ih =>
  have hi : l.length - (k + 1) < l.length := by omega
  obtain ⟨r, hr⟩ : ∃ r, l[l.length - (k + 1)]? = some r := ⟨_, getElem?_eq_getElem hi⟩
  have hmem := mem_of_getElem? hr
  simp only [absorb, hr]
  split
  · next ha =>
    refine ih l x (by omega) hl hx hp fun j s hj hs => ?_
    rcases Nat.lt_or_ge j (l.length - (k + 1)) with h | h
    · exact hd j s h hs
    obtain rfl : j = l.length - (k + 1) := by omega
    rw [hr] at hs
    cases hs
    exact ha
  next ha =>
  have hlen := length_swapRemove l hi
  refine (ih _ _ (by omega) (fun s hs => hl s (mem_of_mem_swapRemove hi hs)) (hP x r hx (hl r hmem) ha)
    (pairwise_swapRemove Span.Apart.symm hi hp) fun j s hj hs => ?_).imp id fun h =>
      ⟨h.1, h.2.1, h.2.2.trans (by omega)⟩
  have hj : j < l.length - (k + 1) := by omega
  rw [swapRemove_getElem? l hi hj] at hs
  have hjl := (List.getElem?_eq_some_iff.mp hs)
  have hrl := (List.getElem?_eq_some_iff.mp hr)
  obtain ⟨hjl, rfl⟩ := hjl
  obtain ⟨hrl, rfl⟩ := hrl
  exact (hd j _ hj hs).hull (pairwise_iff_getElem.mp hp j _ hjl hrl hj).symm ha
    (hle _ (hl _ (getElem_mem hjl)))

end

/-- A window of `n` stream positions from `first` on: up to `next` they are readable, beyond it the
spans say which are filled. -/
structure Assembly (α : Type) (n : ℕ) where
  cells : Ring α n
  first : ℕ
  next : ℕ
  spans : List Span
  closed : Bool

namespace Assembly

variable {α : Type} {n : ℕ} (a : Assembly α n)

def remember (records : ℕ) (x : Span) : Assembly α n :=
  if x.start = x.stop && !x.fin then a
  else
    let (spans, x) := absorb a.spans.length a.spans x
    { a with spans := if spans.length < records then spans ++ [x] else spans }

def joinAt (i : ℕ) (s : Span) (final : Bool) : Assembly α n × Bool :=
  if a.next < s.stop then ({ a with next := s.stop, spans := swapRemove a.spans i }, s.fin)
  else ({ a with spans := swapRemove a.spans i }, s.fin && s.stop == a.next || final)

def joinStep (final : Bool) : Option (Assembly α n × Bool) := do
  let i ← a.spans.findIdx? fun s => decide (s.start ≤ a.next)
  let s ← a.spans[i]?
  some (a.joinAt i s final)

def join : ℕ → Assembly α n × Bool → Assembly α n × Bool
  | 0, p => p
  | k + 1, p =>
    match joinStep p.1 p.2 with
    | none => p
    | some p' => join k p'

def place (records pos : ℕ) (data : List α) (fin : Bool) : Assembly α n :=
  let count := min data.length (a.first + n - pos)
  let closes := fin && count == data.length
  let a := { a with cells := a.cells.store pos (data.take count) }
  if pos ≠ a.next then a.remember records ⟨pos, pos + count, closes⟩
  else
    let (a, final) := join a.spans.length ({ a with next := a.next + count }, closes)
    if final && decide (a.next < a.first + n) then { a with closed := true, spans := [] } else a

lemma remember_frame (records : ℕ) (x : Span) :
    (a.remember records x).cells = a.cells ∧ (a.remember records x).first = a.first ∧
      (a.remember records x).next = a.next ∧ (a.remember records x).closed = a.closed := by
  unfold remember
  split <;> exact ⟨rfl, rfl, rfl, rfl⟩

section

variable {a}

structure SameWindow (a b : Assembly α n) : Prop where
  cells : b.cells = a.cells
  first : b.first = a.first
  closed : b.closed = a.closed
  le_next : a.next ≤ b.next
  count : b.spans.length ≤ a.spans.length

lemma joinStep_none {final : Bool} (h : a.joinStep final = none) : ∀ s ∈ a.spans, a.next < s.start := by
  rcases hi : a.spans.findIdx? fun s => decide (s.start ≤ a.next) with _ | i
  · intro s hs
    have := findIdx?_eq_none_iff.mp hi s hs
    simpa using this
  · have hl := (findIdx?_eq_some_iff_getElem.mp hi).1
    simp [joinStep, hi, getElem?_eq_getElem hl] at h

lemma joinStep_some {p : Assembly α n × Bool} {final : Bool} (h : a.joinStep final = some p) :
    ∃ i, ∃ hl : i < a.spans.length, (a.spans.findIdx? fun s => decide (s.start ≤ a.next)) = some i ∧
      (a.spans[i]).start ≤ a.next ∧ p = a.joinAt i (a.spans[i]) final := by
  rcases hi : a.spans.findIdx? fun s => decide (s.start ≤ a.next) with _ | i
  · simp [joinStep, hi] at h
  obtain ⟨hl, hst, _⟩ := findIdx?_eq_some_iff_getElem.mp hi
  refine ⟨i, hl, hi, by simpa using hst, ?_⟩
  simpa [joinStep, hi, getElem?_eq_getElem hl] using h.symm

lemma joinAt_window {i : ℕ} (hl : i < a.spans.length) (s : Span) (final : Bool) :
    SameWindow a (a.joinAt i s final).1 ∧ (a.joinAt i s final).1.spans.length + 1 = a.spans.length := by
  have hs := length_swapRemove a.spans hl
  unfold joinAt
  split
  · exact ⟨⟨rfl, rfl, rfl, by dsimp only; omega, by dsimp only; omega⟩, by dsimp only; omega⟩
  · exact ⟨⟨rfl, rfl, rfl, le_rfl, by dsimp only; omega⟩, by dsimp only; omega⟩

lemma SameWindow.refl (a : Assembly α n) : SameWindow a a := ⟨rfl, rfl, rfl, le_rfl, le_rfl⟩

lemma SameWindow.trans {b c : Assembly α n} (h : SameWindow a b) (h' : SameWindow b c) : SameWindow a c :=
  ⟨h'.cells.trans h.cells, h'.first.trans h.first, h'.closed.trans h.closed, h.le_next.trans h'.le_next,
    h'.count.trans h.count⟩

end

variable [Inhabited α] (C : ℕ → α → Prop) (F : ℕ → Prop)

def Filled (cells : Ring α n) (i j : ℕ) : Prop := ∀ p, i ≤ p → p < j → C p (cells.get p)

structure Good (cells : Ring α n) (first : ℕ) (s : Span) : Prop where
  le : s.start ≤ s.stop
  stop_le : s.stop ≤ first + n
  first_le : first ≤ s.start
  filled : Filled C cells s.start s.stop
  fin : s.fin = true → F s.stop

structure Sane : Prop where
  first_le : a.first ≤ a.next
  next_le : a.next ≤ a.first + n
  filled : Filled C a.cells a.first a.next
  good : ∀ s ∈ a.spans, Good C F a.cells a.first s
  apart : a.spans.Pairwise Span.Apart

structure Ok (records : ℕ) : Prop extends a.Sane C F where
  count : a.spans.length ≤ records
  beyond : ∀ s ∈ a.spans, a.next < s.start
  closed : a.closed = true → a.spans = [] ∧ F a.next

variable {a C F} {records : ℕ} {cells : Ring α n} {first : ℕ}

lemma Good.hull {x y : Span} (hx : Good C F cells first x) (hy : Good C F cells first y) (hxy : ¬ x.Apart y) :
    Good C F cells first (x.hull y) := by
  simp only [Span.Apart, not_or, not_lt] at hxy
  obtain ⟨hx1, hx2, hx3, hx4, hx5⟩ := hx
  obtain ⟨hy1, hy2, hy3, hy4, hy5⟩ := hy
  refine ⟨by simp only [Span.hull]; omega, by simp only [Span.hull]; omega, by simp only [Span.hull]; omega, ?_, ?_⟩
  · intro p h1 h2
    simp only [Span.hull] at h1 h2
    rcases Nat.lt_or_ge p x.stop with h | h
    · rcases Nat.lt_or_ge p x.start with h' | h'
      · exact hy4 p (by omega) (by omega)
      · exact hx4 p h' h
    · exact hy4 p (by omega) (by omega)
  simp only [Span.hull, Bool.or_eq_true, Bool.and_eq_true, beq_iff_eq]
  rintro (⟨hf, he⟩ | ⟨hf, he⟩)
  · rw [← he]
    exact hx5 hf
  · rw [← he]
    exact hy5 hf

lemma Ok.remember (h : a.Ok C F records) {x : Span} (hx : Good C F a.cells a.first x) (hn : a.next < x.start)
    (hc : a.closed = false) : (a.remember records x).Ok C F records := by
  unfold Assembly.remember
  split
  · exact h
  have hP : ∀ x y, (Good C F a.cells a.first x ∧ a.next < x.start) →
      (Good C F a.cells a.first y ∧ a.next < y.start) → ¬ x.Apart y →
      Good C F a.cells a.first (x.hull y) ∧ a.next < (x.hull y).start := fun x y hx hy hxy =>
    ⟨hx.1.hull hy.1 hxy, by simp only [Span.hull]; omega⟩
  obtain ⟨h1, h2, h3, h4⟩ := absorb_spec hP (fun x hx => hx.1.le) a.spans.length a.spans x le_rfl
    (fun r hr => ⟨h.good r hr, h.beyond r hr⟩) ⟨hx, hn⟩ h.apart (by simp)
  have hr := h.count
  generalize absorb a.spans.length a.spans x = q at h1 h2 h3 h4
  obtain ⟨l, y⟩ := q
  dsimp only at h1 h2 h3 h4 ⊢
  have hall : ∀ s ∈ (if l.length < records then l ++ [y] else l), Good C F a.cells a.first s ∧ a.next < s.start := by
    split
    · exact forall_mem_append.mpr ⟨fun s hs => (h1 s hs).1, forall_mem_singleton.mpr h2⟩
    · exact fun s hs => (h1 s hs).1
  refine ⟨⟨h.first_le, h.next_le, h.filled, fun s hs => (hall s hs).1, ?_⟩, ?_, fun s hs => (hall s hs).2,
    by simp [hc]⟩ <;> dsimp only <;> split
  · exact pairwise_append.mpr
      ⟨h3, pairwise_singleton _ _, fun r hr => forall_mem_singleton.mpr (h1 r hr).2.symm⟩
  · exact h3
  · simp only [length_append, length_singleton]
    omega
  · omega

variable {C' : ℕ → α → Prop} {F' : ℕ → Prop}

lemma Sane.mono (h : a.Sane C F) (hC : ∀ p x, C p x → C' p x)
    (hF : ∀ p, F p → F' p) : a.Sane C' F' :=
  { h with
    filled := fun p h1 h2 => hC _ _ (h.filled p h1 h2)
    good := fun s hs => { h.good s hs with
      filled := fun p h1 h2 => hC _ _ ((h.good s hs).filled p h1 h2), fin := fun hf => hF _ ((h.good s hs).fin hf) } }

lemma Ok.mono (h : a.Ok C F records) (hC : ∀ p x, C p x → C' p x)
    (hF : ∀ p, F p → F' p) : a.Ok C' F' records :=
  ⟨h.toSane.mono hC hF, h.count, h.beyond, fun hc => ⟨(h.closed hc).1, hF _ (h.closed hc).2⟩⟩

lemma Sane.joinAt {i : ℕ} (hs : a.Sane C F) (final : Bool) (hf : final = true → F a.next)
    (hl : i < a.spans.length) (hst : (a.spans[i]).start ≤ a.next) :
    (a.joinAt i (a.spans[i]) final).1.Sane C F ∧
      ((a.joinAt i (a.spans[i]) final).2 = true → F (a.joinAt i (a.spans[i]) final).1.next) := by
  have hg := hs.good _ (getElem_mem hl)
  have hgood : ∀ s ∈ swapRemove a.spans i, Good C F a.cells a.first s :=
    fun s h => hs.good s (mem_of_mem_swapRemove hl h)
  have hpair := pairwise_swapRemove Span.Apart.symm hl hs.apart
  unfold Assembly.joinAt
  split
  · refine ⟨⟨?_, hg.stop_le, ?_, hgood, hpair⟩, hg.fin⟩
    · exact hg.first_le.trans hg.le
    intro p h1 h2
    rcases Nat.lt_or_ge p a.next with h | h
    · exact hs.filled p h1 h
    · exact hg.filled p (hst.trans h) h2
  refine ⟨⟨hs.first_le, hs.next_le, hs.filled, hgood, hpair⟩, ?_⟩
  simp only [Bool.or_eq_true, Bool.and_eq_true, beq_iff_eq]
  rintro (⟨h1, h2⟩ | h)
  · rw [← h2]
    exact hg.fin h1
  · exact hf h

lemma join_spec (C : ℕ → α → Prop) (F : ℕ → Prop) (a : Assembly α n) (final : Bool) {k : ℕ}
    (hk : a.spans.length ≤ k) :
    SameWindow a (join k (a, final)).1 ∧ (∀ s ∈ (join k (a, final)).1.spans, (join k (a, final)).1.next < s.start) ∧
      (a.Sane C F → (final = true → F a.next) →
        (join k (a, final)).1.Sane C F ∧ ((join k (a, final)).2 = true → F (join k (a, final)).1.next)) := by
  induction k generalizing a final with
  | zero =>
    have hz : a.spans = [] := length_eq_zero_iff.mp (by omega)
    exact ⟨.refl a, by simp [join, hz], fun hs hf => ⟨hs, hf⟩⟩
  | succ k ih =>
  simp only [join]
  split
  · next hn => exact ⟨.refl a, joinStep_none hn, fun hs hf => ⟨hs, hf⟩⟩
  next p hp =>
  obtain ⟨i, hi, _, hst, rfl⟩ := joinStep_some hp
  obtain ⟨hw, hl⟩ := joinAt_window hi (a.spans[i]) final
  obtain ⟨h1, h2, h3⟩ := ih (a.joinAt i (a.spans[i]) final).1 (a.joinAt i (a.spans[i]) final).2 (by omega)
  refine ⟨hw.trans h1, h2, fun hs hf => ?_⟩
  obtain ⟨hs', hf'⟩ := hs.joinAt final hf hi hst
  exact h3 hs' hf'

lemma Ok.read (h : a.Ok C F records) {k : ℕ} (hk : k ≤ a.next - a.first) :
    Ok { a with first := a.first + k } C F records := by
  have hfirst := h.first_le
  have hnext := h.next_le
  refine ⟨⟨by dsimp only; omega, by dsimp only; omega, fun p h1 h2 => ?_, fun s hs => ?_, h.apart⟩, h.count, h.beyond,
    h.closed⟩
  · exact h.filled p (by dsimp only at h1; omega) h2
  have hb := h.beyond s hs
  have hg := h.good s hs
  exact { hg with stop_le := by have := hg.stop_le; dsimp only; omega, first_le := by dsimp only; omega }

section

variable {pos : ℕ} {data : List α} {fin : Bool}

lemma Filled.store {i j count : ℕ} (h : Filled C cells i j) (hd : ∀ k (hk : k < data.length), C (pos + k) (data[k]))
    (hn : 0 < n) (hp : first ≤ pos) (hc : count ≤ data.length) (hw : pos + count ≤ first + n) (hi : first ≤ i)
    (hj : j ≤ first + n) : Filled C (cells.store pos (data.take count)) i j := by
  intro p h1 h2
  have hl : (data.take count).length = count := by simp [hc]
  by_cases hin : pos ≤ p ∧ p < pos + count
  · have hk : p - pos < (data.take count).length := by omega
    have hg := Ring.get_store_inside hn cells pos (data.take count) (by omega) hk
    rw [Nat.add_sub_cancel' hin.1] at hg
    rw [hg, getElem_take]
    have hd := hd (p - pos) (by omega)
    rwa [Nat.add_sub_cancel' hin.1] at hd
  · rw [Ring.get_store_outside _ _ _ (by omega)]
    exact h p h1 h2

lemma filled_store (cells : Ring α n) {count : ℕ} (hd : ∀ k (hk : k < data.length), C (pos + k) (data[k]))
    (hn : 0 < n) (hc : count ≤ data.length) (hw : count ≤ n) :
    Filled C (cells.store pos (data.take count)) pos (pos + count) := by
  intro p h1 h2
  have hk : p - pos < (data.take count).length := by
    rw [length_take]
    omega
  have hg := Ring.get_store_inside hn cells pos (data.take count) (by rw [length_take]; omega) hk
  have hd := hd (p - pos) (by rw [length_take] at hk; omega)
  rw [Nat.add_sub_cancel' h1] at hg hd
  rwa [hg, getElem_take]

lemma place_frame (a : Assembly α n) (records pos : ℕ) (data : List α) (fin : Bool) :
    (a.place records pos data fin).cells = a.cells.store pos (data.take (a.first + n - pos)) ∧
      (a.place records pos data fin).first = a.first ∧ a.next ≤ (a.place records pos data fin).next := by
  have ht : data.take (min data.length (a.first + n - pos)) = data.take (a.first + n - pos) := by
    rw [Nat.min_comm, ← take_take, take_length]
  unfold place
  dsimp only
  rw [ht]
  split
  · obtain ⟨h1, h2, h3, _⟩ := remember_frame
      { a with cells := a.cells.store pos (data.take (a.first + n - pos)) } records
      ⟨pos, pos + min data.length (a.first + n - pos), fin && min data.length (a.first + n - pos) == data.length⟩
    exact ⟨h1, h2, h3.ge⟩
  obtain ⟨hw, _, _⟩ := join_spec (fun _ _ => True) (fun _ => True)
    { a with
      cells := a.cells.store pos (data.take (a.first + n - pos))
      next := a.next + min data.length (a.first + n - pos) }
    (fin && min data.length (a.first + n - pos) == data.length) (k := a.spans.length) le_rfl
  generalize join a.spans.length _ = q at hw
  obtain ⟨b, final⟩ := q
  have hle := (Nat.le_add_right _ _).trans hw.le_next
  split <;> exact ⟨hw.cells, hw.first, hle⟩

/-- Placing carried values keeps the invariant. -/
theorem Ok.place (h : a.Ok C F records) (hn : 0 < n) (hc : a.closed = false) (hp : a.next ≤ pos)
    (hw : pos < a.first + n) (hd : ∀ k (hk : k < data.length), C (pos + k) (data[k]))
    (hf : fin = true → F (pos + data.length)) : (a.place records pos data fin).Ok C F records := by
  have hfirst := h.first_le
  unfold Assembly.place
  dsimp only
  generalize hcount : min data.length (a.first + n - pos) = count
  have hstore {i j : ℕ} (h : Filled C a.cells i j) (hi : a.first ≤ i) (hj : j ≤ a.first + n) :
      Filled C (a.cells.store pos (data.take count)) i j :=
    h.store hd hn (hfirst.trans hp) (by omega) (by omega) hi hj
  have hnew := filled_store a.cells hd hn (show count ≤ data.length by omega) (by omega)
  have hclose : (fin && count == data.length) = true → F (pos + count) := by
    simp only [Bool.and_eq_true, beq_iff_eq]
    rintro ⟨h1, h2⟩
    rw [h2]
    exact hf h1
  have hgood : ∀ s ∈ a.spans, Good C F (a.cells.store pos (data.take count)) a.first s := fun s hs =>
    { h.good s hs with filled := hstore (h.good s hs).filled (h.good s hs).first_le (h.good s hs).stop_le }
  have hs : Ok { a with cells := a.cells.store pos (data.take count) } C F records :=
    { h with filled := hstore h.filled le_rfl h.next_le, good := hgood }
  split
  · next hne =>
    exact hs.remember ⟨by dsimp only; omega, by dsimp only; omega, by dsimp only; omega, hnew, hclose⟩
      (by dsimp only at hne ⊢; omega) hc
  next heq =>
  obtain rfl : pos = a.next := by simpa using heq
  obtain ⟨hwin, hbeyond, hsane⟩ := join_spec C F
    { a with cells := a.cells.store a.next (data.take count), next := a.next + count }
    (fin && count == data.length) (k := a.spans.length) le_rfl
  obtain ⟨hsane, hfin⟩ := hsane
    ⟨by dsimp only; omega, by dsimp only; omega, fun p h1 h2 => by
      rcases Nat.lt_or_ge p a.next with h | h
      · exact hs.filled p h1 h
      · exact hnew p h h2, hgood, h.apart⟩ hclose
  have hlen := hwin.count.trans h.count
  have hcl := hwin.closed.trans hc
  generalize join a.spans.length _ = q at hwin hbeyond hsane hfin hlen hcl
  obtain ⟨b, final⟩ := q
  dsimp only at hwin hbeyond hsane hfin hlen hcl ⊢
  split
  · next hfinal =>
    simp only [Bool.and_eq_true] at hfinal
    exact ⟨⟨hsane.first_le, hsane.next_le, hsane.filled, by simp, .nil⟩, by simp, by simp, fun _ => ⟨rfl, hfin hfinal.1⟩⟩
  · exact ⟨hsane, hlen, hbeyond, by simp [hcl]⟩

end

end Assembly

end Reassembly

end ObfuscationKernel.Library
