import ObfuscationKernel.Net.Neighbour
import Mathlib.Logic.Relation

/-! Integrity of the neighbour cache: what its operations do to the entries, and the history of the packets they hold. -/

namespace ObfuscationKernel.Net.Neighbour

open ObfuscationKernel.Core Library Wire List Function Slots Cache

variable {Address : Type} [Inhabited Address] [DecidableEq Address] {z : Sizes} {c d : Cache Address z} {g : Bool}
  {i j : Fin z.capacity} {s t : Fin z.pending} {a : Address} {now : ℕ}

/-- One change of an entry; a guarded change leaves permanent entries alone. -/
inductive Move (g : Bool) (c : Cache Address z) : Cache Address z → Prop
  | keep {d : Cache Address z} : d.entries = c.entries → d.pending = c.pending → d.order = c.order → Move g c d
  | touch {d : Cache Address z} (i : Fin z.capacity) (e : Entry Address) : (c.entries i).used = true → e.used = true →
      e.address = (c.entries i).address → (g = true → (c.entries i).state ≠ .permanent) →
      d.entries = Function.update c.entries i e → d.pending = c.pending → d.order = c.order → Move g c d
  | fill {d : Cache Address z} (i : Fin z.capacity) (e : Entry Address) : (c.entries i).used = false → e.used = true →
      (∀ j, (c.entries j).used = true → (c.entries j).address ≠ e.address) →
      d.entries = Function.update c.entries i e → d.pending = c.pending → d.order = c.order → Move g c d
  | drop {d : Cache Address z} (i : Fin z.capacity) : (c.entries i).used = true → (g = true → (c.entries i).state ≠ .permanent) →
      d.entries = Function.update c.entries i {} → d.pending = (c.drop i).pending → d.order = c.order → Move g c d

abbrev Moves (g : Bool) : Cache Address z → Cache Address z → Prop := Relation.ReflTransGen (Move g)

lemma Move.relax (h : Move g c d) : Move false c d := by
  cases h with
  | keep h1 h2 h3 => exact .keep h1 h2 h3
  | touch i e h1 h2 h3 _ h4 h5 h6 => exact .touch i e h1 h2 h3 (by simp) h4 h5 h6
  | fill i e h1 h2 h3 h4 h5 h6 => exact .fill i e h1 h2 h3 h4 h5 h6
  | drop i h1 _ h2 h3 h4 => exact .drop i h1 (by simp) h2 h3 h4

lemma Moves.relax (h : Moves g c d) : Moves false c d := by
  induction h with
  | refl => exact .refl
  | tail _ hm ih => exact ih.tail hm.relax

lemma Move.permanent (h : Move true c d) (hu : (c.entries i).used = true) (hp : (c.entries i).state = .permanent) :
    d.entries i = c.entries i := by
  cases h with
  | keep h1 => rw [h1]
  | touch k e _ _ _ hg h1 =>
    rw [h1, update_of_ne]
    rintro rfl
    exact hg rfl hp
  | fill k e hk _ _ h1 =>
    rw [h1, update_of_ne]
    rintro rfl
    simp [hu] at hk
  | drop k _ hg h1 =>
  rw [h1, update_of_ne]
  rintro rfl
  exact hg rfl hp

lemma Moves.permanent (h : Moves true c d) (hu : (c.entries i).used = true) (hp : (c.entries i).state = .permanent) :
    d.entries i = c.entries i := by
  induction h with
  | refl => rfl
  | tail _ hm ih => rw [hm.permanent (by rwa [ih]) (by rwa [ih]), ih]

namespace Cache

lemma lookup_some (h : c.lookup a = some i) : (c.entries i).used = true ∧ (c.entries i).address = a := by
  simpa using find?_some h

lemma lookup_none (h : c.lookup a = none) (hu : (c.entries i).used = true) : (c.entries i).address ≠ a := by
  have := find?_eq_none.mp h i (mem_finRange i)
  simpa [hu] using this

variable {e : Entry Address}

lemma put_moves (hu : (c.entries i).used = true) (he : e.used = true)
    (ha : e.address = (c.entries i).address) (hg : g = true → (c.entries i).state ≠ .permanent) : Moves g c (c.put i e) :=
  .single (.touch i e hu he ha hg rfl rfl rfl)

lemma vacancy_dynamic (h : c.vacancy = some i) (hu : (c.entries i).used = true) :
    (c.entries i).state ≠ .permanent ∧ c.held (c.entries i).address = 0 := by
  unfold vacancy at h
  cases hf : (finRange z.capacity).find? fun i => !(c.entries i).used with
  | some k =>
    rw [hf, Option.some_or] at h
    cases h
    have := find?_some hf
    simp [hu] at this
  | none =>
  rw [hf, Option.none_or] at h
  have := (least_some h).1
  simp only [Bool.and_eq_true, bne_iff_ne, beq_iff_eq] at this
  exact ⟨this.1.1, this.2⟩

lemma create_moves {r : Result (Fin z.capacity)} (hc : c.create a now = (r, d)) (hl : c.lookup a = none) :
    Moves true c d ∧ ∀ i, r = .ok i → ∀ e : Entry Address, e.used = (d.entries i).used →
      e.address = (d.entries i).address → Moves true c (d.put i e) := by
  unfold create at hc
  cases hv : c.vacancy with
  | none =>
    rw [hv] at hc
    cases hc
    exact ⟨.refl, by simp⟩
  | some k =>
  rw [hv] at hc
  dsimp only at hc
  obtain ⟨b, hm, hk, hn, hb⟩ : ∃ b : Cache Address z, Moves true c b ∧ (b.entries k).used = false ∧
      (∀ j, (b.entries j).used = true → (b.entries j).address ≠ a) ∧
      (Except.ok k, b.put k { b.entries k with used := true, address := a, usedAt := now }) = (r, d) := by
    split at hc
    · next hu =>
      refine ⟨_, ?_, ?_, fun j hj => ?_, hc⟩
      · exact .single (.drop k hu (fun _ => (vacancy_dynamic hv hu).1) rfl rfl rfl)
      · simp [drop]
      by_cases hjk : j = k
      · subst hjk
        simp [drop] at hj
      · simp only [drop, update_of_ne hjk] at hj ⊢
        exact lookup_none hl hj
    · next hu => exact ⟨c, .refl, by simpa using hu, fun j hj => lookup_none hl hj, hc⟩
  cases hb
  have hfill : ∀ {e : Entry Address} {d : Cache Address z}, e.used = true → e.address = a →
      d.entries = Function.update b.entries k e → d.pending = b.pending → d.order = b.order → Moves true c d :=
    fun h1 h2 h3 h4 h5 => hm.tail (.fill k _ hk h1 (fun j hj => h2 ▸ hn j hj) h3 h4 h5)
  refine ⟨hfill rfl rfl rfl rfl rfl, fun i hi => ?_⟩
  cases hi
  exact fun e h1 h2 => hfill (h1.trans (by simp [put])) (h2.trans (by simp [put])) (by simp [put]) rfl rfl

lemma resolve_moves (c : Cache Address z) (a : Address) (now : ℕ) : Moves false c (c.resolve a now).2 := by
  unfold resolve
  cases hl : c.lookup a with
  | none =>
    rcases hc : c.create a now with ⟨r, d⟩
    obtain ⟨hm, hi⟩ := create_moves hc hl
    cases r with
    | error status => exact hm.relax
    | ok i => refine (hi i rfl _ ?_ ?_).relax <;> rfl
  | some i =>
  obtain ⟨hu, -⟩ := lookup_some hl
  dsimp only
  split_ifs <;> exact put_moves hu hu rfl (by simp)

lemma countIgnored_moves : Moves true c c.countIgnored := .single (.keep rfl rfl rfl)

lemma announce_moves (c : Cache Address z) (a : Address) (mac : Option Mac) (now : ℕ) :
    Moves true c (c.announce a mac now).2 := by
  unfold announce
  cases mac with
  | none => exact .refl
  | some mac =>
  cases hl : c.lookup a with
  | none =>
    rcases hc : c.create a now with ⟨r, d⟩
    obtain ⟨hm, hi⟩ := create_moves hc hl
    cases r with
    | error status => exact hm
    | ok i => refine hi i rfl _ ?_ ?_ <;> rfl
  | some i =>
  obtain ⟨hu, -⟩ := lookup_some hl
  dsimp only
  split_ifs with h1 h2 h3
  · exact .refl
  · refine .single (.touch i _ hu ?_ ?_ (fun _ => h1) rfl rfl rfl)
    exacts [hu, rfl]
  · exact put_moves hu hu rfl fun _ => h1
  · exact .refl

omit [DecidableEq Address] in
lemma advertise_same (e : Entry Address) (mac : Option Mac) (flags : Advertisement) (now : ℕ) :
    (c.advertise e mac flags now).used = e.used ∧ (c.advertise e mac flags now).address = e.address := by
  unfold advertise moveTo
  dsimp only
  split_ifs <;> exact ⟨rfl, rfl⟩

lemma update_moves (c : Cache Address z) (a : Address) (mac : Option Mac) (kind : Update) (flags : Advertisement) (now : ℕ) :
    Moves true c (c.update a mac kind flags now).2 := by
  unfold update
  split
  · exact countIgnored_moves
  cases kind with
  | announcement => exact c.announce_moves a mac now
  | advertisement =>
  cases hl : c.lookup a with
  | none => exact countIgnored_moves
  | some i =>
  obtain ⟨hu, -⟩ := lookup_some hl
  dsimp only
  split
  · exact .refl
  next h1 =>
  split
  · cases mac with
    | none => exact countIgnored_moves
    | some mac =>
      refine .single (.touch i _ hu ?_ ?_ (fun _ => h1) rfl rfl rfl)
      exacts [hu, rfl]
  · obtain ⟨e1, e2⟩ := c.advertise_same (c.entries i) mac flags now
    exact put_moves hu (e1.trans hu) e2 fun _ => h1

lemma confirm_moves (c : Cache Address z) (a : Address) (now : ℕ) : Moves true c (c.confirm a now) := by
  unfold confirm
  cases hl : c.lookup a with
  | none => exact .refl
  | some i =>
  obtain ⟨hu, -⟩ := lookup_some hl
  dsimp only
  split_ifs with h
  · exact put_moves hu hu rfl fun _ => h.2
  · exact .refl

lemma addPermanent_moves (c : Cache Address z) (a : Address) (mac : Mac) (now : ℕ) :
    Moves false c (c.addPermanent a mac now).2 := by
  unfold addPermanent
  split
  · exact .refl
  cases hl : c.lookup a with
  | some i =>
    obtain ⟨hu, -⟩ := lookup_some hl
    exact put_moves hu hu rfl (by simp)
  | none =>
  rcases hc : c.create a now with ⟨r, d⟩
  obtain ⟨hm, hi⟩ := create_moves hc hl
  cases r with
  | error status => exact hm.relax
  | ok i => refine (hi i rfl _ ?_ ?_).relax <;> rfl

lemma remove_moves (c : Cache Address z) (a : Address) : Moves false c (c.remove a).2 := by
  unfold remove
  cases hl : c.lookup a with
  | none => exact .refl
  | some i => exact .single (.drop i (lookup_some hl).1 (by simp) rfl rfl rfl)

lemma probeEntry_moves {room : ℕ} {out : List (Solicitation Address)} (hu : (c.entries i).used = true)
    (he : e.used = true) (ha : e.address = (c.entries i).address) (hp : (c.entries i).state ≠ .permanent) :
    Moves true c (c.probeEntry now room i e out).2 := by
  unfold probeEntry
  dsimp only
  generalize (if (e.state == State.incomplete) = true then c.timing.multicastProbes else c.timing.unicastProbes) = limit
  by_cases hl : e.probes ≥ limit
  · rw [if_pos hl]
    exact .single (.drop i hu (fun _ => hp) rfl rfl rfl)
  rw [if_neg hl]
  by_cases hr : out.length = room
  · rw [if_pos hr]
    exact put_moves hu he ha fun _ => hp
  · rw [if_neg hr]
    exact put_moves hu he ha fun _ => hp

lemma tickEntry_moves (c : Cache Address z) (now room : ℕ) (out : List (Solicitation Address)) (i : Fin z.capacity) :
    Moves true c (c.tickEntry now room out i).2 := by
  unfold tickEntry
  dsimp only
  split_ifs with h
  · exact .refl
  simp only [Bool.or_eq_true, Bool.not_eq_true', beq_iff_eq, decide_eq_true_eq, not_or, Bool.not_eq_false] at h
  obtain ⟨⟨hu, hp⟩, -⟩ := h
  cases hs : (c.entries i).state with
  | reachable | stale => exact put_moves hu hu rfl fun _ => hp
  | delay | probe | incomplete => exact probeEntry_moves hu hu rfl hp
  | permanent => exact .refl

lemma tick_moves (c : Cache Address z) (now room : ℕ) : Moves true c (c.tick now room).2 := by
  have hf : ∀ (l : List (Fin z.capacity)) (acc : List (Solicitation Address) × Cache Address z), Moves true acc.2
      (l.foldl (fun acc i => acc.2.tickEntry now room acc.1 i) acc).2 := by
    intro l
    induction l with
    | nil => exact fun _ => .refl
    | cons i l ih => exact fun acc => (acc.2.tickEntry_moves now room acc.1 i).trans (ih _)
  exact hf _ ([], c)

end Cache

structure Table (c : Cache Address z) : Prop where
  unique : ∀ i j, (c.entries i).used = true → (c.entries j).used = true → (c.entries i).address = (c.entries j).address → i = j
  owned : ∀ s, (c.pending s).used = true → ∃ i, (c.entries i).used = true ∧ (c.entries i).address = (c.pending s).address
  bounded : ∀ a, c.held a ≤ z.perNeighbourPending

lemma Move.pending (h : Move g c d) : d.order = c.order ∧ ∀ s, (d.pending s).used = true → d.pending s = c.pending s := by
  cases h with
  | keep _ h2 h3 | touch _ _ _ _ _ _ _ h2 h3 | fill _ _ _ _ _ _ h2 h3 => exact ⟨h3, fun s _ => by rw [h2]⟩
  | drop i _ _ _ h2 h3 =>
  refine ⟨h3, fun s hs => ?_⟩
  rw [h2] at hs ⊢
  simp only [Cache.drop] at hs ⊢
  split_ifs at hs ⊢
  rfl

lemma held_shrink (h : ∀ s, (d.pending s).used = true → d.pending s = c.pending s) (a : Address) : d.held a ≤ c.held a := by
  refine count_le fun s hs => ?_
  simp only [Bool.and_eq_true] at hs
  simpa [← h s hs.1] using hs

lemma Move.table (h : Move g c d) (ht : Table c) : Table d := by
  have hb : ∀ a, d.held a ≤ z.perNeighbourPending := fun a => (held_shrink h.pending.2 a).trans (ht.bounded a)
  cases h with
  | keep h1 h2 _ => exact ⟨by rw [h1]; exact ht.unique, by rw [h1, h2]; exact ht.owned, hb⟩
  | touch i e hu he ha _ h1 h2 _ =>
    have hsame : ∀ j, (d.entries j).used = (c.entries j).used ∧ (d.entries j).address = (c.entries j).address := by
      intro j
      rw [h1]
      by_cases hj : j = i
      · subst hj
        simp [he, hu, ha]
      · simp [update_of_ne hj]
    refine ⟨fun j k hj hk hx => ?_, fun s hs => ?_, hb⟩
    · rw [(hsame j).1] at hj
      rw [(hsame k).1] at hk
      rw [(hsame j).2, (hsame k).2] at hx
      exact ht.unique j k hj hk hx
    rw [h2] at hs ⊢
    obtain ⟨k, hk, hx⟩ := ht.owned s hs
    exact ⟨k, (hsame k).1.trans hk, (hsame k).2.trans hx⟩
  | fill i e hu he hn h1 h2 _ =>
    refine ⟨fun j k hj hk hx => ?_, fun s hs => ?_, hb⟩
    · rw [h1] at hj hk hx
      by_cases hji : j = i <;> by_cases hki : k = i
      · rw [hji, hki]
      · subst hji
        simp only [update_self, update_of_ne hki] at hk hx
        exact absurd hx.symm (hn k hk)
      · subst hki
        simp only [update_self, update_of_ne hji] at hj hx
        exact absurd hx (hn j hj)
      · simp only [update_of_ne hji, update_of_ne hki] at hj hk hx
        exact ht.unique j k hj hk hx
    rw [h2] at hs ⊢
    obtain ⟨k, hk, hx⟩ := ht.owned s hs
    have hki : k ≠ i := by
      rintro rfl
      simp [hu] at hk
    exact ⟨k, by rw [h1, update_of_ne hki]; exact hk, by rw [h1, update_of_ne hki]; exact hx⟩
  | drop i hu _ h1 h2 _ =>
  refine ⟨fun j k hj hk hx => ?_, fun s hs => ?_, hb⟩
  · rw [h1] at hj hk hx
    have hji : j ≠ i := by
      rintro rfl
      simp at hj
    have hki : k ≠ i := by
      rintro rfl
      simp at hk
    simp only [update_of_ne hji, update_of_ne hki] at hj hk hx
    exact ht.unique j k hj hk hx
  rw [h2] at hs ⊢
  simp only [Cache.drop] at hs ⊢
  split_ifs at hs ⊢ with hc
  obtain ⟨k, hk, hx⟩ := ht.owned s hs
  have hki : k ≠ i := by
    rintro rfl
    exact hc (by simp [hs, hx])
  exact ⟨k, by rw [h1, update_of_ne hki]; exact hk, by rw [h1, update_of_ne hki]; exact hx⟩

structure Mark (Address : Type) where
  serial : ℕ
  address : Address
  packet : List UInt8
  state : State
  accepted : Bool

structure Queue (c : Cache Address z) (log : List (Address × List UInt8)) (tag : Fin z.pending → ℕ)
    (offers : List (Mark Address)) : Prop where
  tagged : ∀ s, (c.pending s).used = true → log[tag s]? = some ((c.pending s).address, (c.pending s).bytes)
  distinct : ∀ s t, (c.pending s).used = true → (c.pending t).used = true → tag s = tag t → s = t
  counted : c.order = log.length % 2 ^ 64
  numbered : ∀ s, (c.pending s).used = true → (c.pending s).order = (tag s + 1) % 2 ^ 64
  gone : ∀ o ∈ offers, o.accepted = true → ∀ s, (c.pending s).used = true → tag s ≠ o.serial
  front : log.length < 2 ^ 64 → ∀ o ∈ offers, ∀ s, (c.pending s).used = true → (c.pending s).address = o.address →
    o.serial ≤ tag s
  genuine : ∀ o ∈ offers, log[o.serial]? = some (o.address, o.packet) ∧ o.state ≠ .incomplete
  once : offers.Pairwise fun o o' => o.accepted = true → o'.serial ≠ o.serial
  inOrder : log.length < 2 ^ 64 → offers.Pairwise fun o o' => o.address = o'.address → o.serial ≤ o'.serial

namespace Queue

omit [DecidableEq Address]

variable {log : List (Address × List UInt8)} {tag : Fin z.pending → ℕ} {offers : List (Mark Address)}

lemma shrink (q : Queue c log tag offers) (ho : d.order = c.order)
    (h : ∀ s, (d.pending s).used = true → d.pending s = c.pending s) : Queue d log tag offers where
  tagged s hs := by
    have hu := hs
    rw [h s hs] at hu ⊢
    exact q.tagged s hu
  distinct s t hs ht := by
    rw [h s hs] at hs
    rw [h t ht] at ht
    exact q.distinct s t hs ht
  counted := ho.trans q.counted
  numbered s hs := by
    have hu := hs
    rw [h s hs] at hu ⊢
    exact q.numbered s hu
  gone o hm ha s hs := q.gone o hm ha s (h s hs ▸ hs)
  front hl o hm s hs hx := q.front hl o hm s (h s hs ▸ hs) (h s hs ▸ hx)
  genuine := q.genuine
  once := q.once
  inOrder := q.inOrder

lemma tag_lt (q : Queue c log tag offers) (hs : (c.pending s).used = true) : tag s < log.length :=
  (List.getElem?_eq_some_iff.mp (q.tagged s hs)).1

lemma tag_le (q : Queue c log tag offers) (hl : log.length < 2 ^ 64) (hs : (c.pending s).used = true)
    (ht : (c.pending t).used = true) (h : (c.pending s).order ≤ (c.pending t).order) : tag s ≤ tag t := by
  have h1 := q.tag_lt hs
  have h2 := q.tag_lt ht
  rw [q.numbered s hs, q.numbered t ht, Nat.mod_eq_of_lt (by omega), Nat.mod_eq_of_lt (by omega)] at h
  omega

lemma hold (q : Queue c log tag offers) (s : Fin z.pending) (a : Address) (packet : List UInt8)
    (hp : d.pending = update c.pending s ⟨true, a, (c.order + 1) % 2 ^ 64, packet⟩)
    (ho : d.order = (c.order + 1) % 2 ^ 64) :
    Queue d (log ++ [(a, packet)]) (update tag s log.length) offers := by
  have hserial : ∀ o ∈ offers, o.serial < log.length := fun o hm => (List.getElem?_eq_some_iff.mp (q.genuine o hm).1).1
  have hmod : (c.order + 1) % 2 ^ 64 = (log.length + 1) % 2 ^ 64 := by rw [q.counted, Nat.mod_add_mod]
  have hold : ∀ t, t ≠ s → (d.pending t).used = true → (c.pending t).used = true ∧ d.pending t = c.pending t ∧
      update tag s log.length t = tag t := by
    intro t ht hu
    rw [hp, update_of_ne ht] at hu ⊢
    exact ⟨hu, rfl, update_of_ne ht _ _⟩
  have hnew : d.pending s = ⟨true, a, (c.order + 1) % 2 ^ 64, packet⟩ := by rw [hp, update_self]
  have hlen : log.length < (log ++ [(a, packet)]).length := by simp
  refine ⟨fun t hu => ?_, fun t t' hu hu' he => ?_, ?_, fun t hu => ?_, fun o hm hx t hu => ?_,
    fun hl o hm t hu hx => ?_, fun o hm => ?_, q.once, fun hl => q.inOrder (hlen.trans hl)⟩
  · by_cases ht : t = s
    · subst ht
      rw [hnew, update_self]
      simp
    obtain ⟨h1, h2, h3⟩ := hold t ht hu
    rw [h2, h3, getElem?_append_left (q.tag_lt h1)]
    exact q.tagged t h1
  · by_cases ht : t = s <;> by_cases ht' : t' = s
    · rw [ht, ht']
    · obtain ⟨h1, -, h3⟩ := hold t' ht' hu'
      rw [h3, ht, update_self] at he
      exact absurd (q.tag_lt h1) (by omega)
    · obtain ⟨h1, -, h3⟩ := hold t ht hu
      rw [h3, ht', update_self] at he
      exact absurd (q.tag_lt h1) (by omega)
    obtain ⟨h1, -, h3⟩ := hold t ht hu
    obtain ⟨h1', -, h3'⟩ := hold t' ht' hu'
    rw [h3, h3'] at he
    exact q.distinct t t' h1 h1' he
  · rw [ho, hmod, length_append]
    rfl
  · by_cases ht : t = s
    · subst ht
      rw [hnew, update_self]
      exact hmod
    obtain ⟨h1, h2, h3⟩ := hold t ht hu
    rw [h2, h3]
    exact q.numbered t h1
  · by_cases ht : t = s
    · subst ht
      rw [update_self]
      exact (hserial o hm).ne'
    obtain ⟨h1, -, h3⟩ := hold t ht hu
    rw [h3]
    exact q.gone o hm hx t h1
  · by_cases ht : t = s
    · subst ht
      rw [update_self]
      exact (hserial o hm).le
    obtain ⟨h1, h2, h3⟩ := hold t ht hu
    rw [h3]
    rw [h2] at hx
    exact q.front (hlen.trans hl) o hm t h1 hx
  · rw [getElem?_append_left (hserial o hm)]
    exact q.genuine o hm

lemma offer (q : Queue c log tag offers) (state : State) (accepted : Bool) (hs : (c.pending s).used = true)
    (hi : state ≠ .incomplete)
    (hleast : ∀ t, (c.pending t).used = true → (c.pending t).address = (c.pending s).address →
      (c.pending s).order ≤ (c.pending t).order)
    (ho : d.order = c.order) (h : ∀ s, (d.pending s).used = true → d.pending s = c.pending s)
    (ha : accepted = true → (d.pending s).used = false) :
    Queue d log tag (offers ++ [⟨tag s, (c.pending s).address, (c.pending s).bytes, state, accepted⟩]) := by
  have q' := q.shrink ho h
  refine ⟨q'.tagged, q'.distinct, q'.counted, q'.numbered, fun o hm hx t hu => ?_, fun hl o hm t hu hx => ?_,
    forall_mem_append.mpr ⟨q.genuine, forall_mem_singleton.mpr ⟨q.tagged s hs, hi⟩⟩,
    pairwise_append.mpr ⟨q.once, by simp, fun o hm => forall_mem_singleton.mpr fun hx => q.gone o hm hx s hs⟩,
    fun hl => pairwise_append.mpr ⟨q.inOrder hl, by simp, fun o hm => forall_mem_singleton.mpr fun hx => ?_⟩⟩
  · rcases mem_append.mp hm with hm | hm
    · exact q'.gone o hm hx t hu
    obtain rfl := mem_singleton.mp hm
    intro he
    obtain rfl := q.distinct t s (h t hu ▸ hu) hs he
    simp [ha hx] at hu
  · rcases mem_append.mp hm with hm | hm
    · exact q'.front hl o hm t hu hx
    obtain rfl := mem_singleton.mp hm
    rw [h t hu] at hx
    exact q.tag_le hl hs (h t hu ▸ hu) (hleast t (h t hu ▸ hu) hx)
  · exact q.front hl o hm s hs hx.symm

end Queue

lemma Table.shrink (ht : Table c) (he : d.entries = c.entries) (h : ∀ s, (d.pending s).used = true → d.pending s = c.pending s) :
    Table d := by
  refine ⟨by rw [he]; exact ht.unique, fun s hs => ?_, fun a => (held_shrink h a).trans (ht.bounded a)⟩
  rw [he, h s hs]
  exact ht.owned s (h s hs ▸ hs)

namespace Cache

lemma holdSlot_room (h : c.holdSlot a = some s) :
    ((c.pending s).used = true ∧ (c.pending s).address = a) ∨ c.held a < z.perNeighbourPending := by
  rcases Nat.lt_or_ge (c.held a) z.perNeighbourPending with hlt | hge
  · exact .inr hlt
  left
  unfold holdSlot at h
  rw [if_pos hge] at h
  cases ho : c.oldest (some a) with
  | some t =>
    rw [ho, Option.some_or, Option.some_or] at h
    cases h
    simpa using (least_some ho).1
  | none =>
  have hz : c.held a = 0 := count_eq_zero_iff.mpr fun t => by
    simpa using least_none ho (mem_finRange t)
  have hs := s.isLt
  unfold Sizes.perNeighbourPending at hge
  split at hge <;> omega

lemma hold_cases (c : Cache Address z) (a : Address) (packet : List UInt8) :
    (∃ status, c.hold a packet = (.error status, c)) ∨
      ∃ s i, c.holdSlot a = some s ∧ c.lookup a = some i ∧ (c.hold a packet).1 = .ok () ∧
        (c.hold a packet).2.entries = c.entries ∧ (c.hold a packet).2.order = (c.order + 1) % 2 ^ 64 ∧
        (c.hold a packet).2.pending = Function.update c.pending s ⟨true, a, (c.order + 1) % 2 ^ 64, packet⟩ := by
  unfold hold
  split
  · exact .inl ⟨_, rfl⟩
  next hl =>
  split
  · exact .inl ⟨_, rfl⟩
  cases hs : c.holdSlot a with
  | none => exact .inl ⟨_, rfl⟩
  | some s =>
  cases hi : c.lookup a with
  | none => simp [hi] at hl
  | some i => exact .inr ⟨s, i, rfl, rfl, rfl, rfl, rfl, rfl⟩

lemma hold_table {packet : List UInt8} {order : ℕ} (ht : Table c) (hs : c.holdSlot a = some s) (hi : c.lookup a = some i)
    (he : d.entries = c.entries) (hp : d.pending = Function.update c.pending s ⟨true, a, order, packet⟩) : Table d := by
  refine ⟨by rw [he]; exact ht.unique, fun t hu => ?_, fun b => ?_⟩
  · rw [he, hp] at *
    by_cases hts : t = s
    · subst hts
      rw [update_self]
      exact ⟨i, lookup_some hi⟩
    · rw [update_of_ne hts] at hu ⊢
      exact ht.owned t hu
  have hc := count_update (fun p => p.used && p.address == b) c.pending s ⟨true, a, order, packet⟩
  have hb := ht.bounded b
  unfold held at hb ⊢
  rw [hp]
  by_cases hba : b = a
  · subst hba
    rcases holdSlot_room hs with ⟨h1, h2⟩ | hlt
    · simp [h1, h2] at hc
      omega
    unfold held at hlt
    simp only [Bool.true_and, beq_self_eq_true, Bool.toNat_true] at hc
    omega
  have hf : (a == b) = false := by simpa using fun h => hba h.symm
  simp only [Bool.true_and, hf, Bool.toNat_false] at hc
  omega

def Flushable (c : Cache Address z) (s : Fin z.pending) : Prop :=
  (c.pending s).used = true ∧ ∃ i, c.lookup (c.pending s).address = some i ∧ (c.entries i).state ≠ .incomplete

lemma flushable_iff :
    ((c.pending s).used && (c.lookup (c.pending s).address).any fun i => (c.entries i).state != .incomplete) = true ↔
    c.Flushable s := by
  cases h : c.lookup (c.pending s).address <;> simp [Flushable, h]

lemma nextHeld_some (h : c.nextHeld = some s) :
    c.Flushable s ∧ ∀ t, c.Flushable t → (c.pending s).order ≤ (c.pending t).order := by
  obtain ⟨h1, h2⟩ := least_some h
  exact ⟨flushable_iff.mp h1, fun t ht => h2 t (mem_finRange t) (flushable_iff.mpr ht)⟩

omit [DecidableEq Address] in
lemma release_pending (ht : ((c.release s).pending t).used = true) : t ≠ s ∧ (c.release s).pending t = c.pending t := by
  have hn : t ≠ s := by
    rintro rfl
    simp [release] at ht
  exact ⟨hn, update_of_ne hn _ _⟩

lemma release_flushable (h : (c.release s).Flushable t) : t ≠ s ∧ c.Flushable t := by
  obtain ⟨hn, he⟩ := release_pending h.1
  refine ⟨hn, he ▸ h.1, ?_⟩
  have := h.2
  rw [he] at this
  exact this

end Cache

def marks (tag : Fin z.pending → ℕ) (offers : List (Offer Address z)) : List (Mark Address) :=
  offers.map fun o => ⟨tag o.slot, o.address, o.packet, o.state, o.accepted⟩

section Flush

variable {log : List (Address × List UInt8)} {tag : Fin z.pending → ℕ} {offers : List (Mark Address)}

structure Flushed (c : Cache Address z) (log : List (Address × List UInt8)) (tag : Fin z.pending → ℕ) (offers : List (Mark Address))
    (r : List (Offer Address z) × Cache Address z) : Prop where
  table : Table r.2
  queue : Queue r.2 log tag (offers ++ marks tag r.1)
  found : ∀ m ∈ marks tag r.1, ∃ t, c.Flushable t ∧ tag t = m.serial
  increasing : log.length < 2 ^ 64 → (marks tag r.1).Pairwise fun o o' => o.serial < o'.serial

lemma Flushed.nil (ht : Table c) (q : Queue c log tag offers) : Flushed c log tag offers ([], c) :=
  ⟨ht, by simpa [marks] using q, by simp [marks], by simp [marks]⟩

lemma flushFrom_sound (sink : ℕ → Mac → Address → List UInt8 → Bool) (fuel sent : ℕ) (ht : Table c) (q : Queue c log tag offers) :
    Flushed c log tag offers (flushFrom sink fuel sent c) := by
  induction fuel generalizing c offers sent with
  | zero => exact .nil ht q
  | succ fuel ih =>
  rw [flushFrom]
  cases hn : c.nextHeld with
  | none => exact .nil ht q
  | some s =>
  obtain ⟨⟨hu, i, hi, hst⟩, hleast⟩ := nextHeld_some hn
  have hsame : ∀ t, (c.pending t).used = true → (c.pending t).address = (c.pending s).address →
      (c.pending s).order ≤ (c.pending t).order := fun t h1 h2 => hleast t ⟨h1, i, h2 ▸ hi, hst⟩
  dsimp only
  rw [hi]
  dsimp only
  split
  · have hshrink : ∀ t, ((c.release s).pending t).used = true → (c.release s).pending t = c.pending t :=
      fun t h => (release_pending h).2
    have q1 := q.offer (d := c.release s) _ true hu hst hsame rfl hshrink fun _ => by simp [release]
    obtain ⟨h1, h2, h3, h4⟩ := ih (sent + 1) (ht.shrink (d := c.release s) rfl hshrink) q1
    refine ⟨h1, by simpa [marks, offer] using h2, fun m hm => ?_, fun hl => pairwise_cons.mpr ⟨fun m hm => ?_, h4 hl⟩⟩
    · rcases mem_cons.mp hm with rfl | hm
      · exact ⟨s, ⟨hu, i, hi, hst⟩, rfl⟩
      · obtain ⟨t, hf, he⟩ := h3 m hm
        exact ⟨t, (release_flushable hf).2, he⟩
    obtain ⟨t, hf, he⟩ := h3 m hm
    obtain ⟨hne, hf⟩ := release_flushable hf
    rw [← he]
    exact lt_of_le_of_ne (q.tag_le hl hu hf.1 (hleast t hf)) fun hx => hne (q.distinct s t hu hf.1 hx).symm
  refine ⟨ht, ?_, forall_mem_singleton.mpr ⟨s, ⟨hu, i, hi, hst⟩, rfl⟩, fun _ => by simp [marks]⟩
  exact q.offer _ false hu hst hsame rfl (fun _ _ => rfl) (by simp)

end Flush

inductive Op (Address : Type) (z : Sizes)
  | resolve (address : Address) (now : ℕ)
  | hold (address : Address) (packet : List UInt8)
  | update (address : Address) (mac : Option Mac) (kind : Update) (flags : Advertisement) (now : ℕ)
  | confirm (address : Address) (now : ℕ)
  | addPermanent (address : Address) (mac : Mac) (now : ℕ)
  | remove (address : Address)
  | tick (now room : ℕ)
  | flush (sink : ℕ → Mac → Address → List UInt8 → Bool)
  | setReachableTime (ms : ℕ)
  | setRetransmitTime (ms : ℕ)

structure History (Address : Type) (z : Sizes) where
  log : List (Address × List UInt8) := []
  tag : Fin z.pending → ℕ := fun _ => 0
  flushes : List (List (Mark Address)) := []

def Op.step (x : Cache Address z × History Address z) : Op Address z → Cache Address z × History Address z
  | .resolve a now => ((x.1.resolve a now).2, x.2)
  | .hold a packet =>
    match (x.1.hold a packet).1, x.1.holdSlot a with
    | .ok _, some s => ((x.1.hold a packet).2,
        { x.2 with log := x.2.log ++ [(a, packet)], tag := Function.update x.2.tag s x.2.log.length })
    | _, _ => ((x.1.hold a packet).2, x.2)
  | .update a mac kind flags now => ((x.1.update a mac kind flags now).2, x.2)
  | .confirm a now => (x.1.confirm a now, x.2)
  | .addPermanent a mac now => ((x.1.addPermanent a mac now).2, x.2)
  | .remove a => ((x.1.remove a).2, x.2)
  | .tick now room => ((x.1.tick now room).2, x.2)
  | .flush sink => ((x.1.flush sink).2, { x.2 with flushes := x.2.flushes ++ [marks x.2.tag (x.1.flush sink).1] })
  | .setReachableTime ms => (x.1.setReachableTime ms, x.2)
  | .setRetransmitTime ms => (x.1.setRetransmitTime ms, x.2)

def Op.runs (x : Cache Address z × History Address z) (ops : List (Op Address z)) : Cache Address z × History Address z :=
  ops.foldl Op.step x

structure Sound (x : Cache Address z × History Address z) : Prop where
  table : Table x.1
  queue : Queue x.1 x.2.log x.2.tag x.2.flushes.flatten
  calls : x.2.log.length < 2 ^ 64 → ∀ call ∈ x.2.flushes, call.Pairwise fun o o' => o.serial < o'.serial

variable {x : Cache Address z × History Address z}

lemma Sound.moves (h : Sound x) (hm : Moves g x.1 d) : Sound (d, x.2) := by
  induction hm with
  | refl => exact h
  | tail _ hm ih => exact ⟨hm.table ih.table, ih.queue.shrink hm.pending.1 hm.pending.2, ih.calls⟩

lemma Op.step_sound (op : Op Address z) (h : Sound x) : Sound (op.step x) := by
  cases op with
  | resolve a now => exact h.moves (x.1.resolve_moves a now)
  | update a mac kind flags now => exact h.moves (x.1.update_moves a mac kind flags now)
  | confirm a now => exact h.moves (x.1.confirm_moves a now)
  | addPermanent a mac now => exact h.moves (x.1.addPermanent_moves a mac now)
  | remove a => exact h.moves (x.1.remove_moves a)
  | tick now room => exact h.moves (x.1.tick_moves now room)
  | setReachableTime ms =>
    refine h.moves (g := false) (.single (.keep ?_ ?_ ?_)) <;> unfold Cache.setReachableTime <;> split <;> rfl
  | setRetransmitTime ms =>
    refine h.moves (g := false) (.single (.keep ?_ ?_ ?_)) <;> unfold Cache.setRetransmitTime <;> split <;> rfl
  | hold a packet =>
    simp only [Op.step]
    rcases x.1.hold_cases a packet with ⟨status, he⟩ | ⟨s, i, hs, hi, hok, he, ho, hp⟩
    · rw [he]
      exact h
    rw [hok, hs]
    refine ⟨hold_table h.table hs hi he hp, h.queue.hold s a packet hp ho, fun hl => h.calls ?_⟩
    simp only [length_append, length_singleton] at hl
    omega
  | flush sink =>
  have hf := flushFrom_sound sink (z.pending + 1) 0 h.table h.queue
  refine ⟨hf.table, ?_, fun hl => forall_mem_append.mpr ⟨h.calls hl, forall_mem_singleton.mpr (hf.increasing hl)⟩⟩
  simpa [Op.step, Cache.flush] using hf.queue

lemma runs_sound (timing : Timing) (ops : List (Op Address z)) : Sound (Op.runs ({ timing := timing }, {}) ops) := by
  unfold Op.runs
  induction ops using reverseRecOn with
  | nil =>
    refine ⟨⟨by simp, by simp, fun a => ?_⟩,
      ⟨by simp, by simp, by simp, by simp, by simp, by simp, by simp, by simp, by simp⟩, by simp⟩
    rw [show held _ a = 0 from count_eq_zero_iff.mpr fun _ => rfl]
    exact Nat.zero_le _
  | append_singleton ops op ih =>
    rw [foldl_append]
    exact op.step_sound ih

/-- In every run of the cache: one entry for each address and each held packet, few packets for each neighbour; the sink is
offered what was held, for a resolved neighbour and never again once it took it; while fewer than `2 ^ 64` packets have
been held, a flush, and the flushes of one neighbour, offer them in the order they were held; and permanent entries stay. -/
theorem neighbour_integrity (timing : Timing) (ops : List (Op Address z)) : let x := Op.runs ({ timing := timing }, {}) ops
    (∀ i j, (x.1.entries i).used = true → (x.1.entries j).used = true →
      (x.1.entries i).address = (x.1.entries j).address → i = j) ∧
    (∀ s, (x.1.pending s).used = true →
      ∃ i, (x.1.entries i).used = true ∧ (x.1.entries i).address = (x.1.pending s).address) ∧
    (∀ a, x.1.held a ≤ z.perNeighbourPending) ∧
    (∀ o ∈ x.2.flushes.flatten, x.2.log[o.serial]? = some (o.address, o.packet) ∧ o.state ≠ .incomplete) ∧
    (x.2.flushes.flatten.Pairwise fun o o' => o.accepted = true → o'.serial ≠ o.serial) ∧
    (x.2.log.length < 2 ^ 64 → (∀ call ∈ x.2.flushes, call.Pairwise fun o o' => o.serial < o'.serial) ∧
      x.2.flushes.flatten.Pairwise fun o o' => o.address = o'.address → o.serial ≤ o'.serial) ∧
    ∀ i, (x.1.entries i).used = true → (x.1.entries i).state = .permanent →
      (∀ a mac kind flags now, (x.1.update a mac kind flags now).2.entries i = x.1.entries i) ∧
      (∀ a now, (x.1.confirm a now).entries i = x.1.entries i) ∧
      (∀ now room, (x.1.tick now room).2.entries i = x.1.entries i) ∧
      ∀ a now, x.1.lookup a = none → (x.1.create a now).2.entries i = x.1.entries i := by
  intro x
  have h := runs_sound timing ops
  refine ⟨h.table.unique, h.table.owned, h.table.bounded, h.queue.genuine, h.queue.once,
    fun hl => ⟨h.calls hl, h.queue.inOrder hl⟩, fun i hu hp => ⟨fun a mac kind flags now => ?_, fun a now => ?_,
      fun now room => ?_, fun a now hl => ?_⟩⟩
  · exact (x.1.update_moves a mac kind flags now).permanent hu hp
  · exact (x.1.confirm_moves a now).permanent hu hp
  · exact (x.1.tick_moves now room).permanent hu hp
  · exact (Cache.create_moves (r := (x.1.create a now).1) rfl hl).1.permanent hu hp

section Wrap

abbrev narrow : Sizes := ⟨1, 2, 1⟩

structure Crowd (x : Cache Bool narrow × History Bool narrow) (a b n : ℕ) : Prop where
  entry : (x.1.entries 0).used = true ∧ (x.1.entries 0).address = false ∧ (x.1.entries 0).state = .incomplete
  first : x.1.pending 0 = ⟨true, false, (a + 1) % 2 ^ 64, [0]⟩
  second : x.1.pending 1 = ⟨true, false, (b + 1) % 2 ^ 64, [0]⟩
  order : x.1.order = n % 2 ^ 64
  tags : x.2.tag 0 = a ∧ x.2.tag 1 = b
  held : x.2.log.length = n

variable {x : Cache Bool narrow × History Bool narrow} {a b n : ℕ}

lemma Crowd.lookup (h : Crowd x a b n) : x.1.lookup false = some 0 := by
  simp [Cache.lookup, finRange_succ, h.entry]

lemma Crowd.holdSlot (h : Crowd x a b n) :
    x.1.holdSlot false = some (if (b + 1) % 2 ^ 64 < (a + 1) % 2 ^ 64 then 1 else 0) := by
  have hc : x.1.held false = 2 := by
    simp [Cache.held, Slots.count, finRange_succ, h.first, h.second]
  have ho : x.1.oldest (some false) = some (if (b + 1) % 2 ^ 64 < (a + 1) % 2 ^ 64 then 1 else 0) := by
    simp [oldest, Slots.least, finRange_succ, h.first, h.second]
    split <;> rfl
  unfold Cache.holdSlot
  rw [hc, if_pos (by decide), ho]
  rfl

lemma Crowd.hold (h : Crowd x a b n) : Crowd ((Op.hold false [0]).step x)
    (if (b + 1) % 2 ^ 64 < (a + 1) % 2 ^ 64 then a else n) (if (b + 1) % 2 ^ 64 < (a + 1) % 2 ^ 64 then n else b) (n + 1) := by
  have hs := h.holdSlot
  rcases x.1.hold_cases false [0] with ⟨status, he⟩ | ⟨s, i, hs', hi, hok, he, ho, hp⟩
  · simp [Cache.hold, h.lookup, h.entry.2.2, hs] at he
  simp only [Op.step, hok, hs]
  rw [hs] at hs'
  cases hs'
  have hn : (x.1.order + 1) % 2 ^ 64 = (n + 1) % 2 ^ 64 := by rw [h.order, Nat.mod_add_mod]
  refine ⟨by rw [he]; exact h.entry, ?_, ?_, by rw [ho, hn], ?_, by simp [h.held]⟩
  · rw [hp, hn]
    split <;> simp [h.first]
  · rw [hp, hn]
    split <;> simp [h.second]
  · split <;> simp [h.tags, h.held]

lemma crowd_start : Crowd (Op.runs ({}, {}) [.resolve false 0, .hold false [0], .hold false [0]]) 0 1 2 := by
  constructor <;> decide +kernel

lemma crowd_reached {k : ℕ} (hk : 2 * k + 2 ≤ 2 ^ 64) : ∃ ops, Crowd (Op.runs ({}, {}) ops) (2 * k) (2 * k + 1) (2 * k + 2) := by
  induction k with
  | zero => exact ⟨_, crowd_start⟩
  | succ k ih =>
  obtain ⟨ops, h⟩ := ih (by omega)
  refine ⟨ops ++ [.hold false [0]] ++ [.hold false [0]], ?_⟩
  simp only [Op.runs, foldl_append, foldl_cons, foldl_nil]
  have h1 := h.hold
  rw [Nat.mod_eq_of_lt (show 2 * k + 1 < 2 ^ 64 by omega), Nat.mod_eq_of_lt (show 2 * k + 1 + 1 < 2 ^ 64 by omega),
    if_neg (by omega), if_neg (by omega)] at h1
  have h2 := h1.hold
  rw [Nat.mod_eq_of_lt (show 2 * k + 1 + 1 < 2 ^ 64 by omega), Nat.mod_eq_of_lt (show 2 * k + 2 + 1 < 2 ^ 64 by omega),
    if_pos (by omega), if_pos (by omega)] at h2
  exact h2

/-- After `2 ^ 64` packets the counter of the order is back at zero, and the packet held last is offered first. -/
theorem neighbour_order_wraps : ∃ (ops : List (Op Bool narrow)) (o o' : Mark Bool), [o, o'] ∈ (Op.runs ({}, {}) ops).2.flushes ∧
    o.address = o'.address ∧ o'.serial < o.serial := by
  obtain ⟨ops, h⟩ := crowd_reached (k := 2 ^ 63 - 1) (by decide)
  let op : Op Bool narrow := .update false (some (Vector.replicate 6 0)) .announcement {} 0
  refine ⟨ops ++ [op] ++ [.flush fun _ _ _ _ => true], ⟨2 ^ 64 - 1, false, [0], .stale, true⟩,
    ⟨2 ^ 64 - 2, false, [0], .stale, true⟩, ?_, rfl, by decide⟩
  simp only [Op.runs, foldl_append, foldl_cons, foldl_nil]
  rw [← Op.runs]
  generalize Op.runs ({}, {}) ops = x at h
  obtain ⟨hp, hx, h1, h2, h3⟩ : (op.step x).1.pending = x.1.pending ∧ (op.step x).2 = x.2 ∧ ((op.step x).1.entries 0).used = true ∧
      ((op.step x).1.entries 0).address = false ∧ ((op.step x).1.entries 0).state = .stale := by
    have hm : Mac.multicast (Vector.replicate 6 0) = false := by decide
    simp [op, Op.step, Cache.update, Cache.announce, hm, h.lookup, h.entry, Cache.put, Cache.countResolved, Cache.moveTo]
  refine mem_append_right _ (mem_singleton.mpr ?_)
  simp [Cache.flush, Cache.flushFrom, Cache.nextHeld, Slots.least, finRange_succ, Cache.lookup, hp, h.first, h.second, h1, h2, h3,
    marks, Cache.offer, Cache.release, hx, h.tags]

end Wrap

end ObfuscationKernel.Net.Neighbour
