import ObfuscationKernel.Sched.Wait

/-! The wait queue of a condition: waiters in slots that are scanned in a ring, from the slot after the last one woken. -/

namespace ObfuscationKernel.Sched.Queue

open ObfuscationKernel.Core List Function

/-- `stamp` numbers the attachments; the code does not keep it. -/
structure Slot where
  registration : ℕ
  ticket : WaitTicket
  stamp : ℕ

structure WaitQueue where
  registrations : ℕ → WaitRegistration := fun _ => {}
  slots : ℕ → Option Slot := fun _ => none
  count : ℕ := 0
  oldest : ℕ := 0
  stamps : ℕ := 0

/-- What a visitor does with a waiter: whether it leaves the queue, and the waits that are completed elsewhere meanwhile. -/
abbrev Visit := WaitTicket → Bool × List (ℕ × WaitCompletion × WakeSource)

namespace WaitQueue

variable (capacity : ℕ) (q : WaitQueue)

def pending (s : Slot) : Bool := (q.registrations s.registration).pending s.ticket

def detach (i : ℕ) : WaitQueue := { q with slots := Function.update q.slots i none, count := q.count - 1 }

def setRegistration (r : ℕ) (x : WaitRegistration) : WaitQueue :=
  { q with registrations := Function.update q.registrations r x }

def complete (r : ℕ) (ticket : WaitTicket) (completion : WaitCompletion) (source : WakeSource) : WaitQueue :=
  q.setRegistration r ((q.registrations r).complete ticket completion source).2

def vacant : Option ℕ := (List.range capacity).find? fun i => (q.slots i).isNone

def occupy (i r : ℕ) (ticket : WaitTicket) : WaitQueue :=
  { q with slots := Function.update q.slots i (some ⟨r, ticket, q.stamps⟩), count := q.count + 1, stamps := q.stamps + 1 }

def attach (r : ℕ) (ticket : WaitTicket) : Option WaitQueue := (q.vacant capacity).map fun i => q.occupy i r ticket

def arm (r owner thread : ℕ) : Result WaitTicket × WaitQueue :=
  let a := (q.registrations r).arm owner thread
  (a.1, q.setRegistration r a.2)

def prepare (r owner thread : ℕ) : Result WaitTicket × WaitQueue :=
  if q.count = capacity then (.error (.overflow "wait queue capacity exhausted"), q)
  else
    match q.arm r owner thread with
    | (.error status, q) => (.error status, q)
    | (.ok ticket, q) =>
      match q.attach capacity r ticket with
      | some q => (.ok ticket, q)
      | none => (.error (.overflow "wait queue slots inconsistent"), q.setRegistration r (q.registrations r).cancel)

def pruneIn : List ℕ → WaitQueue → WaitQueue
  | [], q => q
  | i :: is, q => pruneIn is (if (q.slots i).any (!q.pending ·) then q.detach i else q)

def prune : WaitQueue := pruneIn (List.range capacity) q

def enlist (r : ℕ) : Result Unit × WaitQueue :=
  let x := q.registrations r
  if !x.active then (.error (.invalidArgument "only an armed registration can be enlisted"), q)
  else if (List.range capacity).any fun i => (q.slots i).any fun s => s.registration == r && s.ticket == x.ticket then
    (.error (.alreadyExists "registration is already enlisted"), q)
  else
    let q := q.prune capacity
    if q.count = capacity then (.error (.overflow "wait queue capacity exhausted"), q)
    else
      match q.attach capacity r x.ticket with
      | some q => (.ok (), q)
      | none => (.error (.overflow "wait queue slots inconsistent"), q)

def cancel (ticket : WaitTicket) : Bool × WaitQueue :=
  match (List.range capacity).find? fun i => (q.slots i).any fun s => q.pending s && s.ticket == ticket with
  | none => (false, q)
  | some i =>
    match q.slots i with
    | none => (false, q)
    | some s => (true, (q.complete s.registration ticket .cancelled .thread).detach i)

def order : List ℕ := (List.range capacity).rotate q.oldest

def wakeIn (source : WakeSource) (completion : WaitCompletion) : List ℕ → WaitQueue → Bool × WaitQueue
  | [], q => (false, q)
  | i :: is, q =>
    match q.slots i with
    | none => wakeIn source completion is q
    | some s =>
      if q.pending s then
        (true, { (q.complete s.registration s.ticket completion source).detach i with oldest := (i + 1) % capacity })
      else wakeIn source completion is (q.detach i)

def wakeOne (source : WakeSource) (completion : WaitCompletion) : Bool × WaitQueue :=
  q.wakeIn capacity source completion (q.order capacity)

def wakeAll (source : WakeSource) (completion : WaitCompletion) : ℕ → WaitQueue → WaitQueue
  | 0, q => q
  | fuel + 1, q =>
    match q.wakeOne capacity source completion with
    | (false, q) => q
    | (true, q) => wakeAll source completion fuel q

def completeAll (q : WaitQueue) (ended : List (ℕ × WaitCompletion × WakeSource)) : WaitQueue :=
  ended.foldl (fun q e => q.complete e.1 (q.registrations e.1).ticket e.2.1 e.2.2) q

def notifyIn (visit : Visit) : List ℕ → WaitQueue → List Slot × WaitQueue
  | [], q => ([], q)
  | i :: is, q =>
    match q.slots i with
    | none => notifyIn visit is q
    | some s =>
      if q.pending s then
        let (leaves, ended) := visit s.ticket
        let q := completeAll q ended
        let (offered, q) := notifyIn visit is (if leaves then q.detach i else q)
        (s :: offered, q)
      else notifyIn visit is (q.detach i)

def notify (visit : Visit) : List Slot × WaitQueue := notifyIn visit (q.order capacity) q

variable {capacity : ℕ} {q : WaitQueue} {i : ℕ} {s : Slot}

def entries (capacity : ℕ) (q : WaitQueue) : List Slot := (q.order capacity).filterMap q.slots

def waiters (capacity : ℕ) (q : WaitQueue) : List Slot := (q.entries capacity).filter q.pending

def Grows (x y : WaitRegistration) : Prop :=
  x.ticket.generation ≤ y.ticket.generation ∧ ∀ t, t.generation ≤ x.ticket.generation → x.pending t = false → y.pending t = false

lemma Grows.refl (x : WaitRegistration) : Grows x x := ⟨le_rfl, fun _ _ h => h⟩

lemma Grows.trans {x y z : WaitRegistration} (h : Grows x y) (h' : Grows y z) : Grows x z :=
  ⟨h.1.trans h'.1, fun t ht hp => h'.2 t (ht.trans h.1) (h.2 t ht hp)⟩

lemma grows_complete (x : WaitRegistration) (t : WaitTicket) (completion : WaitCompletion) (source : WakeSource) :
    Grows x (x.complete t completion source).2 := by
  unfold WaitRegistration.complete
  split
  · exact .refl x
  · exact ⟨le_rfl, fun _ _ _ => rfl⟩

lemma grows_arm (x : WaitRegistration) (owner thread : ℕ) : Grows x (x.arm owner thread).2 := by
  unfold WaitRegistration.arm
  split_ifs
  iterate 3 exact .refl x
  refine ⟨Nat.le_succ _, fun t ht _ => ?_⟩
  have hne : t ≠ ⟨owner, thread, x.ticket.generation + 1⟩ := by
    rintro rfl
    exact Nat.not_succ_le_self _ ht
  simpa [WaitRegistration.pending] using hne

structure Inv (capacity : ℕ) (q : WaitQueue) : Prop where
  inside : ∀ i s, q.slots i = some s → i < capacity
  count : q.count = (q.entries capacity).length
  bound : ∀ s ∈ q.entries capacity, s.stamp < q.stamps
  issued : ∀ s ∈ q.entries capacity, s.ticket.generation ≤ (q.registrations s.registration).ticket.generation

lemma filterMap_split {f : ℕ → Option Slot} {l a b : List ℕ} (hn : l.Nodup) (hl : l = a ++ i :: b) (x : Option Slot) :
    l.filterMap (update f i x) = a.filterMap f ++ (x.toList ++ b.filterMap f) := by
  subst hl
  have hout : ∀ c : List ℕ, i ∉ c → c.filterMap (update f i x) = c.filterMap f := fun c hc =>
    filterMap_congr fun j hj => update_of_ne (ne_of_mem_of_not_mem hj hc) ..
  rw [nodup_append, nodup_cons] at hn
  rw [filterMap_append, filterMap_cons, hout a fun h => hn.2.2 i h i (.head _) rfl, hout b hn.2.1.1, update_self]
  cases x <;> rfl

lemma nodup_order (capacity : ℕ) (q : WaitQueue) : (q.order capacity).Nodup := nodup_rotate.mpr nodup_range

lemma entries_split {a b : List ℕ} (hl : q.order capacity = a ++ i :: b) (hs : q.slots i = some s) :
    q.entries capacity = a.filterMap q.slots ++ s :: b.filterMap q.slots ∧
      (q.detach i).entries capacity = a.filterMap q.slots ++ b.filterMap q.slots := by
  refine ⟨?_, filterMap_split (nodup_order capacity q) hl none⟩
  have hself := filterMap_split (f := q.slots) (nodup_order capacity q) hl (some s)
  rwa [← hs, update_eq_self, hs] at hself

def Sorted (capacity : ℕ) (q : WaitQueue) : Prop := (q.waiters capacity).Pairwise (·.stamp < ·.stamp)

lemma Inv.detached (hi : Inv capacity q) (hs : q.slots i = some s) : ∃ a b, q.entries capacity = a ++ s :: b ∧
    (q.detach i).entries capacity = a ++ b := by
  obtain ⟨a, b, hl⟩ := append_of_mem (mem_rotate.mpr (mem_range.mpr (hi.inside i s hs)) : i ∈ q.order capacity)
  exact ⟨_, _, entries_split hl hs⟩

lemma Inv.sublist (hi : Inv capacity q) (hs : q.slots i = some s) :
    ((q.detach i).entries capacity).Sublist (q.entries capacity) := by
  obtain ⟨a, b, he, hd⟩ := hi.detached hs
  rw [he, hd]
  exact (List.Sublist.refl _).append (sublist_cons_self ..)

lemma Inv.detach (hi : Inv capacity q) (hs : q.slots i = some s) : Inv capacity (q.detach i) := by
  have hsub := hi.sublist hs
  obtain ⟨a, b, he, hd⟩ := hi.detached hs
  refine ⟨fun j t ht => ?_, ?_, fun t ht => hi.bound t (hsub.subset ht), fun t ht => hi.issued t (hsub.subset ht)⟩
  · simp only [WaitQueue.detach, update_apply] at ht
    split_ifs at ht
    exact hi.inside j t ht
  change q.count - 1 = _
  rw [hi.count, he, hd]
  simp

lemma Inv.setRegistration (hi : Inv capacity q) {r : ℕ} {x : WaitRegistration} (hg : Grows (q.registrations r) x) :
    Inv capacity (q.setRegistration r x) := by
  refine { hi with issued := fun t ht => (hi.issued t ht).trans ?_ }
  simp only [WaitQueue.setRegistration, update_apply]
  split_ifs with h
  · exact h ▸ hg.1
  · exact le_rfl

lemma Inv.ended (hi : Inv capacity q) {r : ℕ} {x : WaitRegistration} (hg : Grows (q.registrations r) x)
    (hs : s ∈ q.entries capacity) (hp : q.pending s = false) : (q.setRegistration r x).pending s = false := by
  simp only [pending, WaitQueue.setRegistration, update_apply] at hp ⊢
  split_ifs with hr
  · rw [hr] at hp
    exact hg.2 _ (hr ▸ hi.issued s hs) hp
  · exact hp

/-- A wait that has ended stays so, hence what changes of the registrations takes waiters away only. -/
lemma Inv.waiters_sublist (hi : Inv capacity q) {r : ℕ} {x : WaitRegistration} (hg : Grows (q.registrations r) x) :
    ((q.setRegistration r x).waiters capacity).Sublist (q.waiters capacity) := by
  have hsub : (q.setRegistration r x).waiters capacity = (q.waiters capacity).filter (q.setRegistration r x).pending := by
    rw [waiters, waiters, filter_filter]
    refine filter_congr fun s hs => ?_
    cases h : q.pending s with
    | false => rw [hi.ended hg hs h, Bool.and_self]
    | true => rw [Bool.and_true]
  rw [hsub]
  exact filter_sublist

/-- No waiter stands behind the slot that is taken next, in the order of the ring. -/
def behind (capacity : ℕ) (q : WaitQueue) : Bool :=
  (q.vacant capacity).all fun i => ((q.order capacity).dropWhile (· != i)).all fun j => (q.slots j).all (!q.pending ·)

lemma attached_entries {r : ℕ} {t : WaitTicket} (hv : q.vacant capacity = some i) :
    ∃ a b, q.order capacity = a ++ i :: b ∧ i ∉ a ∧ q.entries capacity = a.filterMap q.slots ++ b.filterMap q.slots ∧
      (q.occupy i r t).entries capacity = a.filterMap q.slots ++ ⟨r, t, q.stamps⟩ :: b.filterMap q.slots := by
  obtain ⟨a, b, hl, ha⟩ := eq_append_cons_of_mem (mem_rotate.mpr (mem_of_find?_eq_some hv) : i ∈ q.order capacity)
  have hfree : q.slots i = none := by simpa using find?_some hv
  have hold := filterMap_split (f := q.slots) (nodup_order capacity q) hl none
  rw [← hfree, update_eq_self, hfree] at hold
  exact ⟨a, b, hl, ha, hold, filterMap_split (nodup_order capacity q) hl (some ⟨r, t, q.stamps⟩)⟩

lemma Inv.attach (hi : Inv capacity q) {r : ℕ} {t : WaitTicket} {q' : WaitQueue}
    (ht : t.generation ≤ (q.registrations r).ticket.generation) (h : q.attach capacity r t = some q') : Inv capacity q' := by
  obtain ⟨i, hv, rfl⟩ := Option.map_eq_some_iff.mp h
  obtain ⟨a, b, -, -, he, he'⟩ := attached_entries (r := r) (t := t) hv
  have hmem {u : Slot} (hu : u ∈ (q.occupy i r t).entries capacity) : u ∈ q.entries capacity ∨ u = ⟨r, t, q.stamps⟩ := by
    rw [he', mem_append, mem_cons] at hu
    rw [he, mem_append]
    tauto
  refine ⟨fun j u hu => ?_, ?_, fun u hu => ?_, fun u hu => ?_⟩
  · simp only [occupy, update_apply] at hu
    split_ifs at hu with hj
    · exact mem_range.mp (hj ▸ mem_of_find?_eq_some hv)
    · exact hi.inside j u hu
  · change q.count + 1 = _
    rw [hi.count, he, he']
    simp [Nat.add_assoc]
  · rcases hmem hu with hu | rfl
    · exact (hi.bound u hu).trans (Nat.lt_succ_self _)
    · exact Nat.lt_succ_self _
  · rcases hmem hu with hu | rfl
    · exact hi.issued u hu
    · exact ht

lemma Inv.attach_sorted (hi : Inv capacity q) (ho : Sorted capacity q) (hb : q.behind capacity = true) {r : ℕ} {t : WaitTicket}
    {q' : WaitQueue} (h : q.attach capacity r t = some q') : Sorted capacity q' := by
  obtain ⟨i, hv, rfl⟩ := Option.map_eq_some_iff.mp h
  obtain ⟨a, b, hl, ha, he, he'⟩ := attached_entries (r := r) (t := t) hv
  have hdrop : (q.order capacity).dropWhile (· != i) = i :: b := by
    rw [hl, dropWhile_append_of_pos fun j hj => by simpa using ne_of_mem_of_not_mem hj ha, dropWhile_cons_of_neg (by simp)]
  rw [behind, hv, Option.all_some, hdrop, all_eq_true] at hb
  have hended : (b.filterMap q.slots).filter q.pending = [] := by
    refine filter_eq_nil_iff.mpr fun u hu hp => ?_
    obtain ⟨j, hj, hs⟩ := mem_filterMap.mp hu
    have hno := hb j (mem_cons_of_mem i hj)
    rw [hs] at hno
    simp [hp] at hno
  have hold : q.waiters capacity = (a.filterMap q.slots).filter q.pending := by
    rw [waiters, he, filter_append, hended, append_nil]
  have hnew : (q.occupy i r t).waiters capacity = q.waiters capacity ++ [⟨r, t, q.stamps⟩].filter q.pending := by
    have hsame : (q.occupy i r t).pending = q.pending := rfl
    rw [waiters, he', hsame, filter_append, hold, ← singleton_append, filter_append, hended, append_nil]
  rw [Sorted, hnew]
  refine pairwise_append.mpr ⟨ho, (pairwise_singleton ..).filter _, fun u hu v hv => ?_⟩
  rw [mem_singleton.mp (mem_filter.mp hv).1]
  exact hi.bound u (mem_filter.mp hu).1

lemma order_after {a b : List ℕ} (h : q.order capacity = a ++ i :: b) :
    { q with oldest := (i + 1) % capacity }.order capacity = b ++ (a ++ [i]) := by
  have hlen : (a ++ i :: b).length = capacity := by rw [← h, order, length_rotate, length_range]
  have hi : i = (a.length + q.oldest) % capacity := by
    have hget : (q.order capacity)[a.length]? = some i := by rw [h]; simp
    rw [order, getElem?_rotate (by simp at hlen ⊢; omega), length_range,
      getElem?_range (Nat.mod_lt _ (by simp at hlen; omega))] at hget
    exact (Option.some.inj hget).symm
  have hrot : (range capacity).rotate ((i + 1) % capacity) = (q.order capacity).rotate (a.length + 1) := by
    rw [order, rotate_rotate, ← rotate_mod _ (q.oldest + _), length_range, hi]
    congr 1
    rw [Nat.mod_add_mod]
    congr 1
    omega
  rw [order, hrot, h, show a ++ i :: b = (a ++ [i]) ++ b by simp, show a.length + 1 = (a ++ [i]).length by simp,
    rotate_append_length_eq]

lemma Inv.turn {a b : List ℕ} (hi : Inv capacity q) (h : q.order capacity = a ++ i :: b) (hn : ∀ j ∈ a ++ [i], q.slots j = none) :
    Inv capacity { q with oldest := (i + 1) % capacity } ∧
      waiters capacity { q with oldest := (i + 1) % capacity } = q.waiters capacity := by
  have hnil := filterMap_eq_nil_iff.mpr hn
  have he : entries capacity { q with oldest := (i + 1) % capacity } = q.entries capacity := by
    rw [entries, order_after h]
    rw [filterMap_append, hnil, append_nil, entries, h, show a ++ i :: b = (a ++ [i]) ++ b by simp, filterMap_append,
      hnil, nil_append]
  exact ⟨⟨hi.inside, he ▸ hi.count, he ▸ hi.bound, he ▸ hi.issued⟩, congrArg (filter q.pending) he⟩

/-- What an operation does to a queue; if `fair` holds, waiters are attached behind the others. -/
inductive Move (fair : Prop) (capacity : ℕ) (q : WaitQueue) : WaitQueue → Prop
  | detach {i : ℕ} {s : Slot} (hs : q.slots i = some s) : Move fair capacity q (q.detach i)
  | register {r : ℕ} {x : WaitRegistration} (hg : Grows (q.registrations r) x) : Move fair capacity q (q.setRegistration r x)
  | attach {r : ℕ} {t : WaitTicket} {q' : WaitQueue} (hb : fair → q.behind capacity = true)
      (ht : t.generation ≤ (q.registrations r).ticket.generation) (h : q.attach capacity r t = some q') : Move fair capacity q q'
  | turn {i : ℕ} {a b : List ℕ} (h : q.order capacity = a ++ i :: b) (hn : ∀ j ∈ a ++ [i], q.slots j = none) :
      Move fair capacity q { q with oldest := (i + 1) % capacity }

abbrev Moves (fair : Prop) (capacity : ℕ) : WaitQueue → WaitQueue → Prop := Relation.ReflTransGen (Move fair capacity)

variable {fair : Prop} {q' : WaitQueue} {source : WakeSource} {completion : WaitCompletion} {a is : List ℕ}

lemma Moves.inv (h : Moves fair capacity q q') (hi : Inv capacity q) : Inv capacity q' := by
  induction h with
  | refl => exact hi
  | tail _ hm ih =>
  cases hm with
  | detach hs => exact ih.detach hs
  | register hg => exact ih.setRegistration hg
  | attach hb ht h => exact ih.attach ht h
  | turn h hn => exact (ih.turn h hn).1

lemma Moves.sorted (h : Moves True capacity q q') (hi : Inv capacity q) (ho : Sorted capacity q) : Sorted capacity q' := by
  induction h with
  | refl => exact ho
  | tail hms hm ih =>
  have hi := Moves.inv hms hi
  cases hm with
  | detach hs => exact ih.sublist ((hi.sublist hs).filter _)
  | register hg => exact ih.sublist (hi.waiters_sublist hg)
  | attach hb ht h => exact hi.attach_sorted ih (hb trivial) h
  | turn h hn =>
    rw [Sorted, (hi.turn h hn).2]
    exact ih

lemma Moves.grows (h : Moves fair capacity q q') (r : ℕ) : Grows (q.registrations r) (q'.registrations r) := by
  induction h with
  | refl => exact .refl _
  | tail _ hm ih =>
  refine ih.trans ?_
  cases hm with
  | detach | turn => exact .refl _
  | register hg =>
    simp only [setRegistration, update_apply]
    split_ifs with hr
    · exact hr ▸ hg
    · exact .refl _
  | attach hb ht h =>
    obtain ⟨i, -, rfl⟩ := Option.map_eq_some_iff.mp h
    exact .refl _

lemma moves_complete (r : ℕ) (t : WaitTicket) : Moves fair capacity q (q.complete r t completion source) :=
  .single (.register (grows_complete ..))

lemma pending_complete (s : Slot) (source : WakeSource) (hc : completion ≠ .none) :
    (q.complete s.registration s.ticket completion source).pending s = false := by
  simp only [pending, complete, setRegistration, update_self, WaitRegistration.complete]
  split
  · next h => simpa [hc] using h
  · rfl

lemma moves_completeAll (ended : List (ℕ × WaitCompletion × WakeSource)) : Moves fair capacity q (q.completeAll ended) := by
  induction ended generalizing q with
  | nil => exact .refl
  | cons e ended ih => exact (moves_complete ..).trans ih

lemma slots_completeAll (ended : List (ℕ × WaitCompletion × WakeSource)) : (q.completeAll ended).slots = q.slots := by
  induction ended generalizing q with
  | nil => rfl
  | cons e ended ih => exact ih

lemma moves_pruneIn (is : List ℕ) : Moves fair capacity q (pruneIn is q) := by
  induction is generalizing q with
  | nil => exact .refl
  | cons i is ih =>
  refine .trans ?_ ih
  split_ifs with h
  · obtain ⟨s, hs⟩ := Option.isSome_iff_exists.mp (Option.isSome_of_any h)
    exact .single (.detach hs)
  · exact .refl

structure Wakes (capacity : ℕ) (source : WakeSource) (completion : WaitCompletion) (q : WaitQueue)
    (r : Bool × WaitQueue) : Prop where
  none : r.1 = false → q.waiters capacity = []
  first : r.1 = true → ∃ s, (q.waiters capacity).head? = some s ∧ (completion ≠ .none → r.2.pending s = false) ∧
    r.2.registrations = (q.complete s.registration s.ticket completion source).registrations

lemma Inv.wakeIn (hi : Inv capacity q) (ho : q.order capacity = a ++ is) (ha : ∀ j ∈ a, q.slots j = none) :
    Moves fair capacity q (q.wakeIn capacity source completion is).2 ∧
      Wakes capacity source completion q (q.wakeIn capacity source completion is) := by
  induction is generalizing q a with
  | nil =>
    refine ⟨.refl, fun _ => ?_, nofun⟩
    rw [waiters, entries, ho, append_nil, filterMap_eq_nil_iff.mpr ha, filter_nil]
  | cons i is ih =>
  have hone : q.order capacity = (a ++ [i]) ++ is := by rw [ho]; simp
  unfold WaitQueue.wakeIn
  cases hs : q.slots i with
  | none => exact ih hi hone (by simpa [or_imp, forall_and, hs] using ha)
  | some s =>
  obtain ⟨he, hd⟩ := entries_split ho hs
  rw [filterMap_eq_nil_iff.mpr ha, nil_append] at he hd
  have hnone : ∀ j ∈ a ++ [i], (q.detach i).slots j = none := by
    intro j hj
    simp only [WaitQueue.detach, update_apply]
    split_ifs with hji
    · rfl
    · exact ha j ((mem_append.mp hj).resolve_right fun h => hji (mem_singleton.mp h))
  dsimp only
  split_ifs with hp
  · refine ⟨((moves_complete ..).tail (.detach hs)).tail (.turn ho hnone), nofun, fun _ =>
      ⟨s, ?_, pending_complete s source, rfl⟩⟩
    rw [waiters, he, filter_cons_of_pos hp, head?_cons]
  obtain ⟨hmoves, hno, hfirst⟩ := ih (hi.detach hs) hone hnone
  have hsame : (q.detach i).waiters capacity = q.waiters capacity := by
    rw [waiters, waiters, hd, he, filter_cons_of_neg hp]
    rfl
  rw [hsame] at hno hfirst
  exact ⟨.head (.detach hs) hmoves, hno, hfirst⟩

lemma Inv.wakeOne (hi : Inv capacity q) (source : WakeSource) (completion : WaitCompletion) :
    (∀ fair, Moves fair capacity q (q.wakeOne capacity source completion).2) ∧
      Wakes capacity source completion q (q.wakeOne capacity source completion) :=
  ⟨fun _ => (hi.wakeIn (a := []) rfl nofun).1, (hi.wakeIn (a := []) rfl nofun : Moves False .. ∧ _).2⟩

structure Offers (is : List ℕ) (q : WaitQueue) (r : List Slot × WaitQueue) : Prop where
  order : r.1.Sublist (is.filterMap q.slots)
  live : ∀ s ∈ r.1, q.pending s = true
  ended : ∀ s ∈ is.filterMap q.slots, s ∉ r.1 → r.2.pending s = false

lemma notifyIn_offers (visit : Visit) (hn : is.Nodup) (hg : ∀ s ∈ is.filterMap q.slots, s.ticket.generation ≤
    (q.registrations s.registration).ticket.generation) :
    Moves fair capacity q (notifyIn visit is q).2 ∧ Offers is q (notifyIn visit is q) := by
  induction is generalizing q with
  | nil => exact ⟨.refl, .refl _, nofun, nofun⟩
  | cons i is ih =>
  obtain ⟨hni, hn⟩ := nodup_cons.mp hn
  have hrest {p : WaitQueue} (hm : Moves fair capacity q p) (hp : ∀ j ∈ is, p.slots j = q.slots j) (hg : ∀ s ∈ is.filterMap q.slots,
      s.ticket.generation ≤ (q.registrations s.registration).ticket.generation) :
      Moves fair capacity q (notifyIn visit is p).2 ∧ Offers is q (notifyIn visit is p) := by
    have hsame := filterMap_congr hp
    obtain ⟨hmoves, horder, hlive, hended⟩ := ih hn fun s hs => (hg s (hsame ▸ hs)).trans (hm.grows _).1
    rw [hsame] at horder hended
    refine ⟨hm.trans hmoves, horder, fun s hs => Bool.of_not_eq_false fun h => ?_, hended⟩
    have hfalse := (hm.grows _).2 _ (hg s (horder.subset hs)) h
    exact Bool.noConfusion (hfalse.symm.trans (hlive s hs))
  have hdet (p : WaitQueue) (hp : p.slots = q.slots) : ∀ j ∈ is, (p.detach i).slots j = q.slots j := fun j hj =>
    (update_of_ne (ne_of_mem_of_not_mem hj hni) ..).trans (congrFun hp j)
  unfold notifyIn
  cases hs : q.slots i with
  | none =>
    have hfm : (i :: is).filterMap q.slots = is.filterMap q.slots := by rw [filterMap_cons, hs]
    rw [hfm] at hg
    obtain ⟨hmoves, horder, hlive, hended⟩ := hrest .refl (fun _ _ => rfl) hg
    exact ⟨hmoves, hfm ▸ horder, hlive, hfm ▸ hended⟩
  | some s =>
  have hfm : (i :: is).filterMap q.slots = s :: is.filterMap q.slots := by rw [filterMap_cons, hs]
  rw [hfm, forall_mem_cons] at hg
  have hall := slots_completeAll (q := q) (visit s.ticket).2
  have hoffer {p : WaitQueue} (hp : q.pending s = true) (hm : Moves fair capacity q p) (hsl : ∀ j ∈ is, p.slots j = q.slots j) :
      Moves fair capacity q (notifyIn visit is p).2 ∧
        Offers (i :: is) q (s :: (notifyIn visit is p).1, (notifyIn visit is p).2) := by
    obtain ⟨hmoves, horder, hlive, hended⟩ := hrest hm hsl hg.2
    refine ⟨hmoves, ?_, forall_mem_cons.mpr ⟨hp, hlive⟩, ?_⟩ <;> rw [hfm]
    · exact horder.cons_cons _
    · exact forall_mem_cons.mpr ⟨fun h => absurd mem_cons_self h, fun t ht hno => hended t ht fun h => hno (.tail _ h)⟩
  dsimp only
  split_ifs with hp
  · exact hoffer hp ((moves_completeAll _).tail (.detach (hall ▸ hs))) (hdet _ hall)
  · exact hoffer hp (moves_completeAll _) fun j _ => congrFun hall j
  obtain ⟨hmoves, horder, hlive, hended⟩ := hrest (.single (.detach hs)) (hdet q rfl) hg.2
  refine ⟨hmoves, ?_, hlive, ?_⟩ <;> rw [hfm]
  · exact horder.cons _
  · exact forall_mem_cons.mpr ⟨fun _ => (hmoves.grows _).2 _ hg.1 (eq_false_of_ne_true hp), hended⟩

lemma Inv.notify (hi : Inv capacity q) (visit : Visit) :
    (∀ fair, Moves fair capacity q (q.notify capacity visit).2) ∧ Offers (q.order capacity) q (q.notify capacity visit) :=
  ⟨fun _ => (notifyIn_offers visit (nodup_order capacity q) hi.issued).1,
    (notifyIn_offers visit (nodup_order capacity q) hi.issued : Moves False capacity .. ∧ _).2⟩

lemma Inv.wakeAll (hi : Inv capacity q) (fuel : ℕ) : Moves fair capacity q (wakeAll capacity source completion fuel q) := by
  induction fuel generalizing q with
  | zero => exact .refl
  | succ fuel ih =>
  have hw := (hi.wakeOne source completion).1 fair
  unfold WaitQueue.wakeAll
  generalize q.wakeOne capacity source completion = r at hw
  obtain ⟨_ | _, q'⟩ := r
  · exact hw
  · exact hw.trans (ih (hw.inv hi))

end WaitQueue

inductive Op
  | prepare (r owner thread : ℕ)
  | enlist (r : ℕ)
  | cancel (ticket : WaitTicket)
  | wakeOne (source : WakeSource) (completion : WaitCompletion)
  | wakeAll (source : WakeSource) (completion : WaitCompletion)
  | notify (visit : Visit)
  | prune
  | arm (r owner thread : ℕ)
  | complete (r : ℕ) (ticket : WaitTicket) (completion : WaitCompletion) (source : WakeSource)

open WaitQueue

def Op.step (capacity : ℕ) (q : WaitQueue) : Op → WaitQueue
  | prepare r owner thread => (q.prepare capacity r owner thread).2
  | enlist r => (q.enlist capacity r).2
  | cancel ticket => (q.cancel capacity ticket).2
  | wakeOne source completion => (q.wakeOne capacity source completion).2
  | wakeAll source completion => q.wakeAll capacity source completion (capacity + 1)
  | notify visit => (q.notify capacity visit).2
  | prune => q.prune capacity
  | arm r owner thread => (q.arm r owner thread).2
  | complete r ticket completion source => q.complete r ticket completion source

/-- A call that attaches a waiter attaches it behind the others. -/
def Op.fits (capacity : ℕ) (q : WaitQueue) : Op → Bool
  | prepare r owner thread => !(q.prepare capacity r owner thread).1.isOk || q.behind capacity
  | enlist r => !(q.enlist capacity r).1.isOk || (q.prune capacity).behind capacity
  | _ => true

variable {fair : Prop} {capacity : ℕ} {q q' : WaitQueue} {op : Op}

lemma arm_ticket {x : WaitRegistration} {owner thread : ℕ} {ticket : WaitTicket} (h : (x.arm owner thread).1 = .ok ticket) :
    (x.arm owner thread).2.ticket = ticket := by
  unfold WaitRegistration.arm at h ⊢
  split_ifs at h ⊢
  exact Except.ok.inj h

lemma behind_arm (hi : Inv capacity q) {r owner thread : ℕ} (hb : q.behind capacity = true) :
    (q.arm r owner thread).2.behind capacity = true := by
  have hv : (q.arm r owner thread).2.vacant capacity = q.vacant capacity := rfl
  have ho : (q.arm r owner thread).2.order capacity = q.order capacity := rfl
  rw [behind] at hb ⊢
  rw [hv, ho]
  cases h : q.vacant capacity with
  | none => rfl
  | some i =>
  rw [h, Option.all_some, all_eq_true] at hb
  rw [Option.all_some, all_eq_true]
  intro j hj
  have hbj := hb j hj
  change (q.slots j).all _ = true
  cases hs : q.slots j with
  | none => rfl
  | some s =>
    rw [hs, Option.all_some, Bool.not_eq_true'] at hbj
    rw [Option.all_some, Bool.not_eq_true']
    exact hi.ended (grows_arm ..) (mem_filterMap.mpr ⟨j, (dropWhile_sublist _).subset hj, hs⟩) hbj

lemma Op.moves (hi : Inv capacity q) (hf : fair → op.fits capacity q = true) : Moves fair capacity q (op.step capacity q) := by
  cases op with
  | prepare r owner thread =>
    have harm : Moves fair capacity q (q.arm r owner thread).2 := .single (.register (grows_arm ..))
    have hbehind (hok : (q.prepare capacity r owner thread).1.isOk = true) (h : fair) :
        (q.arm r owner thread).2.behind capacity = true := by
      have := hf h
      rw [Op.fits, hok] at this
      exact behind_arm hi (by simpa using this)
    unfold WaitQueue.prepare at hbehind
    dsimp only [Op.step, WaitQueue.prepare]
    split_ifs with hfull
    · exact .refl
    rw [if_neg hfull] at hbehind
    cases ha : q.arm r owner thread with
    | mk answer p =>
    rw [ha] at harm hbehind
    cases answer with
    | error status => exact harm
    | ok ticket =>
    dsimp only at hbehind ⊢
    cases hat : p.attach capacity r ticket with
    | none => exact harm.tail (.register (grows_complete ..))
    | some p' =>
    rw [hat] at hbehind
    obtain ⟨hok, rfl⟩ := Prod.mk.inj ha
    refine harm.tail (.attach (hbehind rfl) (le_of_eq ?_) hat)
    rw [← arm_ticket hok]
    simp [setRegistration]
  | enlist r =>
    have hprune : Moves fair capacity q (q.prune capacity) := moves_pruneIn _
    have hbehind (hok : (q.enlist capacity r).1.isOk = true) (h : fair) : (q.prune capacity).behind capacity = true := by
      have := hf h
      rw [Op.fits, hok] at this
      simpa using this
    unfold WaitQueue.enlist at hbehind
    dsimp only [Op.step, WaitQueue.enlist] at hbehind ⊢
    split_ifs at hbehind ⊢
    · exact .refl
    · exact .refl
    · exact hprune
    cases hat : (q.prune capacity).attach capacity r (q.registrations r).ticket with
    | none => exact hprune
    | some p =>
      rw [hat] at hbehind
      exact hprune.tail (.attach (hbehind rfl) (hprune.grows r).1 hat)
  | cancel ticket =>
    dsimp only [Op.step, WaitQueue.cancel]
    split
    · exact .refl
    split
    · exact .refl
    · next hs => exact (moves_complete ..).tail (.detach hs)
  | wakeOne source completion => exact (hi.wakeOne source completion).1 fair
  | wakeAll source completion => exact hi.wakeAll _
  | notify visit => exact (hi.notify visit).1 fair
  | prune => exact moves_pruneIn _
  | arm r owner thread => exact .single (.register (grows_arm ..))
  | complete r ticket completion source => exact moves_complete ..

def run (capacity : ℕ) (q : WaitQueue) (ops : List Op) : WaitQueue := ops.foldl (Op.step capacity) q

structure Sound (capacity : ℕ) (q : WaitQueue) : Prop where
  count : q.count = ((List.range capacity).filterMap q.slots).length
  wakes : ∀ source completion, Wakes capacity source completion q (q.wakeOne capacity source completion)
  notifies : ∀ visit, Offers (q.order capacity) q (q.notify capacity visit)
  stale : ∀ s ∈ q.entries capacity, q.pending s = false → ∀ ops, (run capacity q ops).pending s = false

end ObfuscationKernel.Sched.Queue
