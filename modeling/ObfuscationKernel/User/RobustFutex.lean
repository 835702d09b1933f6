import Mathlib.Tactic

/-! The robust futex list of an exiting thread, walked in memory that the thread's program controls. -/

namespace ObfuscationKernel.User.Robust

open List

def robustWaiters : ℕ := 0x80000000
def robustOwnerDied : ℕ := 0x40000000
def robustTidMask : ℕ := 0x3fffffff
def robustListLimit : ℕ := 2048

def owner (v : ℕ) : ℕ := v &&& robustTidMask

def dead (v : ℕ) : ℕ := v &&& robustWaiters ||| robustOwnerDied

inductive RobustStop
  | complete | headFault | nodeFault | wordFault | limit
  deriving DecidableEq

structure RobustWalkReport where
  stop : RobustStop := .complete
  visited : ℕ := 0
  marked : ℕ := 0
  wakeAttempts : ℕ := 0
  piEntries : ℕ := 0
  deriving DecidableEq

/-- The user memory but for its bytes: the width and order of words, what can be read, and which words can be exchanged. -/
structure Access where
  wordBytes : ℕ
  bigEndian : Bool
  readable : ℕ → ℕ → Bool
  exchangeable : ℕ → Bool

structure Visit where
  address : ℕ
  pi : Bool
  pending : Bool
  marked : Bool
  deriving DecidableEq

structure Walk where
  bytes : ℕ → UInt8
  wakes : List ℕ := []
  handled : List Visit := []
  path : List ℕ := []
  report : RobustWalkReport := {}

namespace Access

variable (A : Access)

def size : ℕ := 256 ^ A.wordBytes

def value (bytes : ℕ → UInt8) (address : ℕ) : ℕ → ℕ
  | 0 => 0
  | n + 1 =>
    if A.bigEndian then value bytes address n * 256 + (bytes (address + n)).toNat
    else value bytes address n + (bytes (address + n)).toNat * 256 ^ n

def store32 (bytes : ℕ → UInt8) (address v : ℕ) : ℕ → UInt8 := fun i =>
  if address ≤ i ∧ i < address + 4 then UInt8.ofNat (v / 256 ^ (if A.bigEndian then 3 - (i - address) else i - address))
  else bytes i

def word (bytes : ℕ → UInt8) (address : ℕ) : Option ℕ :=
  if A.readable (address % A.size) A.wordBytes then some (A.value bytes (address % A.size) A.wordBytes) else none

def add (address offset : ℕ) : ℕ := (address + offset) % A.size

variable (offset tid : ℕ)

def death (node : ℕ) (pi pending : Bool) (w : Walk) : Bool × Walk :=
  let address := A.add node offset
  let w := if pi then { w with report.piEntries := w.report.piEntries + 1 } else w
  let wake (w : Walk) := { w with wakes := w.wakes ++ [address], report.wakeAttempts := w.report.wakeAttempts + 1 }
  if address % 4 ≠ 0 || !A.readable address 4 then (false, w)
  else
    let v := A.value w.bytes address 4
    if pending && !pi && owner v == 0 then (true, { wake w with handled := w.handled ++ [⟨address, pi, pending, false⟩] })
    else if owner v ≠ tid then (true, { w with handled := w.handled ++ [⟨address, pi, pending, false⟩] })
    else if !A.exchangeable address then (false, w)
    else
      let w := { w with
        bytes := A.store32 w.bytes address (dead v)
        handled := w.handled ++ [⟨address, pi, pending, true⟩]
        report.marked := w.report.marked + 1 }
      (true, if !pi && v &&& robustWaiters != 0 then wake w else w)

def walk (head pending : ℕ) : ℕ → ℕ → Bool → Walk → Bool × Walk
  | 0, _, _, w => (true, { w with report.stop := .limit })
  | left + 1, entry, pi, w =>
    if entry = head then (true, w)
    else
      let next := A.word w.bytes entry
      let w := { w with report.visited := w.report.visited + 1 }
      match if entry = pending then (true, w) else A.death offset tid entry pi false w with
      | (false, w) => (false, { w with report.stop := .wordFault })
      | (true, w) =>
        let w := { w with path := w.path ++ [entry] }
        match next with
        | none => (false, { w with report.stop := .nodeFault })
        | some next => walk head pending left (next / 2 * 2) (next % 2 == 1) w

end Access

variable {A : Access} {bytes : ℕ → UInt8} {tid offset a b n v : ℕ} {w : Walk}

lemma value_lt (A : Access) (bytes : ℕ → UInt8) (a n : ℕ) : A.value bytes a n < 256 ^ n := by
  induction n with
  | zero => simp [Access.value]
  | succ n ih =>
  have hb := Nat.le_of_lt_succ (bytes (a + n)).toNat_lt
  rw [Access.value, pow_succ]
  split
  · omega
  · nlinarith [Nat.one_le_two_pow (n := n)]

lemma value_four (A : Access) (bytes : ℕ → UInt8) (a : ℕ) : A.value bytes a 4 =
    if A.bigEndian then
      (((bytes a).toNat * 256 + (bytes (a + 1)).toNat) * 256 + (bytes (a + 2)).toNat) * 256 + (bytes (a + 3)).toNat
    else (bytes a).toNat + (bytes (a + 1)).toNat * 256 + (bytes (a + 2)).toNat * 256 ^ 2 + (bytes (a + 3)).toNat * 256 ^ 3 := by
  rw [Access.value, Access.value, Access.value, Access.value, Access.value]
  cases A.bigEndian <;> simp

lemma value_store (hv : v < 2 ^ 32) : A.value (A.store32 bytes a v) a 4 = v := by
  have hbyte : ∀ i < 4, A.store32 bytes a v (a + i) = UInt8.ofNat (v / 256 ^ (if A.bigEndian then 3 - i else i)) := by
    intro i hi
    rw [Access.store32, if_pos (by omega), Nat.add_sub_cancel_left]
  have hzero := hbyte 0 (by omega)
  rw [Nat.add_zero] at hzero
  rw [value_four, hzero, hbyte 1 (by omega), hbyte 2 (by omega), hbyte 3 (by omega)]
  cases A.bigEndian <;> norm_num <;> omega

lemma value_store_ne (ha : a % 4 = 0) (hb : b % 4 = 0) (hne : b ≠ a) :
    A.value (A.store32 bytes a v) b 4 = A.value bytes b 4 := by
  have hbyte : ∀ i < 4, A.store32 bytes a v (b + i) = bytes (b + i) := fun i hi => if_neg (by omega)
  have hzero := hbyte 0 (by omega)
  rw [Nat.add_zero] at hzero
  rw [value_four, value_four, hzero, hbyte 1 (by omega), hbyte 2 (by omega), hbyte 3 (by omega)]

lemma owner_dead (v : ℕ) : owner (dead v) = 0 := by
  have hw : robustWaiters &&& robustTidMask = 0 := by decide
  have hd : robustOwnerDied &&& robustTidMask = 0 := by decide
  rw [owner, dead, Nat.and_or_distrib_right, Nat.and_assoc, hw, hd, Nat.and_zero, Nat.or_zero]

lemma dead_lt (v : ℕ) : dead v < 2 ^ 32 :=
  Nat.or_lt_two_pow (Nat.and_le_right.trans_lt (by decide)) (by decide)

/-- The visits that wake a waiter: those that mark a word with waiters, and a pending one that finds no owner; never of a PI
entry. -/
def wakesOn (A : Access) (bytes : ℕ → UInt8) (x : Visit) : Bool :=
  !x.pi && (x.marked && A.value bytes x.address 4 &&& robustWaiters != 0 || x.pending && owner (A.value bytes x.address 4) == 0)

structure Sound (A : Access) (tid : ℕ) (bytes : ℕ → UInt8) (w : Walk) : Prop where
  aligned : ∀ x ∈ w.handled, x.address % 4 = 0
  words : ∀ a, a % 4 = 0 → A.value w.bytes a 4 =
    if (∃ x ∈ w.handled, x.address = a) ∧ owner (A.value bytes a 4) = tid then dead (A.value bytes a 4) else A.value bytes a 4
  marks : ∀ a, w.handled.countP (fun x => x.address == a && x.marked) =
    if (∃ x ∈ w.handled, x.address = a) ∧ owner (A.value bytes a 4) = tid then 1 else 0
  wakes : w.wakes = (w.handled.filter (wakesOn A bytes)).map Visit.address
  others : ∀ i, (∀ x ∈ w.handled, x.marked = true → i < x.address ∨ x.address + 4 ≤ i) → w.bytes i = bytes i

lemma Sound.congr (hs : Sound A tid bytes w) {w' : Walk} (hb : w'.bytes = w.bytes) (hw : w'.wakes = w.wakes)
    (hh : w'.handled = w.handled) : Sound A tid bytes w' := by
  obtain ⟨haligned, hwords, hmarks, hwakes, hothers⟩ := hs
  rw [← hh] at haligned hmarks hothers hwakes
  simp only [← hh, ← hb] at hwords hothers
  exact ⟨haligned, hwords, by simpa only [hh] using hmarks, hw.trans hwakes, hothers⟩

lemma Sound.current (hs : Sound A tid bytes w) (ha : a % 4 = 0) (ho : owner (A.value w.bytes a 4) = tid) (ht : tid ≠ 0) :
    A.value w.bytes a 4 = A.value bytes a 4 ∧ ¬∃ x ∈ w.handled, x.address = a := by
  have hc := hs.words a ha
  split_ifs at hc with h
  · rw [hc, owner_dead] at ho
    exact absurd ho.symm ht
  · exact ⟨hc, fun he => h ⟨he, hc ▸ ho⟩⟩

lemma Sound.visit (hs : Sound A tid bytes w) (ht : tid ≠ 0) {x : Visit} (hx : x.address % 4 = 0) {w' : Walk}
    (hh : w'.handled = w.handled ++ [x]) (hm : x.marked = true ↔ owner (A.value w.bytes x.address 4) = tid)
    (hb : w'.bytes = if x.marked then A.store32 w.bytes x.address (dead (A.value w.bytes x.address 4)) else w.bytes)
    (hw : w'.wakes = if wakesOn A bytes x then w.wakes ++ [x.address] else w.wakes) : Sound A tid bytes w' := by
  have hmem : ∀ a, (∃ y ∈ w'.handled, y.address = a) ↔ (∃ y ∈ w.handled, y.address = a) ∨ x.address = a := by
    intro a
    rw [hh]
    simp [or_and_right, exists_or]
  refine ⟨?_, fun a ha => ?_, fun a => ?_, ?_, fun i hi => ?_⟩
  · rw [hh]
    exact forall_mem_append.mpr ⟨hs.aligned, forall_mem_singleton.mpr hx⟩
  · simp only [hmem, hb]
    by_cases he : x.address = a
    · subst he
      by_cases hmark : x.marked = true
      · obtain ⟨hc, -⟩ := hs.current hx (hm.mp hmark) ht
        rw [if_pos hmark, value_store (dead_lt _), if_pos ⟨.inr rfl, hc ▸ hm.mp hmark⟩, hc]
      · have hc := hs.words x.address hx
        split_ifs at hc ⊢ <;> grind
    have hsame : A.value (if x.marked then A.store32 w.bytes x.address (dead (A.value w.bytes x.address 4)) else w.bytes) a 4 =
        A.value w.bytes a 4 := by
      split_ifs
      · exact value_store_ne hx ha (Ne.symm he)
      · rfl
    rw [hsame, hs.words a ha]
    simp [he]
  · simp only [hmem]
    rw [hh, countP_append, hs.marks a]
    by_cases he : x.address = a
    · subst he
      by_cases hmark : x.marked = true
      · obtain ⟨hc, hnew⟩ := hs.current hx (hm.mp hmark) ht
        simp [hmark, hnew, hc ▸ hm.mp hmark]
      · have hc := hs.words x.address hx
        split_ifs at hc ⊢ <;> grind
    · simp [he]
  · rw [hh, hw, filter_append, map_append, hs.wakes]
    split_ifs with h <;> simp [h]
  have hold := hs.others i fun y hy => hi y (by simp [hh, hy])
  rw [hb, ← hold]
  split_ifs with hmark
  · have hout := hi x (by simp [hh]) hmark
    exact if_neg (by omega)
  · rfl

def mark (A : Access) (tid : ℕ) (bytes : ℕ → UInt8) (a : ℕ) : ℕ → UInt8 :=
  if owner (A.value bytes a 4) = tid then A.store32 bytes a (dead (A.value bytes a 4)) else bytes

/-- The word cannot be read, or not be marked. -/
def Faulty (A : Access) (tid : ℕ) (bytes : ℕ → UInt8) (a : ℕ) : Prop :=
  a % 4 ≠ 0 ∨ A.readable a 4 = false ∨ owner (A.value bytes a 4) = tid ∧ A.exchangeable a = false

structure Handled (A : Access) (tid : ℕ) (w : Walk) (a : ℕ) (pi pending : Bool) (r : Bool × Walk) : Prop where
  faulty : r.1 = false → Faulty A tid w.bytes a ∧ r.2.bytes = w.bytes ∧ r.2.handled = w.handled
  handled : r.1 = true → r.2.bytes = mark A tid w.bytes a ∧ ∃ marked, r.2.handled = w.handled ++ [⟨a, pi, pending, marked⟩]
  path : r.2.path = w.path
  visited : r.2.report.visited = w.report.visited
  stop : r.2.report.stop = w.report.stop

lemma Sound.death (hs : Sound A tid bytes w) (ht : tid ≠ 0) (offset node : ℕ) (pi pending : Bool)
    (hp : pending = true → ∀ x ∈ w.handled, x.address ≠ A.add node offset) :
    Sound A tid bytes (A.death offset tid node pi pending w).2 ∧
      Handled A tid w (A.add node offset) pi pending (A.death offset tid node pi pending w) := by
  have hpi : ∀ r, (if pi then { w with report.piEntries := r } else w) =
      { w with report.piEntries := if pi then r else w.report.piEntries } := by
    intro r
    cases pi <;> rfl
  unfold Access.death
  simp only [hpi]
  generalize (if pi = true then w.report.piEntries + 1 else w.report.piEntries) = entries
  generalize A.add node offset = a at hp ⊢
  by_cases hread : (a % 4 ≠ 0 || !A.readable a 4) = true
  · have hfault : a % 4 ≠ 0 ∨ A.readable a 4 = false := by simpa using hread
    rw [if_pos hread]
    exact ⟨hs.congr rfl rfl rfl, ⟨fun _ => ⟨hfault.elim .inl fun h => .inr (.inl h), rfl, rfl⟩, (fun h => nomatch h),
      rfl, rfl, rfl⟩⟩
  have ha : a % 4 = 0 := by
    by_contra h
    simp [h] at hread
  have hfresh : pending = true → A.value w.bytes a 4 = A.value bytes a 4 := fun h =>
    (hs.words a ha).trans (if_neg fun ⟨⟨x, hx, he⟩, _⟩ => hp h x hx he)
  split_ifs with hpend howner hex hwait
  · simp only [Bool.and_eq_true, beq_iff_eq, Bool.not_eq_true'] at hpend
    have hother : ¬ owner (A.value w.bytes a 4) = tid := hpend.2 ▸ ht.symm
    refine ⟨hs.visit ht (x := ⟨a, pi, pending, false⟩) ha rfl ?_ rfl ?_,
      ⟨(fun h => nomatch h), fun _ => ⟨(if_neg hother).symm, _, rfl⟩, rfl, rfl, rfl⟩⟩
    · simpa using hother
    · simp [wakesOn, hpend, ← hfresh hpend.1.1]
  · refine ⟨hs.visit ht (x := ⟨a, pi, pending, false⟩) ha rfl ?_ rfl ?_,
      ⟨(fun h => nomatch h), fun _ => ⟨(if_neg howner).symm, _, rfl⟩, rfl, rfl, rfl⟩⟩
    · simpa using howner
    rw [if_neg]
    intro h
    simp only [wakesOn, Bool.false_and, Bool.false_or, Bool.and_eq_true] at h
    exact hpend (by simp [h.1, h.2.1, hfresh h.2.1, beq_iff_eq.mp h.2.2])
  · exact ⟨hs.congr rfl rfl rfl, ⟨fun _ => ⟨.inr (.inr ⟨not_not.mp howner, by simpa using hex⟩), rfl, rfl⟩, (fun h => nomatch h),
      rfl, rfl, rfl⟩⟩
  all_goals
    have howner := not_not.mp howner
    obtain ⟨hc, -⟩ := hs.current ha howner ht
    have hzero : owner (A.value bytes a 4) ≠ 0 := by
      rw [← hc, howner]
      exact ht
    refine ⟨hs.visit ht (x := ⟨a, pi, pending, true⟩) ha rfl (by simpa using howner) rfl ?_,
      ⟨(fun h => nomatch h), fun _ => ⟨(if_pos howner).symm, _, rfl⟩, rfl, rfl, rfl⟩⟩
    simp only [wakesOn, ← hc] at hzero ⊢
    simp_all

def node (link : ℕ) : ℕ := link / 2 * 2

section List

variable (A : Access) (tid offset pending first : ℕ) (bytes : ℕ → UInt8)

/-- The memory when the entries that some links lead to have been dealt with. -/
def memory (links : List ℕ) : ℕ → UInt8 :=
  (links.filter (node · ≠ pending)).foldl (fun m link => mark A tid m (A.add (node link) offset)) bytes

/-- The link that comes behind some links: the word of the node that the last of them leads to, from before it is dealt with. -/
def follow (links : List ℕ) : Option ℕ :=
  match links.getLast? with
  | none => some first
  | some link => A.word (memory A tid offset pending bytes links.dropLast) (node link)

/-- The links of the entries that a walk has gone through, each read from the node before, and what was done with the entries. -/
structure Listed (head : ℕ) (links : List ℕ) (w : Walk) : Prop where
  sound : Sound A tid bytes w
  stored : w.bytes = memory A tid offset pending bytes links
  path : w.path = links.map node
  chained : ∀ before link after, links = before ++ link :: after → follow A tid offset pending first bytes before = some link
  size : ∀ link ∈ links, link < A.size
  before : ∀ link ∈ links, node link ≠ head
  visits : w.handled.map (fun x => (x.address, x.pi)) =
    (links.filter (node · ≠ pending)).map fun link => (A.add (node link) offset, link % 2 == 1)

/-- Why a walk has ended behind some links. -/
def Ended (head : ℕ) (links : List ℕ) : RobustStop → Prop
  | .complete => ∃ link, follow A tid offset pending first bytes links = some link ∧ node link = head
  | .limit => links.length = robustListLimit
  | .nodeFault => follow A tid offset pending first bytes links = none
  | .wordFault => ∃ link, follow A tid offset pending first bytes links = some link ∧ node link ≠ head ∧ node link ≠ pending ∧
      Faulty A tid (memory A tid offset pending bytes links) (A.add (node link) offset)
  | .headFault => False

end List

lemma word_lt {x : ℕ} (h : A.word bytes a = some x) : x < A.size := by
  unfold Access.word at h
  split_ifs at h
  exact Option.some.inj h ▸ value_lt ..

lemma add_ne {x y : ℕ} (hx : x < A.size) (hy : y < A.size) (h : x ≠ y) : A.add x offset ≠ A.add y offset := by
  intro he
  exact h (Nat.ModEq.eq_of_lt_of_lt (Nat.ModEq.add_right_cancel' offset he) hx hy)

variable {pending first head : ℕ} {links : List ℕ} {r : Bool × Walk}

lemma node_le (link : ℕ) : node link ≤ link := Nat.div_mul_le_self link 2

lemma Listed.pending_fresh (hl : Listed A tid offset pending first bytes head links w) (hp : pending < A.size) :
    ∀ x ∈ w.handled, x.address ≠ A.add pending offset := by
  intro x hx
  have hmem := hl.visits ▸ mem_map_of_mem (f := fun x : Visit => (x.address, x.pi)) hx
  obtain ⟨link, hlink, he⟩ := mem_map.mp hmem
  simp only [mem_filter, decide_eq_true_eq] at hlink
  rw [← (Prod.mk.inj he).1]
  exact add_ne ((node_le link).trans_lt (hl.size link hlink.1)) hp hlink.2

lemma Listed.congr (hl : Listed A tid offset pending first bytes head links w) {w' : Walk} (hb : w'.bytes = w.bytes)
    (hw : w'.wakes = w.wakes) (hh : w'.handled = w.handled) (hp : w'.path = w.path) :
    Listed A tid offset pending first bytes head links w' :=
  { hl with
    sound := hl.sound.congr hb hw hh, stored := hb.trans hl.stored, path := hp.trans hl.path, visits := hh ▸ hl.visits }

/-- One round of the walk: the entry is dealt with unless it is the pending one. -/
lemma Listed.entry {link : ℕ} (ht : tid ≠ 0) (hl : Listed A tid offset pending first bytes head links w)
    (hfollow : follow A tid offset pending first bytes links = some link) (hsize : link < A.size) (hhead : node link ≠ head)
    (hr : (if node link = pending then (true, w) else A.death offset tid (node link) (link % 2 == 1) false w) = r) :
    (r.1 = false → Listed A tid offset pending first bytes head links r.2 ∧
      Ended A tid offset pending first bytes head links .wordFault) ∧
    (r.1 = true → Listed A tid offset pending first bytes head (links ++ [link]) { r.2 with path := r.2.path ++ [node link] }) ∧
    r.2.path = w.path ∧ r.2.report.visited = w.report.visited ∧ r.2.report.stop = w.report.stop := by
  have hchain : ∀ before x after, links ++ [link] = before ++ x :: after →
      follow A tid offset pending first bytes before = some x := by
    intro before x after h
    rcases eq_nil_or_concat after with rfl | ⟨rest, y, rfl⟩
    · obtain ⟨rfl, hx⟩ := append_inj' h rfl
      rw [hfollow, (cons.inj hx).1]
    · rw [concat_eq_append, ← cons_append, ← append_assoc] at h
      exact hl.chained before x rest (append_inj' h rfl).1
  have hmemory : memory A tid offset pending bytes (links ++ [link]) =
      if node link = pending then memory A tid offset pending bytes links
      else mark A tid (memory A tid offset pending bytes links) (A.add (node link) offset) := by
    unfold memory
    split_ifs with h <;> simp [h]
  have hsizes : ∀ x ∈ links ++ [link], x < A.size := forall_mem_append.mpr ⟨hl.size, forall_mem_singleton.mpr hsize⟩
  have hopen : ∀ x ∈ links ++ [link], node x ≠ head := forall_mem_append.mpr ⟨hl.before, forall_mem_singleton.mpr hhead⟩
  split_ifs at hr with he
  · subst hr
    refine ⟨(fun h => nomatch h), fun _ => ⟨hl.sound.congr rfl rfl rfl, ?_, by simp [hl.path], hchain, hsizes, hopen, ?_⟩,
      rfl, rfl, rfl⟩
    · rw [hmemory, if_pos he]
      exact hl.stored
    · simpa [he] using hl.visits
  obtain ⟨hs, hd⟩ := hl.sound.death ht offset (node link) (link % 2 == 1) false (fun h => nomatch h)
  rw [hr] at hs hd
  refine ⟨fun h => ?_, fun h => ?_, hd.path, hd.visited, hd.stop⟩
  · obtain ⟨hfault, hb, hh⟩ := hd.faulty h
    refine ⟨{ hl with sound := hs, stored := hb.trans hl.stored, path := hd.path.trans hl.path, visits := hh ▸ hl.visits },
      link, hfollow, hhead, he, hl.stored ▸ hfault⟩
  · obtain ⟨hb, marked, hh⟩ := hd.handled h
    refine ⟨hs.congr rfl rfl rfl, ?_, by simp [hd.path, hl.path], hchain, hsizes, hopen, ?_⟩
    · rw [hmemory, if_neg he, ← hl.stored]
      exact hb
    · simpa [hh, he] using hl.visits

structure Walked (A : Access) (tid offset pending first head : ℕ) (bytes : ℕ → UInt8) (links : List ℕ)
    (r : Bool × Walk) : Prop where
  listed : Listed A tid offset pending first bytes head links r.2
  ended : Ended A tid offset pending first bytes head links r.2.report.stop
  visited : r.2.report.visited = links.length + if r.2.report.stop = .wordFault then 1 else 0
  limit : r.2.report.visited ≤ robustListLimit
  next : r.1 = true ↔ r.2.report.stop = .complete ∨ r.2.report.stop = .limit

lemma Listed.walk (ht : tid ≠ 0) (left link : ℕ) (hl : Listed A tid offset pending first bytes head links w)
    (hfollow : follow A tid offset pending first bytes links = some link) (hsize : link < A.size)
    (hv : w.report.visited + left = robustListLimit) (hpath : links.length = w.report.visited)
    (hstop : w.report.stop = .complete) : ∃ links, Walked A tid offset pending first head bytes links
      (A.walk offset tid head pending left (node link) (link % 2 == 1) w) := by
  induction left generalizing link links w with
  | zero => exact ⟨links, hl.congr rfl rfl rfl rfl, hpath.trans hv, hpath.symm, hv.le, by simp [Access.walk]⟩
  | succ left ih =>
  unfold Access.walk
  by_cases he : node link = head
  · rw [if_pos he]
    refine ⟨links, hl, ?_, ?_, Nat.le_of_add_right_le hv.le, by simp [hstop]⟩
    · rw [hstop]
      exact ⟨link, hfollow, he⟩
    · simp [hstop, hpath]
  have hl' : Listed A tid offset pending first bytes head links { w with report.visited := w.report.visited + 1 } :=
    hl.congr rfl rfl rfl rfl
  have hnext : A.word w.bytes (node link) = follow A tid offset pending first bytes (links ++ [link]) := by
    rw [follow, getLast?_concat, dropLast_concat, hl.stored]
  rw [if_neg he]
  dsimp only
  generalize hr : (if node link = pending then _ else _ : Bool × Walk) = r
  obtain ⟨hfault, hon, hp, hvis, hst⟩ := hl'.entry ht hfollow hsize he hr
  obtain ⟨ok, w₁⟩ := r
  dsimp only at hfault hon hp hvis hst
  cases ok with
  | false =>
    obtain ⟨hl₁, hended⟩ := hfault rfl
    exact ⟨links, hl₁.congr rfl rfl rfl rfl, hended, by simp [hvis, hpath], by rw [hvis]; omega, by simp⟩
  | true =>
  have hl₁ := hon rfl
  have hlength : (links ++ [link]).length = w₁.report.visited := by rw [length_append, hvis, hpath, length_singleton]
  rw [hnext]
  cases hn : follow A tid offset pending first bytes (links ++ [link]) with
  | none => exact ⟨_, hl₁.congr rfl rfl rfl rfl, hn, by simp [← hlength], by rw [hvis]; omega, by simp⟩
  | some next =>
    refine ih next hl₁ hn (word_lt (hnext.trans hn)) ?_ hlength (hst.trans hstop)
    rw [hvis]
    omega

/-- What a retirement has done: the entries of the list up to its end, the limit or a fault, and then the pending entry. -/
structure Retired (A : Access) (tid offset pendingLink first head : ℕ) (bytes : ℕ → UInt8) (links : List ℕ) (w : Walk) : Prop where
  path : w.path = links.map node
  chained : ∀ before link after, links = before ++ link :: after →
    follow A tid offset (node pendingLink) first bytes before = some link
  before : ∀ link ∈ links, node link ≠ head
  ended : Ended A tid offset (node pendingLink) first bytes head links w.report.stop ∨
    w.report.stop = .wordFault ∧ node pendingLink ≠ 0 ∧
      Faulty A tid (memory A tid offset (node pendingLink) bytes links) (A.add (node pendingLink) offset) ∧
      (Ended A tid offset (node pendingLink) first bytes head links .complete ∨
        Ended A tid offset (node pendingLink) first bytes head links .limit)
  limit : w.report.visited ≤ robustListLimit
  visited : links.length ≤ w.report.visited ∧ w.report.visited ≤ links.length + 1 ∧
    (w.report.stop ≠ .wordFault → w.report.visited = links.length)
  visits : w.handled.map (fun x => (x.address, x.pi)) =
    ((links.filter (node · ≠ node pendingLink)).map fun link => (A.add (node link) offset, link % 2 == 1)) ++
    if node pendingLink ≠ 0 ∧ (w.report.stop = .complete ∨ w.report.stop = .limit) then
      [(A.add (node pendingLink) offset, pendingLink % 2 == 1)] else []
  once : w.handled.countP (·.address == A.add (node pendingLink) offset) =
    if node pendingLink ≠ 0 ∧ (w.report.stop = .complete ∨ w.report.stop = .limit) then 1 else 0

lemma Walked.retire {pending : ℕ} (ht : tid ≠ 0) (hp : node pending < A.size)
    (hr : Walked A tid offset (node pending) first head bytes links r)
    {w : Walk} (hw : (if !r.1 || node pending == 0 then r.2 else
      if (A.death offset tid (node pending) (pending % 2 == 1) true r.2).1 then
        (A.death offset tid (node pending) (pending % 2 == 1) true r.2).2 else
        { (A.death offset tid (node pending) (pending % 2 == 1) true r.2).2 with report.stop := .wordFault }) = w) :
    Sound A tid bytes w ∧ Retired A tid offset pending first head bytes links w := by
  have hnone : r.2.handled.countP (·.address == A.add (node pending) offset) = 0 :=
    countP_eq_zero.mpr fun x hx => by simpa using hr.listed.pending_fresh hp x hx
  have hvisited : links.length ≤ r.2.report.visited ∧ r.2.report.visited ≤ links.length + 1 ∧
      (r.2.report.stop ≠ .wordFault → r.2.report.visited = links.length) := by
    have := hr.visited
    split_ifs at this with h
    · exact ⟨by omega, by omega, fun h' => absurd h h'⟩
    · exact ⟨by omega, by omega, fun _ => by omega⟩
  obtain ⟨hs, hd⟩ := hr.listed.sound.death ht offset (node pending) (pending % 2 == 1) true fun _ => hr.listed.pending_fresh hp
  by_cases hskip : (!r.1 || node pending == 0) = true
  · rw [if_pos hskip] at hw
    subst hw
    have hno : ¬(node pending ≠ 0 ∧ (r.2.report.stop = .complete ∨ r.2.report.stop = .limit)) := by
      rw [← hr.next]
      intro ⟨h, h'⟩
      simp [h, h'] at hskip
    refine ⟨hr.listed.sound, hr.listed.path, hr.listed.chained, hr.listed.before, .inl hr.ended, hr.limit, hvisited, ?_, ?_⟩
    · rw [if_neg hno, append_nil]
      exact hr.listed.visits
    · rw [if_neg hno]
      exact hnone
  rw [if_neg hskip] at hw
  have hnext : r.1 = true ∧ node pending ≠ 0 := by simpa using hskip
  have hstop := hr.next.mp hnext.1
  have hended := hr.ended
  generalize hdeath : A.death offset tid (node pending) (pending % 2 == 1) true r.2 = d at hs hd hw
  obtain ⟨ok, w'⟩ := d
  cases ok with
  | false =>
    simp only [Bool.false_eq_true, if_false] at hw
    subst hw
    obtain ⟨hfault, hb, hh⟩ := hd.faulty rfl
    dsimp only at hh
    refine ⟨hs.congr rfl rfl rfl, hd.path.trans hr.listed.path, hr.listed.chained, hr.listed.before, .inr ⟨rfl, hnext.2, ?_, ?_⟩,
      hd.visited ▸ hr.limit, hd.visited ▸ ⟨hvisited.1, hvisited.2.1, fun h => absurd rfl h⟩, ?_, ?_⟩
    · exact hr.listed.stored ▸ hfault
    · rcases hstop with h | h <;> rw [h] at hended
      · exact .inl hended
      · exact .inr hended
    · simpa [hh] using hr.listed.visits
    · simpa [hh] using hnone
  | true =>
  obtain ⟨-, marked, hh⟩ := hd.handled rfl
  simp only [if_true] at hw
  subst hw
  have hdo : node pending ≠ 0 ∧ (w'.report.stop = .complete ∨ w'.report.stop = .limit) := ⟨hnext.2, hd.stop ▸ hstop⟩
  refine ⟨hs, hd.path.trans hr.listed.path, hr.listed.chained, hr.listed.before, .inl (hd.stop ▸ hended), hd.visited ▸ hr.limit,
    hd.visited ▸ hd.stop ▸ hvisited, ?_, ?_⟩
  · rw [if_pos hdo, hh, map_append, hr.listed.visits, map_singleton]
  · rw [if_pos hdo, hh, countP_append, hnone]
    simp

end ObfuscationKernel.User.Robust
