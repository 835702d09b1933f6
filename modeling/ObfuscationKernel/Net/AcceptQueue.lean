import ObfuscationKernel.Net.Ownership

/-! The accept queue of a listener: its count agrees with what an accept answers, and children are chosen in the
order in which they completed their handshakes. -/

namespace ObfuscationKernel.Net.Tcp

open ObfuscationKernel.Core Library Wire Function ConnectionSlot TableOp TableReply

variable {p : Pools} {cap : Capacities} {σ : Type}

namespace EndpointTable

variable {t t' : EndpointTable p cap σ} {i : Fin p.connections} {j : Fin p.listeners} {x : Label p} {g lg q : ℕ}

lemma Settled.accepting (h : t.Settled) (hq : (t.connections i).queueOrder ≠ 0) :
    (t.connections i).core.state.accepting = true ∧ (t.connections i).parent = true ∧ (t.connections i).used = true := by
  obtain ⟨hp, hlater, -⟩ := (h.ok.slot i).queued hq
  have hyoung := ((h.ok.slot i).young hp).1
  have hu : (t.connections i).used = true := by
    by_contra hu
    rw [((h.ok.slot i).vacant (by simpa using hu)).2.1] at hp
    cases hp
  have hclosed := ((h.tidy i hu).2.2 hp).1
  refine ⟨?_, hp, hu⟩
  unfold Block.Young at hyoung
  revert hyoung hlater hclosed
  cases (t.connections i).core.state <;> simp [State.later, State.streaming, State.accepting]

lemma Settled.queued_iff (h : t.Settled) (i : Fin p.connections) (j : Fin p.listeners) (lg : ℕ) :
    (t.connections i).queued j lg = ((t.connections i).acceptable j lg && (t.connections i).acceptOperation == 0) := by
  unfold queued acceptable
  by_cases hq : (t.connections i).queueOrder = 0
  · simp [hq]
  · rw [(h.accepting hq).1, Bool.and_true]

lemma Settled.oldest_none (h : t.Settled) (j : Fin p.listeners) (lg : ℕ) :
    t.oldest j lg = none ↔ Slots.count (fun s => s.queued j lg) t.connections = 0 := by
  rw [Slots.count_eq_zero_iff, oldest_eq]
  constructor
  · intro hn i
    rw [h.queued_iff, ← Bool.not_eq_true]
    intro hg
    have hlt := Slots.pick_none hn (List.mem_finRange i) hg
    have hq : (t.connections i).queueOrder ≠ 0 := by omega
    have hle := ((h.ok.slot i).queued hq).2.2.trans h.ok.serial
    omega
  intro hall
  by_contra hn
  obtain ⟨i, hi⟩ := Option.ne_none_iff_exists'.mp hn
  have hg := ((Slots.pick_sound _).2.2 i hi).1
  rw [← h.queued_iff, hall i] at hg
  cases hg

structure InQueue (t : EndpointTable p cap σ) (i : Fin p.connections) (g : ℕ) (j : Fin p.listeners) (lg q : ℕ) : Prop where
  used : (t.connections i).used = true
  generation : (t.connections i).generation = g
  parent : (t.connections i).parent = true
  slot : (t.connections i).parentSlot = j
  listener : (t.connections i).parentGeneration = lg
  order : (t.connections i).queueOrder = q

lemma Change.inQueue (hx : Change x t t') (h : t.Ok) (hq : q ≠ 0) (hi : t.InQueue i g j lg q) :
    t'.InQueue i g j lg q ∨ t'.Grown i g := by
  obtain ⟨hg, hp | ⟨h1, h2, h3, h4, h5⟩⟩ := (hx.turned h i).queued hi.used hi.parent (hi.order ▸ hq)
  · exact .inr (.inr ⟨hg.trans hi.generation, hp⟩)
  · exact .inl ⟨h1, hg.trans hi.generation, h2, h3.trans hi.slot, h4.trans hi.listener, h5.trans hi.order⟩

lemma Change.serial_le (hx : Change x t t') : t.acceptSerial ≤ t'.acceptSerial := by
  cases hx with
  | flag _ _ hs => exact hs.ge
  | enqueue => exact Nat.le_succ _
  | _ => exact le_rfl

def Unowned (t : EndpointTable p cap σ) (i : Fin p.connections) (g : ℕ) : Prop :=
  g < (t.connections i).generation ∨ (t.connections i).generation = g ∧ (t.connections i).references = 0

lemma Change.unowned (hx : Change x t t') (ht : t.Ok) (ha : x ≠ .accept i) (hc : x ≠ .commit i) (h : t.Unowned i g) :
    t'.Unowned i g :=
  have hi := hx.turned ht i
  past_or hi.aged.generation h fun he hr => (hi.references ha hc hr).resolve_left he.not_gt

lemma commitAccept_cases (ticket : AcceptTicket) :
    ((t.commitAccept ticket).2 = t ∧ ∃ status, (t.commitAccept ticket).1 = .error status) ∨
      ∃ j k, t.listener ticket.listener = some j ∧ t.acceptChild ticket = some k ∧
        (t.connections k).acceptable j ticket.listener.generation = true ∧
        (t.commitAccept ticket).1 = .ok (t.connectionHandle k) ∧ ((t.commitAccept ticket).2.connections k).parent = false ∧
        ((t.commitAccept ticket).2.connections k).generation = (t.connections k).generation := by
  unfold commitAccept
  split
  · exact .inl ⟨rfl, _, rfl⟩
  next j k hv =>
  obtain ⟨hj, hk, ha, -⟩ := validateAccept_ok hv
  refine .inr ⟨j, k, hj, hk, ha, ?_, ?_, ?_⟩
  · rw [(acceptChild_iff.mp hk).2.1]
  iterate 2 simp only [setListener_connections, setConnection_self]

lemma prepareAccept_cases (handle : Handle) :
    ((t.prepareAccept handle).2 = t ∧ ∃ status, (t.prepareAccept handle).1 = .error status) ∨
      ∃ j k preview, t.listener handle = some j ∧ t.oldest j handle.generation = some k ∧
        (t.prepareAccept handle).1 = .ok preview ∧
        preview.ticket = ⟨handle, t.connectionHandle k, t.acceptOperationSerial + 1, (t.connections k).queueOrder⟩ ∧
        grip ((t.prepareAccept handle).2.connections k) = ((t.connections k).generation, t.acceptOperationSerial + 1,
          (t.connections k).queueOrder, (t.connections k).parentSlot, (t.connections k).parentGeneration) ∧
        ∀ i ≠ k, (t.prepareAccept handle).2.connections i = t.connections i := by
  unfold prepareAccept
  split
  · exact .inl ⟨rfl, _, rfl⟩
  split
  · exact .inl ⟨rfl, _, rfl⟩
  next j hj =>
  dsimp only
  split_ifs
  · exact .inl ⟨rfl, _, rfl⟩
  · exact .inl ⟨rfl, _, rfl⟩
  split
  · exact .inl ⟨rfl, _, rfl⟩
  next k hk =>
  split_ifs
  · exact .inl ⟨rfl, _, rfl⟩
  refine .inr ⟨j, k, _, hj, hk, rfl, rfl, ?_, fun i hi => ?_⟩
  · rw [setListener_connections, setConnection_self]
    rfl
  · rw [setListener_connections]
    exact setConnection_of_ne _ _ hi

def Reporting (t : EndpointTable p cap σ) (j : Fin p.listeners) : Prop :=
  t.retired = false ∧ (t.listeners j).terminal = false ∧ (t.listeners j).sequence ≠ t.limits.readinessMax

def Reserving (t : EndpointTable p cap σ) (j : Fin p.listeners) : Prop :=
  t.retired = false ∧ (t.listeners j).terminal = false ∧ (t.listeners j).sequence < t.limits.readinessMax - 1 ∧
    t.acceptOperationSerial ≠ t.limits.acceptOperationMax ∧ (t.listeners j).acceptHolds ≠ u64Max ∧
    ∀ i, (t.connections i).queued j (t.listeners j).generation = true → (t.connections i).sequence < t.limits.readinessMax

def Agrees (t : EndpointTable p cap σ) (h : Handle) (j : Fin p.listeners) : Prop :=
  ∃ r, t.readiness h = .ok r ∧ ((∃ c, (t.accept h).1 = .ok c) ↔ t.Reporting j ∧ r.acceptCount ≠ 0) ∧
    ((t.accept h).1 = .error (.wouldBlock "TCP accept queue is empty") ↔ t.Reporting j ∧ r.acceptCount = 0) ∧
    ((∃ c, (t.prepareAccept h).1 = .ok c) → r.acceptCount ≠ 0) ∧
    ((t.prepareAccept h).1 = .error (.wouldBlock "TCP accept queue is empty") → r.acceptCount = 0) ∧
    (t.Reserving j → r.acceptCount ≠ 0 → ∃ c, (t.prepareAccept h).1 = .ok c)

variable {h : Handle}

lemma accept_reply (hj : t.listener h = some j) : t.Reporting j ∧ (t.accept h).1 = (match t.oldest j h.generation with
      | none => .error (.wouldBlock "TCP accept queue is empty")
      | some i => .ok (t.connectionHandle i)) ∨
    ¬ t.Reporting j ∧ ∃ text, (t.accept h).1 = .error (.ioError text) := by
  unfold accept command
  by_cases hr : t.retired = true
  · rw [if_pos hr]
    exact .inr ⟨fun hp => by simp [hp.1] at hr, _, rfl⟩
  rw [if_neg hr]
  rw [hj]
  dsimp only
  by_cases hl : ((t.listeners j).terminal || (t.listeners j).sequence == t.limits.readinessMax) = true
  · rw [ensureListener, if_pos hl]
    refine .inr ⟨fun hp => ?_, _, rfl⟩
    simp [hp.2.1, hp.2.2] at hl
  rw [ensureListener, if_neg hl]
  simp only [Bool.or_eq_true, beq_iff_eq, not_or, Bool.not_eq_true] at hl
  refine .inl ⟨⟨by simpa using hr, hl⟩, ?_⟩
  dsimp only
  cases t.oldest j h.generation with
  | none => rfl
  | some i =>
  dsimp only
  rw [connectionHandle, bumpConnection, setConnection_self, (bump_flagged _ _).eq, bumpListener,
    setListener_connections, setConnection_self]
  rfl

lemma prepareAccept_empty (hj : t.listener h = some j)
    (he : (t.prepareAccept h).1 = .error (.wouldBlock "TCP accept queue is empty")) : t.oldest j h.generation = none := by
  unfold prepareAccept command at he
  by_cases hr : t.retired = true
  · rw [if_pos hr] at he
    cases he
  rw [hj] at he
  dsimp only at he
  split_ifs at he
  · cases he
  · cases he
  cases ho : t.oldest j h.generation with
  | none => rfl
  | some i =>
  rw [ho] at he
  dsimp only at he
  split_ifs at he
  cases he

lemma prepareAccept_reserves (hj : t.listener h = some j) (hp : t.Reserving j) {i : Fin p.connections}
    (ho : t.oldest j h.generation = some i) (hi : (t.connections i).queued j (t.listeners j).generation = true) :
    ∃ preview, (t.prepareAccept h).1 = .ok preview := by
  obtain ⟨hr, hterm, hseq, hop, hholds, hall⟩ := hp
  have hchild := hall i hi
  have hlist : ¬ ((t.listeners j).terminal || decide ((t.listeners j).sequence ≥ t.limits.readinessMax)) = true := by
    simp only [hterm, Bool.false_or, decide_eq_true_eq]
    omega
  have hlimit : ¬ (t.acceptOperationSerial = t.limits.acceptOperationMax || (t.listeners j).acceptHolds = u64Max) = true := by
    simp [hop, hholds]
  have hbump : ¬ ((t.listeners j).sequence ≥ t.limits.readinessMax - 1 ||
      (t.connections i).sequence ≥ t.limits.readinessMax) = true := by
    simp only [Bool.or_eq_true, decide_eq_true_eq]
    omega
  unfold prepareAccept command
  rw [if_neg (by simp [hr])]
  rw [hj]
  dsimp only
  rw [if_neg hlist, if_neg hlimit, ho]
  dsimp only
  rw [if_neg hbump]
  exact ⟨_, rfl⟩

lemma Settled.agrees (ht : t.Settled) (hj : t.listener h = some j) : t.Agrees h j := by
  have hkind : h.kind = .listener := by
    rw [(listener_iff.mp hj).1]
    rfl
  have hgen : h.generation = (t.listeners j).generation := by
    rw [(listener_iff.mp hj).1]
    rfl
  have hread : t.readiness h = .ok {
      handle := h, sequence := (t.listeners j).sequence
      terminal := (t.listeners j).terminal || t.retired, error := (t.listeners j).terminal || t.retired
      acceptCount := Slots.count (fun slot => slot.queued j h.generation) t.connections } := by
    unfold readiness
    rw [hkind]
    rw [hj]
  have hnone := ht.oldest_none j h.generation
  refine ⟨_, hread, ?_⟩
  simp only [ne_eq, ← hnone]
  have hprep : (∃ c, (t.prepareAccept h).1 = .ok c) → ¬ t.oldest j h.generation = none := by
    rintro ⟨c, hc⟩
    rcases prepareAccept_cases (t := t) h with ⟨-, status, he⟩ | ⟨j', k, preview, hj', hk, -⟩
    · rw [he] at hc
      cases hc
    · obtain rfl : j' = j := by simpa [hj'] using hj
      simp [hk]
  have hreserve : t.Reserving j → ¬ t.oldest j h.generation = none → ∃ c, (t.prepareAccept h).1 = .ok c := by
    intro hp hn
    obtain ⟨i, hi⟩ := Option.ne_none_iff_exists'.mp hn
    refine prepareAccept_reserves hj hp hi ?_
    rw [← hgen, ht.queued_iff]
    simpa using oldest_sound hi
  refine ⟨?_, ?_, hprep, prepareAccept_empty hj, hreserve⟩
  · rcases accept_reply hj with ⟨hp, he⟩ | ⟨hp, text, he⟩
    · rw [he]
      cases t.oldest j h.generation <;> simp [hp]
    · simp [he, hp]
  rcases accept_reply hj with ⟨hp, he⟩ | ⟨hp, text, he⟩
  · rw [he]
    cases t.oldest j h.generation <;> simp [hp]
  · rw [he]
    exact iff_of_false (fun hb => by cases hb) fun hb => hp hb.1

structure Child (p : Pools) where
  slot : Fin p.connections
  generation : ℕ
  deriving DecidableEq

def childHandle (t : EndpointTable p cap σ) (child : Child p) : Handle :=
  ⟨t.identity, child.generation, child.slot, .connection⟩

def Waiting (t : EndpointTable p cap σ) (child : Child p) (j : Fin p.listeners) (lg : ℕ) : Prop :=
  (t.connections child.slot).generation = child.generation ∧ (t.connections child.slot).childOf j lg = true ∧
    (t.connections child.slot).core.state.accepting = true

variable {child : Child p} {op : TableOp p}

lemma childHandle_eq_iff : t.connectionHandle i = t.childHandle child ↔
    child.slot = i ∧ (t.connections i).generation = child.generation := by
  simp only [connectionHandle, childHandle, Handle.mk.injEq, true_and, and_true, Fin.val_inj]
  tauto

lemma Settled.waiting_iff (h : t.Settled) : t.Waiting child j lg ↔
    ∃ q ≠ 0, t.InQueue child.slot child.generation j lg q := by
  unfold Waiting
  rw [childOf_iff]
  constructor
  · rintro ⟨hg, ⟨hu, hp, hs, hl⟩, ha⟩
    exact ⟨_, ((h.tidy child.slot hu).2.2 hp).2.2 ha, ⟨hu, hg, hp, hs, hl, rfl⟩⟩
  rintro ⟨q, hq, hi⟩
  have hn := hi.order ▸ hq
  exact ⟨hi.generation, ⟨hi.used, hi.parent, hi.slot, hi.listener⟩, (h.accepting hn).1⟩

variable {ops : List (TableOp p)} {a b c k m : ℕ}

lemma Grown.not_inQueue (hg : t.Grown i g) : ¬ t.InQueue i g j lg q := by
  intro hi
  rcases hg with hlt | ⟨-, hp⟩
  · exact absurd hi.generation hlt.ne'
  · rw [hi.parent] at hp
    cases hp

variable [CongestionControl σ]

lemma accept_cases (handle : Handle) (h : t.Settled) :
    (t.Calm (t.accept handle).2 ∧ ∃ status, (t.accept handle).1 = .error status) ∨
      ∃ j k, t.listener handle = some j ∧ t.oldest j handle.generation = some k ∧
        (t.accept handle).1 = .ok (t.connectionHandle k) ∧ ((t.accept handle).2.connections k).parent = false ∧
        ((t.accept handle).2.connections k).generation = (t.connections k).generation := by
  unfold accept
  split
  · exact .inl ⟨.refl h, _, rfl⟩
  split
  · exact .inl ⟨.refl h, _, rfl⟩
  next j hj =>
  have hens := ensureListener_calm h j
  split
  · next t' he =>
    rw [he] at hens
    exact .inl ⟨hens, _, rfl⟩
  next t' he =>
  obtain rfl := ensureListener_same he
  split
  · exact .inl ⟨.refl h, _, rfl⟩
  next i hi =>
  set s : ConnectionSlot p cap σ := { t'.connections i with parent := false, queueOrder := 0, references := 1 } with hs
  have hconn : (((t'.setConnection i s).bumpListener j).bumpConnection i).connections i = s.bump t'.limits := by
    simp only [bumpConnection, bumpListener, setConnection_self, setListener_connections]
    rfl
  have hgen : (s.bump t'.limits).generation = (t'.connections i).generation := by rw [(bump_flagged _ _).eq]
  refine .inr ⟨j, i, hj, hi, ?_, ?_, ?_⟩
  · dsimp only
    rw [connectionHandle, hconn, hgen]
    rfl
  · dsimp only
    rw [hconn, (bump_flagged _ _).eq]
  · dsimp only
    rw [hconn, hgen]

def Completes (t t' : EndpointTable p cap σ) (child : Child p) (j : Fin p.listeners) (lg : ℕ) : Prop :=
  ¬ t.Waiting child j lg ∧ t'.Waiting child j lg

def Hands (t : EndpointTable p cap σ) (op : TableOp p) (child : Child p) : Prop :=
  ((∃ h, op = .accept h) ∨ ∃ ticket, op = .commitAccept ticket) ∧ (op.run t).1 = .handle (.ok (t.childHandle child))

def Chooses (t : EndpointTable p cap σ) (op : TableOp p) (child : Child p) (j : Fin p.listeners) (lg : ℕ) : Prop :=
  ∃ h, t.listener h = some j ∧ h.generation = lg ∧ (op = .accept h ∧ (op.run t).1 = .handle (.ok (t.childHandle child)) ∨
      op = .prepareAccept h ∧ ∃ preview, (op.run t).1 = .preview (.ok preview) ∧ preview.ticket.child = t.childHandle child)

lemma Hands.took (ht : t.Settled) (h : t.Hands op child) : ∃ j lg, (t.connections child.slot).acceptable j lg = true ∧
    (t.connections child.slot).generation = child.generation ∧ (op.run t).2.Grown child.slot child.generation := by
  obtain ⟨⟨handle, rfl⟩ | ⟨ticket, rfl⟩, he⟩ := h
  · have he : (t.accept handle).1 = .ok (t.childHandle child) := TableReply.handle.inj he
    rcases accept_cases handle ht with ⟨-, status, hr⟩ | ⟨j, k, -, hk, hr, hp, hg⟩
    · rw [hr] at he
      cases he
    · obtain ⟨rfl, hgen⟩ := childHandle_eq_iff.mp (Except.ok.inj (hr.symm.trans he))
      exact ⟨_, _, (oldest_sound hk).1, hgen, .inr ⟨hg.trans hgen, hp⟩⟩
  have he : (t.commitAccept ticket).1 = .ok (t.childHandle child) := handle.inj he
  rcases commitAccept_cases (t := t) ticket with ⟨-, status, hr⟩ | ⟨j, k, -, -, hk, hr, hp, hg⟩
  · rw [hr] at he
    cases he
  · obtain ⟨rfl, hgen⟩ := childHandle_eq_iff.mp (Except.ok.inj (hr.symm.trans he))
    exact ⟨_, _, hk, hgen, .inr ⟨hg.trans hgen, hp⟩⟩

lemma Hands.grown (ht : t.Settled) (h : t.Hands op child) : (op.run t).2.Grown child.slot child.generation := by
  obtain ⟨-, -, -, -, hg⟩ := h.took ht
  exact hg

lemma Hands.waiting (ht : t.Settled) (h : t.Hands op child) : ∃ j lg, t.Waiting child j lg := by
  obtain ⟨j, lg, hk, hgen, -⟩ := h.took ht
  simp only [acceptable, Bool.and_eq_true] at hk
  exact ⟨j, lg, hgen, hk.1.1.1, hk.2⟩

lemma Chooses.oldest (ht : t.Settled) (h : t.Chooses op child j lg) :
    t.oldest j lg = some child.slot ∧ (t.connections child.slot).generation = child.generation := by
  obtain ⟨handle, hj, rfl, ⟨rfl, he⟩ | ⟨rfl, preview, he, hchild⟩⟩ := h
  · have he : (t.accept handle).1 = .ok (t.childHandle child) := TableReply.handle.inj he
    rcases accept_cases handle ht with ⟨-, status, hr⟩ | ⟨j', k, hj', hk, hr, -⟩
    · rw [hr] at he
      cases he
    obtain rfl : j' = j := by simpa [hj'] using hj
    obtain ⟨rfl, hgen⟩ := childHandle_eq_iff.mp (Except.ok.inj (hr.symm.trans he))
    exact ⟨hk, hgen⟩
  have he : (t.prepareAccept handle).1 = .ok preview := TableReply.preview.inj he
  rcases prepareAccept_cases (t := t) handle with ⟨-, status, hr⟩ | ⟨j', k, preview', hj', hk, hr, htick, -⟩
  · rw [hr] at he
    cases he
  obtain rfl : j' = j := by simpa [hj'] using hj
  obtain rfl := Except.ok.inj (hr.symm.trans he)
  rw [htick] at hchild
  obtain ⟨rfl, hgen⟩ := childHandle_eq_iff.mp hchild
  exact ⟨hk, hgen⟩

def after (t : EndpointTable p cap σ) (ops : List (TableOp p)) (k : ℕ) : EndpointTable p cap σ := TableOp.runs t (ops.take k)

lemma after_succ (h : ops[k]? = some op) : t.after ops (k + 1) = (op.run (t.after ops k)).2 := by
  simp [after, runs, List.take_add_one, h]

lemma after_past (h : ops[k]? = none) : t.after ops (k + 1) = t.after ops k := by
  simp [after, runs, List.take_add_one, h]

lemma after_settled (ht : t.Settled) (k : ℕ) : (t.after ops k).Settled := runs_settled ht _

lemma after_steps (ht : t.Settled) (h : a ≤ b) : Steps (fun _ => True) (t.after ops a) (t.after ops b) := by
  induction b, h using Nat.le_induction with
  | base => exact .refl
  | succ b _ ih =>
  cases hop : ops[b]? with
  | none => rwa [after_past hop]
  | some op =>
    rw [after_succ hop]
    exact ih.trans ((run_leads (after_settled ht b) op).steps.mono fun _ _ => trivial)

lemma after_grown (ht : t.Settled) (h : a ≤ b) (hg : (t.after ops a).Grown i g) : (t.after ops b).Grown i g :=
  (after_steps ht h).keeps (after_settled ht a).ok (P := fun t => t.Grown i g) (fun _ _ _ _ hc ho hg => hc.grown ho hg) hg

lemma after_inQueue (ht : t.Settled) (h : a ≤ b) (hq : q ≠ 0) (hi : (t.after ops a).InQueue i g j lg q) :
    (t.after ops b).InQueue i g j lg q ∨ (t.after ops b).Grown i g :=
  (after_steps ht h).keeps (after_settled ht a).ok (P := fun t => t.InQueue i g j lg q ∨ t.Grown i g)
    (fun _ _ _ _ hc ho hp => hp.elim (hc.inQueue ho hq) fun hg => .inr (hc.grown ho hg)) (.inl hi)

lemma Completes.inQueue (ht : t.Settled) (h : (t.after ops b).Completes (t.after ops (b + 1)) child j lg) :
    ∃ q, (t.after ops b).acceptSerial < q ∧ (t.after ops (b + 1)).InQueue child.slot child.generation j lg q := by
  have hb : (t.after ops b).Settled := after_settled ht b
  obtain ⟨hbefore, hafter⟩ := h
  obtain ⟨q, hq, hi⟩ := (after_settled ht (b + 1)).waiting_iff.mp hafter
  refine ⟨q, ?_, hi⟩
  have hpos := ((after_steps ht (Nat.le_succ b)).keeps hb.ok (P := fun u => (t.after ops b).acceptSerial ≤ u.acceptSerial ∧
    ((u.connections child.slot).queueOrder ≠ 0 → (t.after ops b).acceptSerial < (u.connections child.slot).queueOrder ∨
      (u.connections child.slot).generation = ((t.after ops b).connections child.slot).generation ∧
        (u.connections child.slot).queueOrder = ((t.after ops b).connections child.slot).queueOrder))
    (fun u u' _ _ hc ho hp => ?_) ⟨le_rfl, fun _ => .inr ⟨rfl, rfl⟩⟩).2 (hi.order ▸ hq)
  · rcases hpos with hlt | ⟨hgen, horder⟩
    · exact hi.order ▸ hlt
    have hq' : ((t.after ops b).connections child.slot).queueOrder ≠ 0 := by rwa [← horder, hi.order]
    obtain ⟨-, hp, hu⟩ := hb.accepting hq'
    have hi' : (t.after ops b).InQueue child.slot child.generation _ _ q :=
      ⟨hu, hgen.symm.trans hi.generation, hp, rfl, rfl, horder.symm.trans hi.order⟩
    rcases after_inQueue ht (Nat.le_succ b) hq hi' with hi'' | hg
    · refine absurd (hb.waiting_iff.mpr ⟨q, hq, ?_⟩) hbefore
      have hslot := hi''.slot.symm.trans hi.slot
      have hlist := hi''.listener.symm.trans hi.listener
      exact ⟨hu, hi'.generation, hp, hslot, hlist, hi'.order⟩
    · exact absurd hi hg.not_inQueue
  refine ⟨hp.1.trans hc.serial_le, fun hn => ?_⟩
  rcases (hc.turned ho _).order hn with hlt | ⟨hgen, horder⟩
  · exact .inl (hp.1.trans_lt hlt)
  · rw [hgen, horder]
    exact hp.2 (horder ▸ hn)

lemma Chooses.completed (ht : t.Settled) (h0 : ∀ i, (t.connections i).used = false)
    (hc : (t.after ops c).Chooses op child j lg) :
    ∃ b < c, (t.after ops b).Completes (t.after ops (b + 1)) child j lg := by
  obtain ⟨ho, hgen⟩ := hc.oldest (after_settled ht c)
  have hown := (oldest_sound ho).1
  simp only [acceptable, Bool.and_eq_true] at hown
  have hw : (t.after ops c).Waiting child j lg := ⟨hgen, hown.1.1.1, hown.2⟩
  clear hc ho hgen hown
  induction c with
  | zero =>
    have hu := (childOf_iff.mp hw.2.1).1
    rw [show (t.after ops 0) = t from rfl, h0] at hu
    cases hu
  | succ c ih =>
  by_cases hwc : (t.after ops c).Waiting child j lg
  · obtain ⟨b, hb, hcomp⟩ := ih hwc
    exact ⟨b, hb.trans (Nat.lt_succ_self c), hcomp⟩
  · exact ⟨c, Nat.lt_succ_self c, hwc, hw⟩

lemma Hands.once {op' : TableOp p} (ht : t.Settled) (hop : ops[a]? = some op) (ha : (t.after ops a).Hands op child)
    (hb : (t.after ops b).Hands op' child) : ¬ a < b := by
  intro hab
  have hg := ha.grown (after_settled ht a)
  rw [← after_succ hop] at hg
  obtain ⟨j, lg, hw⟩ := hb.waiting (after_settled ht b)
  obtain ⟨q, -, hi⟩ := (after_settled ht b).waiting_iff.mp hw
  exact (after_grown ht (Nat.succ_le_of_lt hab) hg).not_inQueue hi

end EndpointTable

open EndpointTable

variable [CongestionControl σ]

end ObfuscationKernel.Net.Tcp
