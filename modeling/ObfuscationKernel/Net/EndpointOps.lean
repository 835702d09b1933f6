import ObfuscationKernel.Net.EndpointRuns

/-! Each operation of the endpoint table leads from a settled table to a settled table,
and decides accepts only as its arguments say. -/

namespace ObfuscationKernel.Net.Tcp

open ObfuscationKernel.Core Library Wire Function

variable {p : Pools} {cap : Capacities} {σ : Type}

lemma ConnectionSlot.Tidy.mono {s : ConnectionSlot p cap σ} (h : s.Tidy false) : s.Tidy true :=
  fun hu => ⟨(h hu).1, (h hu).2.1, fun hp => ⟨((h hu).2.2 hp).1, fun _ => rfl, ((h hu).2.2 hp).2.2⟩⟩

lemma ConnectionSlot.Tidy.congr {b : Bool} {s s' : ConnectionSlot p cap σ} (h : s.Tidy b)
    (hu : s'.used = true → s.used = true) (hs : s'.core.state = s.core.state) (hpeer : s'.core.peer = s.core.peer)
    (hp : s'.parent = true → s.parent = true ∧ s'.queueOrder = s.queueOrder ∧
      (s'.terminal = true → s.terminal = true ∨ b = true)) : s'.Tidy b := by
  intro hu'
  obtain ⟨h1, h2, h3⟩ := h (hu hu')
  rw [hs, hpeer]
  refine ⟨h1, h2, fun hp' => ?_⟩
  obtain ⟨hpar, hq, ht⟩ := hp hp'
  obtain ⟨h4, h5, h6⟩ := h3 hpar
  exact ⟨h4, fun hx => (ht hx).elim h5 id, hq ▸ h6⟩

lemma ConnectionSlot.Tidy.flagged {b : Bool} {s s' : ConnectionSlot p cap σ} (h : s.Tidy b) (hf : s.Flagged s')
    (hs : s'.parent = true → s'.terminal = true → s.terminal = true ∨ b = true) : s'.Tidy b := by
  refine h.congr ?_ ?_ ?_ fun hp => ⟨?_, ?_, hs hp⟩
  · rw [hf.eq]; exact id
  · rw [hf.eq]
  · rw [hf.eq]
  · rw [hf.eq] at hp; exact hp
  · rw [hf.eq]

def TableOp.Decides (t : EndpointTable p cap σ) (op : TableOp p) : Label p → Prop
  | .quiet => True
  | .accept i => ∃ h j, op = .accept h ∧ t.listener h = some j ∧ t.oldest j h.generation = some i
  | .hold i => ∃ h j, op = .prepareAccept h ∧ t.listener h = some j ∧ t.oldest j h.generation = some i
  | .commit i => ∃ ticket, op = .commitAccept ticket ∧ t.acceptChild ticket = some i
  | .cancel i => ∃ ticket, op = .cancelAccept ticket ∧ t.acceptChild ticket = some i

namespace EndpointTable

structure Leads (X : Label p → Prop) (t t' : EndpointTable p cap σ) : Prop where
  steps : Steps X t t'
  settled : t'.Settled

abbrev Calm (t t' : EndpointTable p cap σ) : Prop := Leads (· = .quiet) t t'

section

variable {X Y : Label p → Prop} {x : Label p} {t t' t'' : EndpointTable p cap σ} {i : Fin p.connections}
  {j : Fin p.listeners} {s : ConnectionSlot p cap σ} {l : ListenerSlot}

lemma Leads.refl (h : t.Settled) : Leads X t t := ⟨.refl, h⟩

lemma Leads.trans (h : Leads X t t') (h' : Leads X t' t'') : Leads X t t'' := ⟨h.steps.trans h'.steps, h'.settled⟩

lemma Leads.mono (h : Leads X t t') (hXY : ∀ x, X x → Y x) : Leads Y t t' := ⟨h.steps.mono hXY, h.settled⟩

lemma Calm.leads (h : t.Calm t') (hX : X .quiet) : Leads X t t' := h.mono fun _ hx => hx ▸ hX

lemma Leads.then (h : Leads X t t') (hX : X .quiet) (h' : t'.Calm t'') : Leads X t t'' := h.trans (h'.leads hX)

lemma Settled.elsewhere (h : t.Settled) (hx : Change x t t') (hX : X x) (hc : t'.connections = t.connections)
    (ht : t'.ticket = t.ticket) : Leads X t t' := by
  have hsel (k) : t'.selected k = t.selected k := by simp [selected, ht]
  refine ⟨.one hX hx, hx.ok h.ok, fun k => ?_, fun k => ?_⟩ <;> rw [hsel, hc]
  · exact h.paired k
  · exact h.tidy k

lemma Leads.clock (h : Leads X t t') (hX : X .quiet) (hc : t''.connections = t'.connections)
    (hl : t''.listeners = t'.listeners) (hs : t''.acceptSerial = t'.acceptSerial) (hi : t''.identity = t'.identity)
    (ht : t''.ticket = t'.ticket) : Leads X t t'' :=
  h.trans (h.settled.elsewhere (idle_change hc hl hs hi) hX hc ht)

lemma Settled.at (h : t.Settled) (now : ℕ) : t.Calm { t with now := now } :=
  (Leads.refl h).clock rfl rfl rfl rfl rfl rfl

lemma Settled.put (h : t.Settled) (hx : Steps X t (t.setConnection i s)) (hp : s.core.plan.active = t.selected i)
    (hi : s.Tidy (t.selected i)) : Leads X t (t.setConnection i s) := by
  refine ⟨hx, (h.but i).set (hx.ok h.ok) (fun k hk => setConnection_of_ne _ _ hk) rfl ?_ ?_⟩ <;> rwa [setConnection_self]

lemma Settled.set (h : t.Settled) (hx : Change x t t') (hX : X x)
    (hc : ∀ k, k ≠ i → t'.connections k = t.connections k) (ht : t'.ticket = t.ticket)
    (hp : (t'.connections i).core.plan.active = t.selected i) (hi : (t'.connections i).Tidy (t.selected i)) :
    Leads X t t' :=
  ⟨.one hX hx, (h.but i).set (hx.ok h.ok) hc ht hp hi⟩

lemma Settled.flag (h : t.Settled) (hf : (t.connections i).Flagged s)
    (hs : s.parent = true → s.terminal = true → (t.connections i).terminal = true ∨ t.selected i = true) :
    t.Calm (t.setConnection i s) := by
  refine h.set (flag_connection hf) rfl (fun k hk => setConnection_of_ne _ _ hk) rfl ?_ ?_ <;> rw [setConnection_self]
  · rw [hf.eq]
    exact h.paired i
  · exact (h.tidy i).flagged hf hs

lemma Settled.flagListener (h : t.Settled) (hf : (t.listeners j).Flagged l) : t.Calm (t.setListener j l) :=
  h.elsewhere (flag_listener hf) rfl rfl rfl

end

variable {t t' : EndpointTable p cap σ} {i : Fin p.connections} {j : Fin p.listeners}
  {s : ConnectionSlot p cap σ}

variable {generation : ℕ} {core : Connection cap σ} {ticket : AcceptTicket}

lemma settle_listeners (t : EndpointTable p cap σ) (i : Fin p.connections) (now : ℕ) (j : Fin p.listeners) :
    (t.listeners j).Flagged ((t.settle i now).listeners j) := by
  have hb (t' : EndpointTable p cap σ) (ht : t'.listeners = t.listeners) (k : Fin p.listeners) :
      (t.listeners j).Flagged ((t'.bumpListener k).listeners j) := by
    by_cases hj : j = k
    · subst hj
      rw [bumpListener, setListener_self, ht]
      exact bumpListener_flagged _ _
    · rw [bumpListener, setListener_of_ne _ _ hj, ht]
      rfl
  unfold settle
  dsimp only
  split_ifs
  · rfl
  iterate 3 exact hb _ rfl _
  · rfl

lemma setListener_setListener (t : EndpointTable p cap σ) (j : Fin p.listeners) (l l' : ListenerSlot) :
    (t.setListener j l).setListener j l' = t.setListener j l' := by
  simp [setListener]

lemma setListener_eq (t : EndpointTable p cap σ) (j : Fin p.listeners) : t.setListener j (t.listeners j) = t := by
  simp [setListener]

lemma childOf_iff : s.childOf j generation = true ↔
    s.used = true ∧ s.parent = true ∧ s.parentSlot = j ∧ s.parentGeneration = generation := by
  simp [ConnectionSlot.childOf, and_assoc]

lemma closeChild_listeners (owner : Fin p.listeners) (now : ℕ) (t : EndpointTable p cap σ) (i : Fin p.connections) :
    (t.listeners j).Flagged ((closeChild owner now t i).listeners j) := by
  unfold closeChild
  dsimp only
  split
  · exact settle_listeners _ i now j
  · rfl

lemma ensureConnection_true (h : (t.ensureConnection i).1 = true) :
    t.ensureConnection i = (true, t) ∧ (t.connections i).terminal = false ∧ (t.connections i).sequence ≠ t.limits.readinessMax := by
  unfold ensureConnection at h ⊢
  dsimp only at h ⊢
  split at h
  · cases h
  next hn =>
  simp only [Bool.or_eq_true, beq_iff_eq, not_or, Bool.not_eq_true] at hn
  simp [hn]

lemma ensureListener_same {t' : EndpointTable p cap σ} (h : t.ensureListener j = (true, t')) : t' = t := by
  unfold ensureListener at h
  split at h
  · cases h
  · cases h
    rfl

lemma listenIn_calm (here : Endpoint) (backlog : ℕ) (slots : List (Fin p.listeners)) (h : t.Settled) :
    t.Calm (t.listenIn here backlog slots).2 := by
  induction slots generalizing t with
  | nil => exact .refl h
  | cons j slots ih =>
  unfold listenIn
  dsimp only
  split_ifs with h1 h2
  · exact ih h
  · have hc := h.flagListener (j := j) (l := { t.listeners j with exhausted := true }) rfl
    exact hc.trans (ih hc.settled)
  · simp only [Bool.or_eq_true, bne_iff_ne, not_or, Bool.not_eq_true, not_not] at h1
    exact h.elsewhere (.listen j here backlog h1.1.1 h1.1.2) rfl rfl rfl

lemma listen_calm (here : Endpoint) (backlog : ℕ) (h : t.Settled) : t.Calm (t.listen here backlog).2 := by
  unfold listen
  split
  · exact .refl h
  split_ifs
  · exact .refl h
  · exact .refl h
  · exact listenIn_calm here backlog _ h

structure Marked (t t' : EndpointTable p cap σ) : Prop where
  table : t' = { t with connections := t'.connections }
  slot : ∀ i, t'.connections i = { t.connections i with exhausted := (t'.connections i).exhausted }

lemma vacantIn_marked (t : EndpointTable p cap σ) (slots : List (Fin p.connections)) : t.Marked (t.vacantIn slots).2 ∧
      ∀ i, (t.vacantIn slots).1 = some i → (t.connections i).used = false := by
  induction slots generalizing t with
  | nil => exact ⟨⟨rfl, fun _ => rfl⟩, by simp [vacantIn]⟩
  | cons i slots ih =>
  unfold vacantIn
  dsimp only
  split_ifs with h1 h2
  · exact ih t
  · obtain ⟨⟨h3, h4⟩, h5⟩ := ih (t.setConnection i { t.connections i with exhausted := true })
    refine ⟨⟨?_, fun k => ?_⟩, fun k hk => ?_⟩
    · rw [h3]
      rfl
    · rw [h4 k]
      by_cases hk : k = i
      · subst hk
        rw [setConnection_self]
      · rw [setConnection_of_ne _ _ hk]
    have h6 := h5 k hk
    by_cases hki : k = i
    · subst hki
      rwa [setConnection_self] at h6
    · rwa [setConnection_of_ne _ _ hki] at h6
  · simp only [Bool.or_eq_true, not_or, Bool.not_eq_true] at h1
    exact ⟨⟨rfl, fun _ => rfl⟩, fun k hk => by cases hk; exact h1.1⟩

lemma vacant_marked (t : EndpointTable p cap σ) :
    t.Marked t.vacant.2 ∧ ∀ i, t.vacant.1 = some i → (t.connections i).used = false :=
  t.vacantIn_marked _

lemma Marked.calm (hm : t.Marked t') (h : t.Settled) : t.Calm t' := by
  have hc : Change .quiet t t' := by
    refine .flag (fun i => ?_) (fun j => ?_) ?_ ?_
    · rw [hm.slot i]
      exact ⟨rfl, id, .inl⟩
    all_goals rw [hm.table]
    rfl
  refine ⟨Quiet.one hc, hc.ok h.ok, fun k => ?_, fun k => ?_⟩
  all_goals
    rw [show t'.selected k = t.selected k by rw [hm.table]; rfl, hm.slot k]
  · exact h.paired k
  · exact h.tidy k

lemma Marked.free (hm : t.Marked t') (h : t.Free core) : t'.Free core := by
  intro k
  rw [hm.slot k]
  exact h k

lemma Marked.children (hm : t.Marked t') (j : Fin p.listeners) :
    t'.listeners = t.listeners ∧ t'.children j = t.children j := by
  have hl : t'.listeners = t.listeners := by rw [hm.table]
  refine ⟨hl, Slots.count_congr fun i => ?_⟩
  rw [hl, hm.slot i]
  rfl

lemma free_of_tuple {here peer : Endpoint} (h : t.tuple here peer = none)
    (hl : core.localEndpoint = here) (hp : core.peer = peer) : t.Free core := by
  rintro k hu ⟨h1, h2⟩
  have hn := List.find?_eq_none.mp h k (List.mem_finRange k)
  simp [hu, h1, h2, hl, hp] at hn

lemma slot_eq_some {P : Prop} [Decidable P] {m n : ℕ} {c : Fin n → Bool} {k : Fin n} (hm : P → m < n) :
    (if hs : P then if c ⟨m, hm hs⟩ then some ⟨m, hm hs⟩ else none else none) = some k ↔ P ∧ m = k ∧ c k = true := by
  by_cases hs : P
  · rw [dif_pos hs, Option.ite_none_right_eq_some, Option.some.injEq]
    constructor
    · rintro ⟨hc, rfl⟩
      exact ⟨hs, rfl, hc⟩
    · rintro ⟨-, rfl, hc⟩
      exact ⟨hc, rfl⟩
  · simp [hs]

lemma connection_iff {h : Handle} : t.connection h = some i ↔
    h = t.connectionHandle i ∧ (t.connections i).used = true ∧ (t.connections i).references ≠ 0 := by
  refine (slot_eq_some (c := fun k => (t.connections k).used && (t.connections k).references != 0 &&
    (t.connections k).generation == h.generation) fun hs => hs.2.2).trans ?_
  simp only [connectionHandle, Bool.and_eq_true, bne_iff_ne, beq_iff_eq]
  grind [cases Handle]

lemma listener_iff {h : Handle} : t.listener h = some j ↔
    h = t.listenerHandle j ∧ (t.listeners j).used = true ∧ (t.listeners j).references ≠ 0 := by
  refine (slot_eq_some (c := fun k => (t.listeners k).used && (t.listeners k).references != 0 &&
    (t.listeners k).generation == h.generation) fun hs => hs.2.2).trans ?_
  simp only [listenerHandle, Bool.and_eq_true, bne_iff_ne, beq_iff_eq]
  grind [cases Handle]

lemma Settled.refer (h : t.Settled) {n : ℕ} (hr : (t.connections i).references ≠ 0) (hn : n ≠ 0) :
    t.Calm (t.setConnection i { t.connections i with references := n }) := by
  refine h.set (.refer i n hr hn) rfl (fun k hk => setConnection_of_ne _ _ hk) rfl ?_ ?_ <;> rw [setConnection_self]
  · exact h.paired i
  · exact h.tidy i

lemma retain_calm (handle : Handle) (h : t.Settled) : t.Calm (t.retain handle).2 := by
  unfold retain
  split
  · exact .refl h
  split
  · split
    · exact .refl h
    next j hj =>
    have hr := (listener_iff.mp hj).2.2
    dsimp only
    split_ifs
    · exact .refl h
    · exact h.elsewhere (.referListener j _ hr (Nat.succ_ne_zero _)) rfl rfl rfl
  split
  · exact .refl h
  next i hi =>
  have hr := (connection_iff.mp hi).2.2
  dsimp only
  split_ifs
  · exact .refl h
  · exact h.refer hr (Nat.succ_ne_zero _)

lemma oldest_eq (t : EndpointTable p cap σ) (j : Fin p.listeners) (generation : ℕ) : t.oldest j generation =
    (Slots.pick (fun i => (t.connections i).acceptable j generation && (t.connections i).acceptOperation == 0)
      (fun i => (t.connections i).queueOrder) u64Max (List.finRange p.connections)).1 := rfl

lemma oldest_sound (h : t.oldest j generation = some i) :
    (t.connections i).acceptable j generation = true ∧ (t.connections i).acceptOperation = 0 := by
  simpa using ((Slots.pick_sound _).2.2 i h).1

lemma prepareAccept_leads (handle : Handle) (h : t.Settled) :
    Leads ((TableOp.prepareAccept handle).Decides t) t (t.prepareAccept handle).2 := by
  unfold prepareAccept
  split
  · exact .refl h
  split
  · exact .refl h
  next j hj =>
  dsimp only
  split_ifs
  · exact .refl h
  · exact .refl h
  split
  · exact .refl h
  next i hi =>
  split_ifs
  · exact .refl h
  obtain ⟨ha, hz⟩ := oldest_sound hi
  obtain ⟨rfl, hu, hr⟩ := listener_iff.mp hj
  have hserial : Leads ((TableOp.prepareAccept (t.listenerHandle j)).Decides t) t
      { t with acceptOperationSerial := t.acceptOperationSerial + 1 } :=
    (Leads.refl h).clock trivial rfl rfl rfl rfl rfl
  refine hserial.trans (hserial.settled.set (i := i) (.hold i j _ _ ha hz (Nat.succ_ne_zero _)) ⟨_, j, rfl, hj, hi⟩
    (fun k hk => setConnection_of_ne _ _ hk) rfl ?_ ?_) <;> rw [setListener_connections, setConnection_self]
  · exact h.paired i
  · exact h.tidy i

lemma acceptChild_iff : t.acceptChild ticket = some i ↔
    ticket.operation ≠ 0 ∧ ticket.child = t.connectionHandle i ∧ (t.connections i).used = true ∧
      (t.connections i).acceptOperation = ticket.operation ∧ (t.connections i).acceptQueueOrder = ticket.queueOrder := by
  refine (slot_eq_some (c := fun k => (t.connections k).used && (t.connections k).generation == ticket.child.generation &&
    (t.connections k).acceptOperation == ticket.operation && (t.connections k).acceptQueueOrder == ticket.queueOrder)
    fun hs => hs.2.2.2).trans ?_
  obtain ⟨_, ⟨_, _, _, _⟩, _, _⟩ := ticket
  simp only [connectionHandle, Bool.and_eq_true, beq_iff_eq, Handle.mk.injEq]
  grind

lemma validateAccept_ok (h : t.validateAccept ticket = .ok (j, i)) :
    t.listener ticket.listener = some j ∧ t.acceptChild ticket = some i ∧
      (t.connections i).acceptable j ticket.listener.generation = true ∧
      (t.connections i).queueOrder = ticket.queueOrder ∧ (t.connections i).sequence < t.limits.readinessMax := by
  unfold validateAccept at h
  split at h
  · cases h
  split at h
  · next j' i' hj hi =>
    dsimp only at h
    split_ifs at h with h1 h2
    cases h
    simp only [Bool.or_eq_true, decide_eq_true_eq, not_or, Bool.not_eq_true', Bool.not_eq_false, bne_iff_ne, not_not,
      not_le] at h1 h2
    exact ⟨hj, hi, h1.1.1.2, h1.2, h2.2⟩
  · cases h

lemma commitAccept_leads (ticket : AcceptTicket) (h : t.Settled) :
    Leads ((TableOp.commitAccept ticket).Decides t) t (t.commitAccept ticket).2 := by
  unfold commitAccept
  split
  · exact .refl h
  next j i hv =>
  obtain ⟨hj, hi, ha, _⟩ := validateAccept_ok hv
  obtain ⟨hne, _, _, hop, _⟩ := acceptChild_iff.mp hi
  obtain ⟨hh, _⟩ := listener_iff.mp hj
  rw [hh] at ha
  refine h.set (i := i) (.commit i j _ _ ha (hop ▸ hne)) ⟨ticket, rfl, hi⟩ (fun k hk => setConnection_of_ne _ _ hk) rfl ?_ ?_ <;>
    rw [setListener_connections, setConnection_self]
  · exact h.paired i
  · exact (h.tidy i).congr id rfl rfl (by simp)

lemma ensureConnection_same {t' : EndpointTable p cap σ} (h : t.ensureConnection i = (true, t')) : t' = t := by
  rw [(ensureConnection_true (by rw [h])).1] at h
  cases h
  rfl

variable [CongestionControl σ]

lemma Settled.settle (h : t.Settled) (hq : t.Quiet (t.setConnection i s)) (hp : s.core.plan.active = t.selected i)
    (hi : t.selected i = true → s.Tidy true) (now : ℕ) : t.Calm ((t.setConnection i s).settle i now) := by
  have hok := hq.ok h.ok
  refine ⟨hq.trans (settle_quiet hok i now), settle_settled ⟨hok, fun k => ?_, fun k hk => ?_⟩ now⟩
  · by_cases hki : k = i
    · subst hki
      rw [setConnection_self]
      exact hp
    · rw [setConnection_of_ne _ _ hki]
      exact h.paired k
  by_cases hki : k = i
  · subst hki
    have hsel := hk.resolve_left (by simp)
    rw [setConnection_self, show (t.setConnection k s).selected k = true from hsel]
    exact hi hsel
  · rw [setConnection_of_ne _ _ hki]
    exact h.tidy k

lemma Settled.settle_self (h : t.Settled) (i : Fin p.connections) (now : ℕ) : t.Calm (t.settle i now) :=
  ⟨settle_quiet h.ok i now, settle_settled (h.but i) now⟩

lemma Settled.settle_flag (h : t.Settled) (hf : (t.connections i).Flagged s) (now : ℕ) :
    t.Calm ((t.setConnection i s).settle i now) := by
  refine h.settle (.one (flag_connection hf)) ?_ (fun hsel => ?_) now
  · rw [hf.eq]
    exact h.paired i
  exact (hsel ▸ h.tidy i).flagged hf fun _ _ => .inr rfl

lemma closeChild_calm (h : t.Settled) (hj : (t.listeners j).used = false) (now : ℕ) (i : Fin p.connections) :
    t.Calm (closeChild j now t i) := by
  unfold closeChild
  dsimp only
  split
  · next hc =>
    obtain ⟨hu, hp, rfl, _⟩ := childOf_iff.mp hc
    refine h.settle (.one (.orphan i _ hp hj)) (h.paired i) (fun hsel => ?_) now
    exact (hsel ▸ h.tidy i).congr id rfl rfl (by simp)
  · exact .refl h

lemma closeChildren_calm (slots : List (Fin p.connections)) (h : t.Settled) (hj : (t.listeners j).used = false)
    (now : ℕ) : t.Calm (slots.foldl (closeChild j now) t) := by
  induction slots generalizing t with
  | nil => exact .refl h
  | cons i slots ih =>
  have hc := closeChild_calm h hj now i
  refine hc.trans (ih hc.settled ?_)
  rw [closeChild_listeners j now t i]
  exact hj

lemma closeListener_calm (h : t.Settled) {l : ListenerSlot} (now : ℕ)
    (hl : { l with used := false, references := 0 } = { t.listeners j with used := false, references := 0 }) :
    t.Calm ((t.setListener j l).closeListener j now) := by
  unfold closeListener
  rw [setListener_self, setListener_setListener, hl]
  have hc := h.elsewhere (X := (· = .quiet)) (.close j (t.listeners j).changed) rfl rfl rfl
  exact hc.trans (closeChildren_calm _ hc.settled (by simp) now)

lemma Settled.closeListener (h : t.Settled) (j : Fin p.listeners) (now : ℕ) : t.Calm (t.closeListener j now) := by
  have hc := closeListener_calm h (j := j) (l := t.listeners j) now rfl
  rwa [setListener_eq] at hc

lemma ensureConnection_calm (h : t.Settled) (i : Fin p.connections) : t.Calm (t.ensureConnection i).2 := by
  unfold ensureConnection
  dsimp only
  split
  · exact h.settle_flag ⟨rfl, fun _ => rfl, fun _ => .inr (.inl rfl)⟩ _
  · exact .refl h

lemma ensureListener_calm (h : t.Settled) (j : Fin p.listeners) : t.Calm (t.ensureListener j).2 := by
  unfold ensureListener
  split
  · exact h.closeListener j t.now
  · exact .refl h

lemma activeOpen_cases (c : Connection cap σ) (here peer : Endpoint) (iss : U32) (now : ℕ) :
    (∃ s, c.activeOpen here peer iss now = (.error s, c)) ∨
      ∃ c', c.activeOpen here peer iss now = (.ok (), c') ∧ c.plan.active = false ∧ c'.plan.active = false ∧
        c'.state = .synSent ∧ c'.passive = false ∧ c'.localEndpoint = here ∧ c'.peer = peer := by
  unfold Connection.activeOpen
  split_ifs with h
  iterate 3 exact .inl ⟨_, rfl⟩
  · simp only [Bool.or_eq_true, not_or, Bool.not_eq_true] at h
    exact .inr ⟨_, rfl, h.1.1, rfl, rfl, rfl, rfl, rfl⟩

lemma connect_calm (here peer : Endpoint) (iss : U32) (now : ℕ) (h : t.Settled) :
    t.Calm (t.connect here peer iss now).2 := by
  unfold connect
  split
  · exact .refl h
  split_ifs with hv ht
  · exact .refl h
  · exact .refl h
  obtain ⟨hm, hvac⟩ := t.vacant_marked
  have hc := hm.calm h
  generalize t.vacant = v at hm hvac hc
  obtain ⟨i, t'⟩ := v
  cases i with
  | none => exact hc
  | some i =>
  have hu : (t'.connections i).used = false := by
    rw [hm.slot i]
    exact hvac i rfl
  dsimp only
  have hs := (run_performs (hc.settled.ok.slot i).sound (.activeOpen here peer iss now))
  rcases activeOpen_cases (t'.connections i).core here peer iss now with ⟨s, he⟩ | ⟨c, he, h1, h2, h3, h4, h5, h6⟩
  · rw [he]
    dsimp only
    rwa [setConnection_eq]
  simp only [Op.run, he] at hs
  obtain ⟨es, hmoves, _⟩ := hs
  simp only [Bool.or_eq_true, Bool.not_eq_true', not_or, Bool.not_eq_false] at hv
  have hsel := (hc.settled.paired i).symm.trans h1
  rw [he]
  have hopen : Leads (· = .quiet) t' (t'.setConnection i { t'.connections i with core := c }.allocate) := by
    refine hc.settled.set (i := i) (.connect i c hu (hmoves.sound (hc.settled.ok.slot i).sound) h3 h4 (h6 ▸ hv.2)
      (hm.free (free_of_tuple (by simpa using ht) h5 h6))) rfl (fun k hk => setConnection_of_ne _ _ hk) rfl ?_ ?_ <;>
      rw [setConnection_self]
    · rw [hsel]
      exact h2
    · intro _
      refine ⟨?_, ?_, ?_⟩ <;> simp [ConnectionSlot.allocate, h3, h6, hv.2]
  exact hc.trans (hopen.clock rfl rfl rfl rfl rfl rfl)

lemma release_calm (handle : Handle) (now : ℕ) (h : t.Settled) : t.Calm (t.release handle now).2 := by
  unfold release
  split_ifs
  · exact .refl h
  split
  · split
    · exact .refl h
    next j hj =>
    have hr := (listener_iff.mp hj).2.2
    dsimp only
    split_ifs with hn
    · have hc := h.elsewhere (X := (· = .quiet)) (.referListener j _ hr hn) rfl rfl rfl
      exact hc.clock rfl rfl rfl rfl rfl rfl
    · have hc := closeListener_calm h (l := { t.listeners j with references := (t.listeners j).references - 1 }) now rfl
      exact hc.clock rfl rfl rfl rfl rfl rfl
  split
  · exact .refl h
  next i hi =>
  have hr := (connection_iff.mp hi).2.2
  dsimp only
  split_ifs with hn
  · exact (h.refer hr hn).clock rfl rfl rfl rfl rfl rfl
  simp only [ne_eq, not_not] at hn
  rw [hn]
  have hp := (h.ok.toOwned.used_of_references hr).2.1
  have hc := h.settle (.one (.letGo i (deadline now retirementMs) hr)) (h.paired i)
    (fun hsel => (hsel ▸ h.tidy i).congr id rfl rfl (by simp [hp])) now
  exact hc.clock rfl rfl rfl rfl rfl rfl

lemma abort_calm (handle : Handle) (now : ℕ) (h : t.Settled) : t.Calm (t.abort handle now).2 := by
  unfold abort
  split
  · exact .refl h
  split
  · exact .refl h
  next i hi =>
  rw [bumpConnection, setConnection_self, setConnection_setConnection]
  refine (h.settle_flag ?_ now).clock rfl rfl rfl rfl rfl rfl
  exact ⟨rfl, fun _ => rfl, fun _ => .inr (.inl rfl)⟩

lemma accept_leads (handle : Handle) (h : t.Settled) : Leads ((TableOp.accept handle).Decides t) t (t.accept handle).2 := by
  unfold accept
  split
  · exact .refl h
  split
  · exact .refl h
  next j hj =>
  have hens := ensureListener_calm h j
  split
  · next t' he =>
    rw [he] at hens
    exact hens.mono fun _ hx => hx ▸ trivial
  next t' he =>
  obtain rfl := ensureListener_same he
  split
  · exact .refl h
  next i hi =>
  obtain ⟨ha, hz⟩ := oldest_sound hi
  obtain ⟨rfl, hu, hr⟩ := listener_iff.mp hj
  have h1 : Leads ((TableOp.accept (t'.listenerHandle j)).Decides t') t'
      (t'.setConnection i { t'.connections i with parent := false, queueOrder := 0, references := 1 }) := by
    refine h.set (i := i) (.accept i j ha hz) ⟨_, j, rfl, hj, hi⟩ (fun k hk => setConnection_of_ne _ _ hk) rfl ?_ ?_ <;>
      rw [setConnection_self]
    · exact h.paired i
    · exact (h.tidy i).congr id rfl rfl (by simp)
  have h2 := h1.then trivial (h1.settled.flagListener (bumpListener_flagged t'.limits (t'.listeners j)))
  refine h2.then trivial (h2.settled.flag (bump_flagged _ _) fun hp => ?_)
  rw [(bump_flagged _ _).eq] at hp
  simp [bumpListener] at hp

lemma cancelAccept_leads (ticket : AcceptTicket) (h : t.Settled) :
    Leads ((TableOp.cancelAccept ticket).Decides t) t (t.cancelAccept ticket).2 := by
  unfold cancelAccept
  split
  · exact .refl h
  next i hi =>
  split
  swap
  · exact .refl h
  next hs =>
  dsimp only
  generalize hj : (⟨ticket.listener.slot, hs.2.2⟩ : Fin p.listeners) = j
  split
  · exact .refl h
  next hb =>
  obtain ⟨hne, _, hu, hop, _⟩ := acceptChild_iff.mp hi
  simp only [Bool.or_eq_true, bne_iff_ne, decide_eq_true_eq, not_or, not_not] at hb
  have hcancel (sequence : ℕ) : Leads ((TableOp.cancelAccept ticket).Decides t) t
      ((t.setConnection i { t.connections i with acceptOperation := 0, acceptQueueOrder := 0 }).setListener j
        { t.listeners j with acceptHolds := (t.listeners j).acceptHolds - 1, sequence := sequence }) := by
    refine h.set (i := i) (.cancel i j sequence hu (hop ▸ hne) hb.1.2 (hb.2.trans hb.1.1.1.symm)) ⟨ticket, rfl, hi⟩
      (fun k hk => setConnection_of_ne _ _ hk) rfl ?_ ?_ <;> rw [setListener_connections, setConnection_self]
    · exact h.paired i
    · exact h.tidy i
  split_ifs
  · have hc := hcancel (t.listeners j).sequence
    have hd := hc.then trivial (hc.settled.closeListener j t.now)
    exact hd.then trivial (hd.settled.settle_self i _)
  · have hc := hcancel ((t.listeners j).sequence + 1)
    exact hc.then trivial (hc.settled.settle_self i _)
  · have hc := hcancel (t.listeners j).sequence
    exact hc.then trivial (hc.settled.settle_self i _)

end EndpointTable

end ObfuscationKernel.Net.Tcp
