import ObfuscationKernel.Net.EndpointPackets
import ObfuscationKernel.Net.Sender

/-! Who owns the slots of an endpoint table, in every table that operations reach. -/

namespace ObfuscationKernel.Net.Tcp

open ObfuscationKernel.Core Library Wire Function TableOp

variable {p : Pools} {cap : Capacities} {σ : Type} [CongestionControl σ]

namespace EndpointTable

variable {t t' : EndpointTable p cap σ} {i : Fin p.connections} {j : Fin p.listeners} {x : Label p} {X : Label p → Prop}

lemma run_leads (h : t.Settled) (op : TableOp p) : Leads (op.Decides t) t (op.run t).2 := by
  cases op with
  | listen here backlog => exact (listen_calm here backlog h).leads trivial
  | connect here peer iss now => exact (connect_calm here peer iss now h).leads trivial
  | retain handle => exact (retain_calm handle h).leads trivial
  | release handle now => exact (release_calm handle now h).leads trivial
  | abort handle now => exact (abort_calm handle now h).leads trivial
  | accept handle => exact accept_leads handle h
  | prepareAccept handle => exact prepareAccept_leads handle h
  | commitAccept ticket => exact commitAccept_leads ticket h
  | cancelAccept ticket => exact cancelAccept_leads ticket h
  | write handle bytes =>
    exact (stream_calm handle (.write bytes) rfl _ (fun _ => rfl) (fun c => c.write_shape bytes) h).leads trivial
  | read handle size =>
    exact (stream_calm handle (.read size) rfl _ (fun _ => rfl) (fun c => read_shape c size) h).leads trivial
  | shutdownWrite handle =>
    exact (stream_calm handle .shutdownWrite rfl _ (fun _ => rfl) shutdownWrite_shape h).leads trivial
  | ingest packet now source => exact (ingest_calm packet now source h).leads trivial
  | tick now => exact (tick_calm now h).leads trivial
  | prepare size now => exact (prepare_calm size now h).leads trivial
  | complete ticket accepted now => exact (complete_calm ticket accepted now h).leads trivial
  | retire => exact (retire_calm h).leads trivial
  | takeChanged => exact (takeChanged_calm h).leads trivial

lemma fresh_settled (identity : ℕ) (limits : EndpointLimits) : (fresh identity limits : EndpointTable p cap σ).Settled := by
  have hsound : (Connection.fresh : Connection cap σ).Sound := Reachable.fresh.sound
  have hslot (serial : ℕ) : ({ core := .fresh } : ConnectionSlot p cap σ).Ok serial :=
    ⟨hsound, by simp, by simp, by simp, by simp, by simp, by simp, by simp⟩
  refine ⟨{
    slot := fun _ => hslot _, unique := by simp [fresh], order := by simp [fresh], generation := by simp [fresh]
    serial := Nat.zero_le _, listener := by simp [fresh], holds := fun j => ?_, backlog := fun j => ?_ }, fun i => rfl,
    fun i hu => ?_⟩
  · exact (Slots.count_eq_zero_iff.mpr fun i => by simp [fresh, ConnectionSlot.holding]).symm
  · exact (Slots.count_eq_zero_iff.mpr fun i => by simp [fresh, ConnectionSlot.childOf]).trans_le (Nat.zero_le _)
  · cases hu

lemma runs_settled (h : t.Settled) (ops : List (TableOp p)) : (runs t ops).Settled := by
  induction ops generalizing t with
  | nil => exact h
  | cons op ops ih => exact ih (run_leads h op).settled

lemma runs_steps (h : t.Settled) (ops : List (TableOp p)) : Steps (fun _ => True) t (runs t ops) := by
  induction ops generalizing t with
  | nil => exact .refl
  | cons op ops ih =>
    have hl := run_leads h op
    exact (hl.steps.mono fun _ _ => trivial).trans (ih hl.settled)

section

omit [CongestionControl σ]

lemma Steps.keeps {P : EndpointTable p cap σ → Prop} (h : Steps X t t') (ht : t.Ok)
    (hP : ∀ t t' x, X x → Change x t t' → t.Ok → P t → P t') (hp : P t) : P t' := by
  induction h with
  | refl => exact hp
  | tail hs hc ih =>
    obtain ⟨x, hx, hc⟩ := hc
    exact hP _ _ x hx hc (Steps.ok hs ht) ih

lemma Change.identity (h : Change x t t') : t'.identity = t.identity := by
  cases h with
  | flag _ _ _ hi => exact hi
  | _ => rfl

end

def Grown (t : EndpointTable p cap σ) (i : Fin p.connections) (g : ℕ) : Prop :=
  g < (t.connections i).generation ∨ (t.connections i).generation = g ∧ (t.connections i).parent = false

section

omit [CongestionControl σ]

lemma Change.grown (hx : Change x t t') (h : t.Ok) {g : ℕ} (hg : t.Grown i g) : t'.Grown i g :=
  have ha := (hx.turned h i).aged
  past_or ha.generation hg ha.parent

lemma Dead.stale {h : Handle} (hd : t.Dead i h.generation) (hs : h.slot = i) : t.connection h = none := by
  by_contra hn
  obtain ⟨k, hk⟩ := Option.ne_none_iff_exists'.mp hn
  obtain ⟨he, hu, hr⟩ := connection_iff.mp hk
  obtain rfl : i = k := Fin.ext (by rw [← hs, he]; rfl)
  rw [he] at hd
  rcases hd with hd | ⟨_, hd | hd⟩
  · exact lt_irrefl _ hd
  · simp [hd] at hu
  · exact hr hd.1

lemma DeadListener.stale {h : Handle} (hd : t.DeadListener j h.generation) (hs : h.slot = j) : t.listener h = none := by
  by_contra hn
  obtain ⟨k, hk⟩ := Option.ne_none_iff_exists'.mp hn
  obtain ⟨he, hu, _⟩ := listener_iff.mp hk
  obtain rfl : j = k := Fin.ext (by rw [← hs, he]; rfl)
  rw [he] at hd
  rcases hd with hd | ⟨_, hd⟩
  · exact lt_irrefl _ hd
  · simp [hd] at hu

end

lemma dead_of_stale {h : Handle} (ht : t.Settled) (ops : List (TableOp p)) (hi : t.connection h = some i)
    (hn : (runs t ops).connection h = none) : (runs t ops).Dead i h.generation := by
  have hs := runs_steps ht ops
  obtain ⟨he, _, hr⟩ := connection_iff.mp hi
  have hg := hs.keeps ht.ok (P := fun t => t.Grown i h.generation) (fun _ _ _ _ hc ho hg => hc.grown ho hg)
      (.inr ⟨by rw [he]; rfl, (ht.ok.toOwned.used_of_references hr).2.1⟩)
  have hid : (runs t ops).identity = t.identity :=
    hs.keeps ht.ok (P := fun t' => t'.identity = t.identity) (fun _ _ _ _ hc _ hi => hc.identity.trans hi) rfl
  rcases hg with hg | ⟨hg, hp⟩
  · exact .inl hg
  refine .inr ⟨hg, ?_⟩
  by_contra hd
  simp only [not_or, not_and, hp, Bool.not_eq_false] at hd
  refine absurd (connection_iff.mpr ⟨?_, hd.1, fun h0 => hd.2 h0 trivial⟩ : (runs t ops).connection h = some i) (by simp [hn])
  rw [he, connectionHandle, connectionHandle, hid, hg, he]
  rfl

lemma deadListener_of_stale {h : Handle} (ht : t.Settled) (ops : List (TableOp p)) (hj : t.listener h = some j)
    (hn : (runs t ops).listener h = none) : (runs t ops).DeadListener j h.generation := by
  have hs := runs_steps ht ops
  obtain ⟨he, _, _⟩ := listener_iff.mp hj
  have hid : (runs t ops).identity = t.identity :=
    hs.keeps ht.ok (P := fun t' => t'.identity = t.identity) (fun _ _ _ _ hc _ hi => hc.identity.trans hi) rfl
  have hle := hs.keeps ht.ok (P := fun t => h.generation ≤ (t.listeners j).generation)
      (fun _ _ _ _ hc _ hle => hle.trans (hc.listener_aged j).1) (by rw [he]; rfl)
  rcases Nat.lt_or_eq_of_le hle with hlt | heq
  · exact .inl hlt
  refine .inr ⟨heq.symm, ?_⟩
  by_contra hu
  simp only [Bool.not_eq_false] at hu
  have hr := ((runs_settled ht ops).ok.listener j).mp hu
  refine absurd (listener_iff.mpr ⟨?_, hu, hr⟩ : (runs t ops).listener h = some j) (by simp [hn])
  rw [he, listenerHandle, listenerHandle, hid, ← heq, he]
  rfl

lemma held_until_decided (ht : t.Settled) (op : TableOp p) (ha : (t.connections i).acceptOperation ≠ 0) :
    ((op.run t).2.connections i).used = true ∧ ((op.run t).2.connections i).generation = (t.connections i).generation ∧
        ((op.run t).2.connections i).acceptOperation = (t.connections i).acceptOperation ∨
      ∃ ticket, (op = .commitAccept ticket ∨ op = .cancelAccept ticket) ∧ t.acceptChild ticket = some i := by
  by_cases hd : ∃ ticket, (op = .commitAccept ticket ∨ op = .cancelAccept ticket) ∧ t.acceptChild ticket = some i
  · exact .inr hd
  left
  have hu : (t.connections i).used = true := by
    by_contra hu
    exact ha ((ht.ok.slot i).vacant (by simpa using hu)).1
  refine (run_leads ht op).steps.keeps ht.ok (P := fun t' => (t'.connections i).used = true ∧
    (t'.connections i).generation = (t.connections i).generation ∧
    (t'.connections i).acceptOperation = (t.connections i).acceptOperation) (fun t1 t2 x hx hc ho hp => ?_) ⟨hu, rfl, rfl⟩
  have hother : ¬ (x = .commit i ∨ x = .cancel i) := by
    rintro (rfl | rfl)
    · obtain ⟨ticket, h1, h2⟩ := hx
      exact hd ⟨ticket, .inl h1, h2⟩
    · obtain ⟨ticket, h1, h2⟩ := hx
      exact hd ⟨ticket, .inr h1, h2⟩
  obtain ⟨h1, h2, h3⟩ := (hc.turned ho i).aged.held (hp.2.2.symm ▸ ha) hother
  exact ⟨h2.trans hp.1, h1.trans hp.2.1, h3.trans hp.2.2⟩

lemma stale_forever {h : Handle} (ht : t.Settled) (ops ops' : List (TableOp p)) :
    ((t.connection h).isSome = true → (runs t ops).connection h = none → (runs (runs t ops) ops').connection h = none) ∧
      ((t.listener h).isSome = true → (runs t ops).listener h = none → (runs (runs t ops) ops').listener h = none) := by
  have hmid := runs_settled ht ops
  have hs := runs_steps hmid ops'
  constructor
  · intro hi hn
    obtain ⟨i, hi⟩ := Option.isSome_iff_exists.mp hi
    have hd := hs.keeps hmid.ok (P := fun t => t.Dead i h.generation) (fun _ _ _ _ hc ho hd => hc.dead ho hd)
      (dead_of_stale ht ops hi hn)
    exact hd.stale (by rw [(connection_iff.mp hi).1]; rfl)
  intro hj hn
  obtain ⟨j, hj⟩ := Option.isSome_iff_exists.mp hj
  have hd := hs.keeps hmid.ok (P := fun t => t.DeadListener j h.generation) (fun _ _ _ _ hc _ hd => hc.deadListener hd)
    (deadListener_of_stale ht ops hj hn)
  exact hd.stale (by rw [(listener_iff.mp hj).1]; rfl)

end EndpointTable

open EndpointTable

/-- In every table that operations and packets reach, no two slots in use share their endpoints,
a listener counts the slots its prepared accepts hold, has at most its backlog of children, a held slot is
not reused before its accept is decided, and a handle that went stale stays stale. -/
theorem table_ownership (identity : ℕ) (limits : EndpointLimits) (ops : List (TableOp p)) :
    let t : EndpointTable p cap σ := TableOp.runs (fresh identity limits) ops
    (∀ i k, i ≠ k → (t.connections i).used = true → (t.connections k).used = true →
      ((t.connections i).core.localEndpoint, (t.connections i).core.peer) ≠
        ((t.connections k).core.localEndpoint, (t.connections k).core.peer)) ∧
    (∀ j, (t.listeners j).acceptHolds = Slots.count (fun s : ConnectionSlot p cap σ => s.used && s.acceptOperation != 0 &&
      s.parentSlot == j && s.parentGeneration == (t.listeners j).generation) t.connections) ∧
    (∀ i (op : TableOp p), (t.connections i).acceptOperation ≠ 0 → ((op.run t).2.connections i).used = true ∧
          ((op.run t).2.connections i).generation = (t.connections i).generation ∧
          ((op.run t).2.connections i).acceptOperation = (t.connections i).acceptOperation ∨
        ∃ ticket, (op = .commitAccept ticket ∨ op = .cancelAccept ticket) ∧ t.acceptChild ticket = some i) ∧
    (∀ j, t.children j ≤ (t.listeners j).backlog) ∧
    ∀ h later last, ((t.connection h).isSome = true → (TableOp.runs t later).connection h = none →
        (TableOp.runs (TableOp.runs t later) last).connection h = none) ∧
      ((t.listener h).isSome = true → (TableOp.runs t later).listener h = none →
        (TableOp.runs (TableOp.runs t later) last).listener h = none) := by
  intro t
  have ht : t.Settled := runs_settled (fresh_settled identity limits) ops
  refine ⟨fun i k hik hi hk he => ?_, ht.ok.holds, fun i op => held_until_decided ht op, ht.ok.backlog,
    fun h later last => stale_forever ht later last⟩
  simp only [Prod.mk.injEq] at he
  exact ht.ok.unique i k hik hi hk (ht.tidy i hi).1 ⟨he.1.symm, he.2.symm⟩

theorem one_packet_outstanding (identity : ℕ) (limits : EndpointLimits) (ops : List (TableOp p)) (i : Fin p.connections) :
    let t : EndpointTable p cap σ := TableOp.runs (fresh identity limits) ops
    (t.connections i).core.plan.active = true ↔ ∃ ticket, t.ticket = some ticket ∧ ticket.slot = i := by
  intro t
  have ht : t.Settled := runs_settled (fresh_settled identity limits) ops
  rw [ht.paired, selected]
  cases t.ticket <;> simp

def deskPools : Pools where
  connections := 2
  listeners := 1
  backlog := 1
  connections_pos := by decide
  connections_le := by decide
  listeners_pos := by decide
  listeners_le := by decide
  backlog_pos := by decide
  backlog_le := by decide

def deskCapacities : Capacities := dialCapacities

def deskPacket (fields : TcpFields) : Result Datagram :=
  .ok ⟨.v4 10 0 0 2, .v4 10 0 0 1, { fields := { fields with sourcePort := 1000, destinationPort := 80, window := 8 } }⟩

def deskOps : List (TableOp deskPools) :=
  [.listen ⟨.v4 10 0 0 1, 80⟩ 1, .ingest (deskPacket { sequence := 7, flags := tcpSyn }) 0 fun _ _ => .ok 500,
    .prepare 1500 0, .complete ⟨1, 1, 1, 1, ⟨0, by decide⟩⟩ true 0,
    .ingest (deskPacket { sequence := 8, acknowledgment := 501, flags := tcpAck }) 1 fun _ _ => .ok 0,
    .prepareAccept ⟨1, 1, 0, .listener⟩, .connect ⟨.v4 10 0 0 1, 2000⟩ ⟨.v4 10 0 0 3, 80⟩ 9 1]

def desk : EndpointTable deskPools deskCapacities NewReno := TableOp.runs (fresh 1 {}) deskOps

theorem table_ownership_desk :
    ((desk.connections ⟨0, by decide⟩).core.localEndpoint, (desk.connections ⟨0, by decide⟩).core.peer) ≠
      ((desk.connections ⟨1, by decide⟩).core.localEndpoint, (desk.connections ⟨1, by decide⟩).core.peer) ∧
    (((TableOp.retire).run desk).2.connections ⟨0, by decide⟩).used = true ∧
    (∀ last, (TableOp.runs (TableOp.runs desk [.release ⟨1, 1, 1, .connection⟩ 2]) last).connection
      ⟨1, 1, 1, .connection⟩ = none) ∧
    ∀ last, (TableOp.runs (TableOp.runs desk [.release ⟨1, 1, 0, .listener⟩ 2]) last).listener ⟨1, 1, 0, .listener⟩ = none := by
  obtain ⟨h1, _, h2, _, h3⟩ :=
    @table_ownership deskPools deskCapacities NewReno _ 1 {} deskOps
  have hpair := h1 ⟨0, by decide⟩ ⟨1, by decide⟩ (by decide) (by decide +kernel) (by decide +kernel)
  refine ⟨hpair, ?_, fun last => ?_, fun last => ?_⟩
  · rcases h2 ⟨0, by decide⟩ .retire (by decide +kernel) with h | ⟨_, h | h, _⟩
    · exact h.1
    · cases h
    · cases h
  · exact (h3 ⟨1, 1, 1, .connection⟩ [.release ⟨1, 1, 1, .connection⟩ 2] last).1 (by decide +kernel) (by decide +kernel)
  · exact (h3 ⟨1, 1, 0, .listener⟩ [.release ⟨1, 1, 0, .listener⟩ 2] last).2 (by decide +kernel) (by decide +kernel)

end ObfuscationKernel.Net.Tcp
