import ObfuscationKernel.Net.Endpoints

/-! What one step of the endpoint table can do to its slots, and the ownership invariant
that every such step keeps. -/

namespace ObfuscationKernel.Net.Tcp

open ObfuscationKernel.Core Library Wire Function ConnectionSlot Slots State

variable {p : Pools} {cap : Capacities} {σ : Type}

def State.later (s : State) : Bool := s.streaming || s == .timeWait || s == .closed

lemma State.later_of_streaming {s : State} (h : s.streaming = true) : s.later = true := by
  simp [later, h]

lemma State.later_of_accepting {s : State} (h : s.accepting = true) : s.later = true := by
  cases s <;> simp_all [accepting, later, streaming]

section

variable {e : Event} {es : List Event} {k k' : Block cap} {q : Prop}

def Block.Young (k : Block cap) : Prop :=
  match k.state with
  | .synReceived | .established | .closeWait => k.snd.writeShutdown = false
  | .closed | .listen => True
  | _ => False

structure Block.Anchored (q : Prop) (k : Block cap) : Prop where
  bound : k.state = .listen → k.listenerArmed = false
  active : k.state = .synSent → k.passive = false
  waiting : k.state = .listen ∨ k.passive = true ∧ k.state = .synReceived → q
  lost : k.peer.valid = true ∨ (k.state = .listen ∨ k.state = .closed) ∧ q

lemma Block.Anchored.mono {q' : Prop} (hk : k.Anchored q) (hq : q → q') : k.Anchored q' :=
  { hk with waiting := fun h => hq (hk.waiting h), lost := hk.lost.imp_right fun h => ⟨h.1, hq h.2⟩ }

lemma Block.Anchored.of_accepting (hk : k.Anchored q) (hs : k.state.accepting = true) {q' : Prop} : k.Anchored q' := by
  have hne : k.state ≠ .listen ∧ k.state ≠ .synReceived ∧ k.state ≠ .closed := by
    revert hs
    cases k.state <;> simp [accepting]
  refine ⟨hk.bound, hk.active, fun h => ?_, .inl (hk.lost.resolve_right fun h => ?_)⟩ <;> simp [hne] at h

structure Block.SameParty (k k' : Block cap) : Prop where
  here : k'.localEndpoint = k.localEndpoint
  peer : k'.peer = k.peer
  passive : k'.passive = k.passive
  armed : k'.listenerArmed = k.listenerArmed

lemma Block.acknowledge_party (k : Block cap) (ack : U32) (due : ℕ) : k.SameParty (k.acknowledge ack due) := by
  unfold acknowledge
  split_ifs <;> exact ⟨rfl, rfl, rfl, rfl⟩

lemma Block.consume_party (k : Block cap) (seg : Wire.Tcp) : k.SameParty (k.consume seg) := by
  unfold consume
  dsimp only
  split_ifs <;> exact ⟨rfl, rfl, rfl, rfl⟩

lemma Block.complete_party (k : Block cap) (sent : Plan) (due : ℕ) : k.SameParty (k.complete sent due) := by
  unfold complete completeSyn completeRetry completeNew
  split
  case h_5 => split <;> exact ⟨rfl, rfl, rfl, rfl⟩
  all_goals exact ⟨rfl, rfl, rfl, rfl⟩

lemma Move.turns (hm : Move e k k') (he : e ≠ .opened) (hs : k.Sound) :
    k.SameParty k' ∧ (k'.state = k.state ∨ k'.state = .closed ∨ k.state = .synSent ∧ k'.state = .synReceived ∨
        k'.state.later = true ∧ k.state ≠ .listen ∧ k.state ≠ .closed) ∨
      k.state = .listen ∧ k.listenerArmed = true ∨ k.state = .synReceived ∧ k.passive = true ∧ k' = k.returnToListen := by
  have hbusy {s : State} (h : s.streaming = true) : s ≠ .listen ∧ s ≠ .closed := by constructor <;> rintro rfl <;> cases h
  cases hm with
  | activeOpen | passiveOpen | rearm => exact absurd rfl he
  | relisten _ hl hv => exact .inr (.inr ⟨hl, hv, rfl⟩)
  | greet _ _ _ _ hl ha => exact .inr (.inl ⟨hl, ha⟩)
  | terminate | expire => exact .inl ⟨⟨rfl, rfl, rfl, rfl⟩, .inr (.inl rfl)⟩
  | cross _ _ _ hl => exact .inl ⟨⟨rfl, rfl, rfl, rfl⟩, .inr (.inr (.inl ⟨hl, rfl⟩))⟩
  | connect seq mss due _ hl =>
    have h := Block.acknowledge_party ({ k.synchronize seq with peerMss := mss } : Block cap) (k.snd.iss + 1) due
    exact .inl ⟨{ h with }, .inr (.inr (.inr ⟨rfl, by simp [hl]⟩))⟩
  | handshake due _ hl =>
    have h := k.acknowledge_party (k.snd.iss + 1) due
    exact .inl ⟨{ h with }, .inr (.inr (.inr ⟨rfl, by simp [hl]⟩))⟩
  | acknowledge ack due _ hst =>
    refine .inl ⟨k.acknowledge_party ack due, .inr (.inr (.inr ⟨?_, ?_⟩))⟩
    · rcases k.acknowledge_state ack due hst with h | h | h <;> simp [h, later]
    · rcases hst with h | h
      · exact hbusy h
      · simp [h]
  | consume seg _ hst =>
    refine .inl ⟨k.consume_party seg, .inr (.inr (.inr ⟨?_, hbusy hst⟩))⟩
    rcases k.consume_snd seg with ⟨h, _⟩ | ⟨h, _⟩ <;> rw [h] <;> revert hst <;>
      cases k.state <;> simp [later, streaming, finReceived]
  | transmit due hp =>
    have h := Block.complete_party { k with plan := {} } k.plan due
    refine .inl ⟨{ h with }, ?_⟩
    rcases Block.complete_state_cases (k := { k with plan := {} }) (hs.plan hp) due with h | ⟨h, h'⟩
    · exact .inl h
    · exact .inr (.inr (.inr ⟨later_of_streaming h', hbusy h⟩))
  | _ => exact .inl ⟨⟨rfl, rfl, rfl, rfl⟩, .inl rfl⟩

lemma Move.state_later (hm : Move e k k') (he : e ≠ .opened) (hs : k.Sound) (hk : k.state.later = true) :
    k'.state.later = true := by
  rcases hm.turns he hs with ⟨_, h | h | ⟨h, _⟩ | h⟩ | ⟨h, _⟩ | ⟨h, _⟩
  · rwa [h]
  · simp [h, later]
  · simp [h, later, streaming] at hk
  · exact h.1
  · simp [h, later, streaming] at hk
  · simp [h, later, streaming] at hk

lemma Move.anchored (hm : Move e k k') (he : e ≠ .opened) (hs : k.Sound) (hk : k.Anchored q) : k'.Anchored q := by
  rcases hm.turns he hs with ⟨hp, hst⟩ | ⟨h1, h2⟩ | ⟨h1, h2, rfl⟩
  · have hlost : k'.peer.valid = true ∨ (k'.state = .listen ∨ k'.state = .closed) ∧ q := by
      rcases hk.lost with h | ⟨h, hq⟩
      · exact .inl (by rw [hp.peer]; exact h)
      rcases hst with hst | hst | ⟨h1, _⟩ | ⟨_, h1, h2⟩
      · exact .inr ⟨by rwa [hst], hq⟩
      · exact .inr ⟨.inr hst, hq⟩
      · simp [h1] at h
      · exact absurd h (not_or.mpr ⟨h1, h2⟩)
    rcases hst with hst | hst | ⟨h1, h2⟩ | ⟨hl, _⟩
    · refine ⟨fun h => ?_, fun h => ?_, fun h => ?_, hlost⟩
      · exact hp.armed.trans (hk.bound (hst ▸ h))
      · exact hp.passive.trans (hk.active (hst ▸ h))
      · rw [hst, hp.passive] at h
        exact hk.waiting h
    · exact ⟨by simp [hst], by simp [hst], by simp [hst], hlost⟩
    · refine ⟨by simp [h2], by simp [h2], fun h => ?_, hlost⟩
      rw [h2, hp.passive, hk.active h1] at h
      simp at h
    · refine ⟨fun h => ?_, fun h => ?_, fun h => ?_, hlost⟩ <;>
        simp [h, later, streaming] at hl
      rcases h with h | ⟨_, h⟩ <;> simp [h] at hl
  · simp [hk.bound h1] at h2
  · refine ⟨fun _ => rfl, fun h => by simp [Block.returnToListen] at h, fun _ => hk.waiting (.inr ⟨h2, h1⟩), ?_⟩
    exact .inr ⟨.inl rfl, hk.waiting (.inr ⟨h2, h1⟩)⟩

lemma Block.Young.writeShutdown (hk : k.Young) (hs : k.state.streaming = true) :
    (k.state = .established ∨ k.state = .closeWait) ∧ k.snd.writeShutdown = false := by
  revert hk hs
  unfold Young
  cases k.state <;> simp [streaming]

lemma Block.Young.congr (hk : k.Young) (hs : k'.state = k.state) (hw : k'.snd.writeShutdown = k.snd.writeShutdown) :
    k'.Young := by
  unfold Young at hk ⊢
  rw [hs, hw]
  exact hk

lemma Block.acknowledge_open (k : Block cap) (ack : U32) (due : ℕ) (h : k.snd.writeShutdown = false) :
    (k.acknowledge ack due).state = k.state := by
  have hc : k.ackClosesFin ack = false := by simp [ackClosesFin, Sender.finSent, h]
  unfold acknowledge
  split_ifs <;> simp_all

lemma Move.young (hm : Move e k k') (he : e ≠ .opened) (hn : e ≠ .shut) (hs : k.Sound)
    (hb : k.state = .listen → k.listenerArmed = false) (hk : k.Young) : k'.Young := by
  have hw := hm.writeShutdown_cases he
  cases hm with
  | activeOpen | passiveOpen | rearm => exact absurd rfl he
  | shutdown => exact absurd rfl hn
  | terminate | expire | relisten => trivial
  | greet _ _ _ _ hl ha => simp [hb hl] at ha
  | cross _ _ _ hl | connect _ _ _ _ hl => simp [Block.Young, hl] at hk
  | handshake due _ hl =>
    have h0 : k.snd.writeShutdown = false := by simpa [Block.Young, hl] using hk
    simpa [Block.Young, Block.establish, h0] using hw
  | acknowledge ack due _ hst =>
    rcases hst with hst | hst
    · obtain ⟨_, h0⟩ := hk.writeShutdown hst
      exact hk.congr (k.acknowledge_open ack due h0) (by simpa using hw)
    · simp [Block.Young, hst] at hk
  | consume seg _ hst =>
    obtain ⟨hst, h0⟩ := hk.writeShutdown hst
    have hw : (k.consume seg).snd.writeShutdown = k.snd.writeShutdown := by simpa using hw
    rcases k.consume_snd seg with ⟨h, _⟩ | ⟨h, _⟩
    · exact hk.congr h hw
    · unfold Block.Young
      rcases hst with hst | hst <;> simp [h, hst, finReceived, hw, h0]
  | transmit due hp =>
    refine hk.congr ?_ (by simpa using hw)
    rw [Block.complete_state]
    intro hf
    rcases hs.plan hp with h | h | h | h | h | ⟨_, hst, _, _, _, hd⟩ <;> try simp_all
    simp [(hk.writeShutdown hst).2] at hd
  | _ => exact hk

lemma Endpoint.valid_default : ({} : Endpoint).valid = false := by decide

lemma Move.peer_eq (hm : Move e k k') (he : e ≠ .opened) (hs : k.Sound) (hk : k.Anchored q) :
    k'.localEndpoint = k.localEndpoint ∧ (k'.peer = k.peer ∨ k.state = .synReceived ∧ k'.peer.valid = false) := by
  rcases hm.turns he hs with ⟨hp, _⟩ | ⟨h1, h2⟩ | ⟨h1, h2, rfl⟩
  · exact ⟨hp.here, .inl hp.peer⟩
  · simp [hk.bound h1] at h2
  · exact ⟨rfl, .inr ⟨h1, Endpoint.valid_default⟩⟩

structure Block.Follows (q : Prop) (es : List Event) (k k' : Block cap) : Prop where
  sound : k'.Sound
  anchored : k'.Anchored q
  young : .shut ∉ es → k.Young → k'.Young
  later : k.state.later = true → k'.state.later = true ∧ k'.peer = k.peer
  here : k'.localEndpoint = k.localEndpoint
  peer : k'.peer = k.peer ∨ k'.peer.valid = false

lemma Moves.follows (hm : Moves es k k') (he : .opened ∉ es) (hs : k.Sound) (hk : k.Anchored q) :
    Block.Follows q es k k' := by
  induction hm with
  | nil => exact ⟨hs, hk, fun _ h => h, fun h => ⟨h, rfl⟩, rfl, .inl rfl⟩
  | cons hm _ ih =>
  simp only [List.mem_cons, not_or] at he
  have he' := Ne.symm he.1
  obtain ⟨hh, hp⟩ := hm.peer_eq he' hs hk
  obtain ⟨h1, h2, h3, h4, h5, h6⟩ := ih he.2 (hm.sound hs) (hm.anchored he' hs hk)
  refine ⟨h1, h2, fun hn hy => ?_, fun hl => ?_, h5.trans hh, ?_⟩
  · simp only [List.mem_cons, not_or] at hn
    exact h3 hn.2 (hm.young he' (Ne.symm hn.1) hs hk.bound hy)
  · obtain ⟨hl', hp'⟩ := h4 (hm.state_later he' hs hl)
    refine ⟨hl', hp'.trans (hp.resolve_right fun ⟨hr, _⟩ => ?_)⟩
    simp [hr, later, streaming] at hl
  rcases h6 with h6 | h6
  · rw [h6]
    exact hp.imp_right And.right
  · exact .inr h6

end

namespace ConnectionSlot

structure Flagged (s s' : ConnectionSlot p cap σ) : Prop where
  eq : s' = { s with
    sequence := s'.sequence, retireDeadline := s'.retireDeadline, exhausted := s'.exhausted
    terminal := s'.terminal, abortPending := s'.abortPending, changed := s'.changed }
  terminal : s.terminal = true → s'.terminal = true
  aborting : s'.abortPending = true → s.abortPending = true ∨ s'.terminal = true ∨ s'.closing = true

def holding (owner : Fin p.listeners) (generation : ℕ) (s : ConnectionSlot p cap σ) : Bool :=
  s.used && s.acceptOperation != 0 && s.parentSlot == owner && s.parentGeneration == generation

structure Ok (serial : ℕ) (s : ConnectionSlot p cap σ) : Prop where
  sound : s.core.Sound
  vacant : s.used = false → s.acceptOperation = 0 ∧ s.parent = false ∧ s.references = 0
  anchored : s.used = true → s.core.Anchored (s.parent = true ∨ s.closing = true)
  young : s.parent = true → s.core.Young ∧ s.references = 0 ∧ s.closing = false
  queued : s.queueOrder ≠ 0 → s.parent = true ∧ s.core.state.later = true ∧ s.queueOrder ≤ serial
  held : s.acceptOperation ≠ 0 → s.references = 0 ∧ s.core.state.later = true ∧ s.core.peer.valid = true
  closing : s.closing = true → s.references = 0
  aborting : s.abortPending = true → s.terminal = true ∨ s.closing = true

structure Aged (decided : Prop) (s s' : ConnectionSlot p cap σ) : Prop where
  generation : s.generation ≤ s'.generation
  parent : s'.generation = s.generation → s.parent = false → s'.parent = false
  used : s'.generation = s.generation → s.used = false → s'.used = false
  references : s'.generation = s.generation → s.parent = false → s.references = 0 → s'.references = 0
  held : s.acceptOperation ≠ 0 → ¬ decided →
    s'.generation = s.generation ∧ s'.used = s.used ∧ s'.acceptOperation = s.acceptOperation

lemma Aged.refl (decided : Prop) (s : ConnectionSlot p cap σ) : s.Aged decided s :=
  ⟨le_rfl, fun _ h => h, fun _ h => h, fun _ _ h => h, fun _ _ => ⟨rfl, rfl, rfl⟩⟩

end ConnectionSlot

def ListenerSlot.Flagged (l l' : ListenerSlot) : Prop :=
  l' = { l with
    sequence := l'.sequence, exhausted := l'.exhausted, terminal := l'.terminal, changed := l'.changed }

inductive Label (p : Pools)
  | quiet
  | accept (i : Fin p.connections)
  | hold (i : Fin p.connections)
  | commit (i : Fin p.connections)
  | cancel (i : Fin p.connections)

namespace EndpointTable

def Free (t : EndpointTable p cap σ) (core : Connection cap σ) : Prop :=
  ∀ k, (t.connections k).used = true →
    ¬ ((t.connections k).core.localEndpoint = core.localEndpoint ∧ (t.connections k).core.peer = core.peer)

inductive Change : Label p → EndpointTable p cap σ → EndpointTable p cap σ → Prop
  | flag {t t'} (hc : ∀ i, (t.connections i).Flagged (t'.connections i))
      (hl : ∀ j, (t.listeners j).Flagged (t'.listeners j)) (hs : t'.acceptSerial = t.acceptSerial)
      (hi : t'.identity = t.identity) : Change .quiet t t'
  | scratch {t} (i) (core : Connection cap σ) (hu : (t.connections i).used = false) (hs : core.Sound) :
      Change .quiet t (t.setConnection i { t.connections i with core := core })
  | connect {t} (i) (core : Connection cap σ) (hu : (t.connections i).used = false) (hs : core.Sound)
      (hst : core.state = .synSent) (hv : core.passive = false) (hp : core.peer.valid = true) (hf : t.Free core) :
      Change .quiet t (t.setConnection i { t.connections i with core := core }.allocate)
  | adopt {t} (i j) (core : Connection cap σ) (hu : (t.connections i).used = false) (hs : core.Sound)
      (hst : core.state = .synReceived) (hw : core.snd.writeShutdown = false) (hp : core.peer.valid = true)
      (hf : t.Free core) (hb : t.children j < (t.listeners j).backlog) :
      Change .quiet t (t.setConnection i { { t.connections i with core := core }.allocate with
        references := 0, parent := true, parentSlot := j, parentGeneration := (t.listeners j).generation })
  | refer {t} (i) (n : ℕ) (hr : (t.connections i).references ≠ 0) (hn : n ≠ 0) :
      Change .quiet t (t.setConnection i { t.connections i with references := n })
  | letGo {t} (i) (due : ℕ) (hr : (t.connections i).references ≠ 0) :
      Change .quiet t (t.setConnection i { t.connections i with references := 0, closing := true, retireDeadline := due })
  | evolve {t} (i) (core : Connection cap σ) (es : List Event) (hu : (t.connections i).used = true)
      (hm : Moves es (t.connections i).core.toBlock core.toBlock) (ho : .opened ∉ es)
      (hn : (t.connections i).parent = true → .shut ∉ es) :
      Change .quiet t (t.setConnection i { t.connections i with core := core })
  | orphan {t} (i) (due : ℕ) (hp : (t.connections i).parent = true)
      (hl : (t.listeners (t.connections i).parentSlot).used = false) :
      Change .quiet t (t.setConnection i { t.connections i with
        parent := false, queueOrder := 0, closing := true, abortPending := true, retireDeadline := due })
  | enqueue {t} (i) (hp : (t.connections i).parent = true) (hs : (t.connections i).core.state.accepting = true)
      (hz : (t.connections i).queueOrder = 0) (hm : t.acceptSerial ≠ u64Max) :
      Change .quiet t ({ t with acceptSerial := t.acceptSerial + 1 }.setConnection i
        { t.connections i with queueOrder := t.acceptSerial + 1 })
  | reclaim {t} (i) (hu : (t.connections i).used = true) :
      Change .quiet t (t.setConnection i (t.connections i).reclaim)
  | accept {t} (i j) (ha : (t.connections i).acceptable j (t.listeners j).generation = true)
      (hz : (t.connections i).acceptOperation = 0) :
      Change (.accept i) t (t.setConnection i { t.connections i with parent := false, queueOrder := 0, references := 1 })
  | hold {t} (i j) (operation sequence : ℕ) (ha : (t.connections i).acceptable j (t.listeners j).generation = true)
      (hz : (t.connections i).acceptOperation = 0) (hn : operation ≠ 0) :
      Change (.hold i) t ((t.setConnection i { t.connections i with
        acceptOperation := operation, acceptQueueOrder := (t.connections i).queueOrder }).setListener j
          { t.listeners j with acceptHolds := (t.listeners j).acceptHolds + 1, sequence := sequence })
  | commit {t} (i j) (sequence sequence' : ℕ)
      (ha : (t.connections i).acceptable j (t.listeners j).generation = true)
      (hn : (t.connections i).acceptOperation ≠ 0) :
      Change (.commit i) t ((t.setConnection i { t.connections i with
        parent := false, queueOrder := 0, references := 1, acceptOperation := 0, acceptQueueOrder := 0
        sequence := sequence }).setListener j
          { t.listeners j with acceptHolds := (t.listeners j).acceptHolds - 1, sequence := sequence' })
  | cancel {t} (i j) (sequence : ℕ) (hu : (t.connections i).used = true) (hn : (t.connections i).acceptOperation ≠ 0)
      (hp : (t.connections i).parentSlot = j) (hg : (t.connections i).parentGeneration = (t.listeners j).generation) :
      Change (.cancel i) t ((t.setConnection i { t.connections i with
        acceptOperation := 0, acceptQueueOrder := 0 }).setListener j
          { t.listeners j with acceptHolds := (t.listeners j).acceptHolds - 1, sequence := sequence })
  | listen {t} (j) (here : Endpoint) (backlog : ℕ) (hu : (t.listeners j).used = false)
      (hz : (t.listeners j).acceptHolds = 0) :
      Change .quiet t (t.setListener j { t.listeners j with
        generation := (t.listeners j).generation + 1, here := here, backlog := backlog, references := 1, sequence := 1
        terminal := false, used := true })
  | referListener {t} (j) (n : ℕ) (hr : (t.listeners j).references ≠ 0) (hn : n ≠ 0) :
      Change .quiet t (t.setListener j { t.listeners j with references := n })
  | close {t} (j) (changed : Bool) :
      Change .quiet t (t.setListener j { t.listeners j with used := false, references := 0, changed := changed })

/-- Slots keep their invariant, no two of them have the same endpoints or the same queue position, and
a parent is a listener that has existed. -/
structure Owned (t : EndpointTable p cap σ) : Prop where
  slot : ∀ i, (t.connections i).Ok t.acceptSerial
  unique : ∀ i k, i ≠ k → (t.connections i).used = true → (t.connections k).used = true →
    (t.connections i).core.peer.valid = true →
    ¬ ((t.connections k).core.localEndpoint = (t.connections i).core.localEndpoint ∧
      (t.connections k).core.peer = (t.connections i).core.peer)
  order : ∀ i k, (t.connections i).queueOrder ≠ 0 → (t.connections k).queueOrder = (t.connections i).queueOrder → i = k
  generation : ∀ i, (t.connections i).parentGeneration ≤ (t.listeners (t.connections i).parentSlot).generation
  serial : t.acceptSerial ≤ u64Max

structure Counted (t : EndpointTable p cap σ) : Prop where
  listener : ∀ j, (t.listeners j).used = true ↔ (t.listeners j).references ≠ 0
  holds : ∀ j, (t.listeners j).acceptHolds = Slots.count (ConnectionSlot.holding j (t.listeners j).generation) t.connections
  backlog : ∀ j, t.children j ≤ (t.listeners j).backlog

structure Ok (t : EndpointTable p cap σ) : Prop extends t.Owned, t.Counted

section

variable {t : EndpointTable p cap σ} {i : Fin p.connections} {j : Fin p.listeners} {s : ConnectionSlot p cap σ}
  {l : ListenerSlot}

lemma forall_setConnection {P : Fin p.connections → ConnectionSlot p cap σ → Prop} (hs : P i s)
    (h : ∀ k, k ≠ i → P k (t.connections k)) (k : Fin p.connections) : P k ((t.setConnection i s).connections k) :=
  (forall_update_iff _ P).mpr ⟨hs, h⟩ k

lemma forall_setListener {P : Fin p.listeners → ListenerSlot → Prop} (hl : P j l)
    (h : ∀ k, k ≠ j → P k (t.listeners k)) (k : Fin p.listeners) : P k ((t.setListener j l).listeners k) :=
  (forall_update_iff _ P).mpr ⟨hl, h⟩ k

lemma setConnection_of_ne (t : EndpointTable p cap σ) (s : ConnectionSlot p cap σ) {k : Fin p.connections} (h : k ≠ i) :
    (t.setConnection i s).connections k = t.connections k := update_of_ne h _ _

@[simp] lemma setConnection_self (t : EndpointTable p cap σ) (i : Fin p.connections) (s : ConnectionSlot p cap σ) :
    (t.setConnection i s).connections i = s := update_self _ _ _

@[simp] lemma setListener_connections (t : EndpointTable p cap σ) (j : Fin p.listeners) (l : ListenerSlot) :
    (t.setListener j l).connections = t.connections := rfl

@[simp] lemma setListener_self (t : EndpointTable p cap σ) (j : Fin p.listeners) (l : ListenerSlot) :
    (t.setListener j l).listeners j = l := update_self _ _ _

lemma setListener_of_ne (t : EndpointTable p cap σ) (l : ListenerSlot) {k : Fin p.listeners} (h : k ≠ j) :
    (t.setListener j l).listeners k = t.listeners k := update_of_ne h _ _

def Distinct (t : EndpointTable p cap σ) (i : Fin p.connections) (s : ConnectionSlot p cap σ) : Prop :=
  s.used = true → s.core.peer.valid = true → ∀ k, k ≠ i → (t.connections k).used = true →
    ¬ ((t.connections k).core.localEndpoint = s.core.localEndpoint ∧ (t.connections k).core.peer = s.core.peer)

lemma Owned.distinct (h : t.Owned) (hu : s.used = true → (t.connections i).used = true)
    (hl : s.core.localEndpoint = (t.connections i).core.localEndpoint)
    (hp : s.core.peer = (t.connections i).core.peer ∨ s.core.peer.valid = false) : t.Distinct i s := by
  intro hs hv k hk hk'
  have hp := hp.resolve_right (by simp [hv])
  rw [hl, hp]
  exact h.unique i k hk.symm (hu hs) hk' (hp ▸ hv)

lemma Owned.setConnection (h : t.Owned) (hs : s.Ok t.acceptSerial) (hd : t.Distinct i s)
    (ho : s.queueOrder ≠ 0 → ∀ k, k ≠ i → (t.connections k).queueOrder ≠ s.queueOrder)
    (hg : s.parentGeneration ≤ (t.listeners s.parentSlot).generation) : (t.setConnection i s).Owned := by
  refine ⟨forall_setConnection (P := fun _ s => s.Ok t.acceptSerial) hs fun k _ => h.slot k, fun k m hkm => ?_, fun k m => ?_,
    forall_setConnection (P := fun _ s => s.parentGeneration ≤ (t.listeners s.parentSlot).generation) hg fun k _ => h.generation k,
    h.serial⟩
  · by_cases hk : k = i
    · subst hk
      rw [setConnection_self, setConnection_of_ne t s hkm.symm]
      exact fun hu hm hv => hd hu hv m hkm.symm hm
    rw [setConnection_of_ne t s hk]
    by_cases hm : m = i
    · subst hm
      rw [setConnection_self]
      rintro hu hm hv ⟨h1, h2⟩
      exact hd hm (h2 ▸ hv) k hk hu ⟨h1.symm, h2.symm⟩
    · rw [setConnection_of_ne t s hm]
      exact h.unique k m hkm
  by_cases hk : k = i
  · subst hk
    by_cases hm : m = k
    · exact fun _ _ => hm.symm
    · rw [setConnection_self, setConnection_of_ne t s hm]
      exact fun hq he => absurd he (ho hq m hm)
  rw [setConnection_of_ne t s hk]
  by_cases hm : m = i
  · subst hm
    rw [setConnection_self]
    exact fun hq he => absurd he.symm (ho (he ▸ hq) k hk)
  · rw [setConnection_of_ne t s hm]
    exact h.order k m

lemma Owned.order_of_eq (h : t.Owned) (he : s.queueOrder = (t.connections i).queueOrder ∨ s.queueOrder = 0)
    (hq : s.queueOrder ≠ 0) (k : Fin p.connections) (hk : k ≠ i) : (t.connections k).queueOrder ≠ s.queueOrder := by
  have he := he.resolve_right hq
  rw [he] at hq ⊢
  exact fun hc => hk (h.order i k hq hc).symm

lemma Owned.setListener (h : t.Owned) (hg : (t.listeners j).generation ≤ l.generation) : (t.setListener j l).Owned := by
  refine { h with generation := fun i => (h.generation i).trans ?_ }
  by_cases hj : (t.connections i).parentSlot = j
  · subst hj
    exact hg.trans_eq (by simp [EndpointTable.setListener])
  · exact (congrArg ListenerSlot.generation (setListener_of_ne t l hj)).ge

lemma Counted.setConnection (h : t.Counted)
    (hh : ∀ j, s.holding j (t.listeners j).generation = (t.connections i).holding j (t.listeners j).generation)
    (hc : ∀ j, s.childOf j (t.listeners j).generation = true →
      (t.connections i).childOf j (t.listeners j).generation = true ∨ t.children j < (t.listeners j).backlog) :
    (t.setConnection i s).Counted := by
  refine ⟨h.listener, fun j => ?_, fun j => ?_⟩
  · exact (h.holds j).trans (count_update_of_eq (hh j)).symm
  have hu := count_update (fun s : ConnectionSlot p cap σ => s.childOf j (t.listeners j).generation) t.connections i s
  have hb := h.backlog j
  simp only [children] at hb
  change count (fun s : ConnectionSlot p cap σ => s.childOf j (t.listeners j).generation)
    (update t.connections i s) ≤ (t.listeners j).backlog
  by_cases hx : s.childOf j (t.listeners j).generation = true
  · rw [hx] at hu
    rcases hc j hx with hy | hy
    · rw [hy] at hu
      omega
    simp only [children] at hy
    have h1 : (true).toNat = 1 := rfl
    omega
  rw [Bool.eq_false_iff.mpr hx] at hu
  have h0 : (false).toNat = 0 := rfl
  omega

lemma Counted.setListener (h : t.Counted) (hu : l.used = true ↔ l.references ≠ 0)
    (hh : l.acceptHolds = count (holding j l.generation) t.connections)
    (hb : count (·.childOf j l.generation) t.connections ≤ l.backlog) : (t.setListener j l).Counted :=
  ⟨forall_setListener (P := fun _ l => l.used = true ↔ l.references ≠ 0) hu fun k _ => h.listener k,
    forall_setListener (P := fun k l => l.acceptHolds = count (holding k l.generation) t.connections) hh
      fun k _ => h.holds k,
    forall_setListener (P := fun k l => count (·.childOf k l.generation) t.connections ≤ l.backlog) hb
      fun k _ => h.backlog k⟩

end

section

variable {t t' : EndpointTable p cap σ} {x : Label p}

lemma Ok.of_flagged (h : t.Ok) (hc : ∀ i, (t.connections i).Flagged (t'.connections i))
    (hl : ∀ j, (t.listeners j).Flagged (t'.listeners j)) (hs : t'.acceptSerial = t.acceptSerial) : t'.Ok := by
  have hgen (j) : (t'.listeners j).generation = (t.listeners j).generation := by rw [hl j]
  refine {
    slot := fun i => ?_, unique := ?_, order := ?_, generation := ?_, serial := hs ▸ h.serial, listener := ?_
    holds := ?_, backlog := ?_ }
  · obtain ⟨he, ht, ha⟩ := hc i
    have hi := h.slot i
    rw [he, hs]
    refine { hi with aborting := fun hb => ?_ }
    rcases ha hb with h' | h' | h'
    · exact (hi.aborting h').imp_left ht
    · exact .inl h'
    · exact .inr (by rw [he] at h'; exact h')
  · intro i k
    rw [(hc i).eq, (hc k).eq]
    exact h.unique i k
  · intro i k
    rw [(hc i).eq, (hc k).eq]
    exact h.order i k
  · intro i
    rw [(hc i).eq, hgen]
    exact h.generation i
  · intro j
    rw [hl j]
    exact h.listener j
  · intro j
    have hcount : count (holding j (t'.listeners j).generation) t'.connections =
        count (holding j (t.listeners j).generation) t.connections :=
      count_congr fun i => by
        rw [(hc i).eq, hgen]
        rfl
    rw [hcount, hl j]
    exact h.holds j
  intro j
  have hcount : t'.children j = t.children j := count_congr fun i => by
    rw [(hc i).eq, hgen]
    rfl
  rw [hcount, hl j]
  exact h.backlog j

end

section

variable {t t' : EndpointTable p cap σ} {i : Fin p.connections} {j : Fin p.listeners} {s : ConnectionSlot p cap σ}
  {x : Label p}

lemma Ok.setConnection (h : t.Ok) (hs : s.Ok t.acceptSerial) (hd : t.Distinct i s)
    (ho : s.queueOrder = (t.connections i).queueOrder ∨ s.queueOrder = 0)
    (hp : s.parentSlot = (t.connections i).parentSlot ∧ s.parentGeneration = (t.connections i).parentGeneration)
    (hh : (s.used && s.acceptOperation != 0) = ((t.connections i).used && (t.connections i).acceptOperation != 0))
    (hc : s.used = true → s.parent = true → (t.connections i).used = true ∧ (t.connections i).parent = true) :
    (t.setConnection i s).Ok := by
  refine ⟨h.toOwned.setConnection hs hd (h.order_of_eq ho) ?_,
    h.toCounted.setConnection (fun j => ?_) fun j hx => .inl ?_⟩
  · rw [hp.1, hp.2]
    exact h.generation i
  · rw [holding, holding, hh, hp.1, hp.2]
  simp only [childOf, Bool.and_eq_true] at hx ⊢
  rw [← hp.1, ← hp.2]
  exact ⟨⟨hc hx.1.1.1 hx.1.1.2, hx.1.2⟩, hx.2⟩

lemma acceptable_iff {generation : ℕ} : s.acceptable j generation = true ↔
    s.used = true ∧ s.parent = true ∧ s.parentSlot = j ∧ s.parentGeneration = generation ∧ s.queueOrder ≠ 0 ∧
      s.terminal = false ∧ s.core.state.accepting = true := by
  simp [acceptable, childOf, and_assoc]

variable {core : Connection cap σ}

lemma Ok.evolve (h : t.Ok) {es : List Event} (hu : (t.connections i).used = true)
    (hm : Moves es (t.connections i).core.toBlock core.toBlock) (ho : .opened ∉ es)
    (hn : (t.connections i).parent = true → .shut ∉ es) :
    (t.setConnection i { t.connections i with core := core }).Ok := by
  have hi := h.slot i
  have hf := hm.follows ho hi.sound (hi.anchored hu)
  refine h.setConnection ⟨hf.sound, hi.vacant, fun _ => hf.anchored, fun hp => ?_, fun hq => ?_, fun hh => ?_, hi.closing,
    hi.aborting⟩ (h.distinct (fun _ => hu) hf.here hf.peer) (.inl rfl) ⟨rfl, rfl⟩ rfl fun h1 h2 => ⟨h1, h2⟩
  · obtain ⟨h1, h2⟩ := hi.young hp
    exact ⟨hf.young (hn hp) h1, h2⟩
  · obtain ⟨h1, h2, h3⟩ := hi.queued hq
    exact ⟨h1, (hf.later h2).1, h3⟩
  · obtain ⟨h1, h2, h3⟩ := hi.held hh
    exact ⟨h1, (hf.later h2).1, by rw [(hf.later h2).2]; exact h3⟩

lemma Owned.used_of_references (h : t.Owned) (hr : (t.connections i).references ≠ 0) :
    (t.connections i).used = true ∧ (t.connections i).parent = false ∧ (t.connections i).acceptOperation = 0 ∧
      (t.connections i).closing = false := by
  have hi := h.slot i
  refine ⟨?_, ?_, ?_, ?_⟩
  · by_contra hu
    exact hr (hi.vacant (by simpa using hu)).2.2
  · by_contra hp
    exact hr (hi.young (by simpa using hp)).2.1
  · by_contra ha
    exact hr (hi.held ha).1
  · by_contra hc
    exact hr (hi.closing (by simpa using hc))

lemma Ok.scratch (h : t.Ok) (hu : (t.connections i).used = false) (hs : core.Sound) :
    (t.setConnection i { t.connections i with core := core }).Ok := by
  have hi := h.slot i
  obtain ⟨h1, h2, h3⟩ := hi.vacant hu
  refine h.setConnection { hi with sound := hs, anchored := ?_, young := ?_, queued := fun hq => ?_, held := ?_ } ?_
    (.inl rfl) ⟨rfl, rfl⟩ rfl
    fun h1 h2 => ⟨h1, h2⟩
  · simp [hu]
  · simp [h2]
  · simpa [h2] using (hi.queued hq).1
  · simp [h1]
  · simp [Distinct, hu]

lemma Ok.refer (h : t.Ok) (n : ℕ) (hr : (t.connections i).references ≠ 0) :
    (t.setConnection i { t.connections i with references := n }).Ok := by
  have hi := h.slot i
  obtain ⟨h1, h2, h3, h4⟩ := h.used_of_references hr
  refine h.setConnection ⟨hi.sound, ?_, hi.anchored, ?_, hi.queued, ?_, ?_, hi.aborting⟩
    (h.distinct id rfl (.inl rfl)) (.inl rfl) ⟨rfl, rfl⟩ rfl fun h1 h2 => ⟨h1, h2⟩
  · simp [h1]
  · simp [h2]
  · simp [h3]
  · simp [h4]

lemma Ok.letGo (h : t.Ok) (due : ℕ) (hr : (t.connections i).references ≠ 0) :
    (t.setConnection i { t.connections i with references := 0, closing := true, retireDeadline := due }).Ok := by
  have hi := h.slot i
  obtain ⟨h1, h2, h3, h4⟩ := h.used_of_references hr
  refine h.setConnection ⟨hi.sound, ?_, fun hu => (hi.anchored hu).mono fun _ => .inr rfl, ?_, hi.queued, ?_,
    fun _ => rfl, fun _ => .inr rfl⟩ (h.distinct id rfl (.inl rfl)) (.inl rfl) ⟨rfl, rfl⟩ rfl fun h1 h2 => ⟨h1, h2⟩
  · simp [h1]
  · simp [h2]
  · simp [h3]

lemma Ok.orphan (h : t.Ok) (due : ℕ) (hp : (t.connections i).parent = true) : (t.setConnection i { t.connections i with
      parent := false, queueOrder := 0, closing := true, abortPending := true, retireDeadline := due }).Ok := by
  have hi := h.slot i
  obtain ⟨_, hr, _⟩ := hi.young hp
  refine h.setConnection ⟨hi.sound, fun hu => ?_, fun hu => (hi.anchored hu).mono fun _ => .inr rfl, by simp, by simp,
    hi.held, fun _ => hr, fun _ => .inr rfl⟩ (h.distinct id rfl (.inl rfl)) (.inr rfl) ⟨rfl, rfl⟩ rfl ?_
  · rw [(hi.vacant hu).2.1] at hp
    cases hp
  · simp

lemma Change.ok_accept (hx : Change (.accept i) t t') (h : t.Ok) : t'.Ok := by
  cases hx with
  | accept _ j ha hz =>
  have hi := h.slot i
  obtain ⟨hu, hp, _, _, _, _, hst⟩ := acceptable_iff.mp ha
  obtain ⟨_, _, hc⟩ := hi.young hp
  refine h.setConnection ⟨hi.sound, by simp [hu], fun hu => (hi.anchored hu).of_accepting hst, by simp, by simp,
    by simp [hz], by simp [hc], hi.aborting⟩ (h.distinct id rfl (.inl rfl)) (.inr rfl) ⟨rfl, rfl⟩ rfl (by simp)

lemma abort_moves (c : Connection cap σ) : ∃ es, Moves es c.toBlock c.abort.2.toBlock ∧ ∀ e ∈ es, e = .ended := by
  unfold Connection.abort
  split_ifs with hp
  · exact ⟨[], .nil _, by simp⟩
  · exact ⟨[.ended], .single (.terminate .aborted (by simpa using hp) (by decide)), by simp⟩

lemma Ok.reclaim (h : t.Ok) (hu : (t.connections i).used = true) : (t.setConnection i (t.connections i).reclaim).Ok := by
  have hi := h.slot i
  obtain ⟨es, hm, he⟩ := abort_moves (t.connections i).core
  have hf := hm.follows (fun h => by cases he _ h) hi.sound (hi.anchored hu)
  unfold ConnectionSlot.reclaim
  split
  · next ha =>
    obtain ⟨_, h2, h3⟩ := hi.held ha
    refine h.setConnection ⟨hf.sound, by simp [hu], fun _ => hf.anchored.mono fun _ => .inr rfl, by simp, by simp,
      fun _ => ⟨rfl, (hf.later h2).1, by rw [(hf.later h2).2]; exact h3⟩, fun _ => rfl, by simp⟩
      (h.distinct id hf.here hf.peer) (.inr rfl) ⟨rfl, rfl⟩ rfl (by simp)
  next ha =>
  simp only [ne_eq, not_not] at ha
  refine h.setConnection ⟨hf.sound, fun _ => ⟨ha, rfl, rfl⟩, by simp, by simp, by simp, by simp [ha], by simp, by simp⟩
    (by simp [Distinct]) (.inr rfl) ⟨rfl, rfl⟩ (by simp [ha]) (by simp)

lemma ok_fresh {serial : ℕ} (hu : s.used = true ∧ s.queueOrder = 0 ∧ s.acceptOperation = 0)
    (hc : s.closing = false ∧ s.abortPending = false) (hs : s.core.Sound)
    (ha : s.core.Anchored (s.parent = true ∨ s.closing = true))
    (hy : s.parent = true → s.core.Young ∧ s.references = 0 ∧ s.closing = false) : s.Ok serial :=
  ⟨hs, by simp [hu.1], fun _ => ha, hy, by simp [hu.2.1], by simp [hu.2.2], by simp [hc.1], by simp [hc.2]⟩

lemma Ok.connect (h : t.Ok) (hu : (t.connections i).used = false) (hs : core.Sound)
    (hst : core.state = .synSent) (hv : core.passive = false) (hp : core.peer.valid = true) (hf : t.Free core) :
    (t.setConnection i { t.connections i with core := core }.allocate).Ok := by
  have hok : { t.connections i with core := core }.allocate.Ok t.acceptSerial := ok_fresh ⟨rfl, rfl, rfl⟩ ⟨rfl, rfl⟩ hs
    ⟨by simp [allocate, hst], fun _ => hv, by simp [allocate, hst], .inl hp⟩ (by simp [allocate])
  refine ⟨h.toOwned.setConnection hok (fun _ _ k _ => hf k) ?_ (Nat.zero_le _),
    h.toCounted.setConnection (fun j => ?_) fun j hx => ?_⟩
  · simp [allocate]
  · simp [holding, allocate, hu]
  · simp [childOf, allocate] at hx

lemma Ok.adopt (h : t.Ok) (hu : (t.connections i).used = false) (hs : core.Sound)
    (hst : core.state = .synReceived) (hw : core.snd.writeShutdown = false) (hp : core.peer.valid = true)
    (hf : t.Free core) (hb : t.children j < (t.listeners j).backlog) :
    (t.setConnection i { { t.connections i with core := core }.allocate with
      references := 0, parent := true, parentSlot := j, parentGeneration := (t.listeners j).generation }).Ok := by
  have hy : core.Young := by simp [Block.Young, hst, hw]
  refine ⟨h.toOwned.setConnection (ok_fresh ⟨rfl, rfl, rfl⟩ ⟨rfl, rfl⟩ hs ⟨by simp [allocate, hst],
    by simp [allocate, hst], fun _ => .inl rfl, .inl hp⟩ fun _ => ⟨hy, rfl, rfl⟩) (fun _ _ k _ => hf k) ?_ le_rfl,
    h.toCounted.setConnection (fun j => ?_) fun j' hx => ?_⟩
  · simp [allocate]
  · simp [holding, allocate, hu]
  simp only [childOf, Bool.and_eq_true, beq_iff_eq] at hx
  rw [← hx.1.2]
  exact .inr hb

lemma Ok.enqueue (h : t.Ok) (hp : (t.connections i).parent = true)
    (hs : (t.connections i).core.state.accepting = true) (hm : t.acceptSerial ≠ u64Max) :
    ({ t with acceptSerial := t.acceptSerial + 1 }.setConnection i
      { t.connections i with queueOrder := t.acceptSerial + 1 }).Ok := by
  have hslot (k) : (t.connections k).Ok (t.acceptSerial + 1) := by
    obtain ⟨h1, h2, h3, h4, h5, h6, h7, h8⟩ := h.slot k
    exact ⟨h1, h2, h3, h4, fun hq => ⟨(h5 hq).1, (h5 hq).2.1, (h5 hq).2.2.trans (Nat.le_succ _)⟩, h6, h7, h8⟩
  have h' : ({ t with acceptSerial := t.acceptSerial + 1 } : EndpointTable p cap σ).Owned :=
    ⟨hslot, h.unique, h.order, h.generation, Nat.lt_of_le_of_ne h.serial hm⟩
  have hc' : ({ t with acceptSerial := t.acceptSerial + 1 } : EndpointTable p cap σ).Counted :=
    { h with }
  have hi := h.slot i
  have hs' : ({ t.connections i with queueOrder := t.acceptSerial + 1 } : ConnectionSlot p cap σ).Ok (t.acceptSerial + 1) :=
    { hi with queued := fun _ => ⟨hp, later_of_accepting hs, le_rfl⟩ }
  refine ⟨h'.setConnection hs' (h'.distinct id rfl (.inl rfl)) (fun _ k _ he => ?_) (h.generation i),
    hc'.setConnection (fun j => rfl) fun j hx => .inl hx⟩
  have hk := ((h.slot k).queued (by simp only at he; omega)).2.2
  simp only at he
  omega

lemma holding_of_acceptable (ha : s.acceptable j (t.listeners j).generation = true) (k : Fin p.listeners) :
    s.holding k (t.listeners k).generation = (decide (k = j) && s.acceptOperation != 0) := by
  obtain ⟨hu, _, hj, hg, _⟩ := acceptable_iff.mp ha
  by_cases hk : k = j
  · subst hk
    simp [holding, hu, hj, hg]
  · have hne : (j == k) = false := by simpa using Ne.symm hk
    simp [holding, hj, hk, hne]

lemma Counted.hold (h : t.Counted) {l : ListenerSlot} (hl : l = { t.listeners j with
      acceptHolds := l.acceptHolds, sequence := l.sequence })
    (hn : l.acceptHolds + ((t.connections i).holding j (t.listeners j).generation).toNat =
      (t.listeners j).acceptHolds + (s.holding j (t.listeners j).generation).toNat)
    (hh : ∀ k, k ≠ j → s.holding k (t.listeners k).generation = (t.connections i).holding k (t.listeners k).generation)
    (hc : s.parent = true → (t.connections i).parent = true) (hu : s.used = (t.connections i).used)
    (hp : s.parentSlot = (t.connections i).parentSlot ∧ s.parentGeneration = (t.connections i).parentGeneration) :
    ((t.setConnection i s).setListener j l).Counted := by
  have hgen : l.generation = (t.listeners j).generation := by rw [hl]
  have hb : l.backlog = (t.listeners j).backlog := by rw [hl]
  have hsame (k) : (((t.setConnection i s).setListener j l).listeners k).generation = (t.listeners k).generation := by
    by_cases hk : k = j
    · subst hk
      simp [hgen]
    · rw [setListener_of_ne _ _ hk]
      rfl
  have hchild (k) : ((t.setConnection i s).setListener j l).children k ≤ t.children k := by
    refine count_le fun m hm => ?_
    rw [hsame] at hm
    by_cases hmi : m = i
    · subst hmi
      simp only [setListener_connections, setConnection_self, childOf, Bool.and_eq_true] at hm ⊢
      rw [← hp.1, ← hp.2, ← hu]
      exact ⟨⟨⟨hm.1.1.1, hc hm.1.1.2⟩, hm.1.2⟩, hm.2⟩
    · simpa only [setListener_connections, setConnection_of_ne t s hmi] using hm
  refine ⟨fun k => ?_, fun k => ?_, fun k => (hchild k).trans ?_⟩
  · refine forall_setListener (P := fun _ l => l.used = true ↔ l.references ≠ 0) ?_ (fun k _ => h.listener k) k
    rw [hl]
    exact h.listener j
  · rw [hsame]
    have hcount := count_update (holding k (t.listeners k).generation) t.connections i s
    have hk' := h.holds k
    change _ = count _ (update t.connections i s)
    by_cases hk : k = j
    · subst hk
      rw [setListener_self]
      omega
    rw [setListener_of_ne _ _ hk]
    rw [hh k hk] at hcount
    change (t.listeners k).acceptHolds = _
    omega
  · exact forall_setListener (P := fun k l => t.children k ≤ l.backlog) (hb ▸ h.backlog j) (fun k _ => h.backlog k) k

lemma Change.ok_hold (hx : Change (.hold i) t t') (h : t.Ok) : t'.Ok := by
  cases hx with
  | hold _ j operation sequence ha hz hn =>
  have hi := h.slot i
  obtain ⟨hu, hp, _, _, _, _, hst⟩ := acceptable_iff.mp ha
  have hpeer := (show Block.Anchored False _ from (hi.anchored hu).of_accepting hst).lost.resolve_right (·.2)
  have hold := holding_of_acceptable ha
  have hold' := holding_of_acceptable (t := t) (j := j) (s := { t.connections i with
    acceptOperation := operation, acceptQueueOrder := (t.connections i).queueOrder }) ha
  refine ⟨Owned.setListener (h.toOwned.setConnection { hi with
    vacant := by simp [hu], held := fun _ => ⟨(hi.young hp).2.1, later_of_accepting hst, hpeer⟩ }
    (h.distinct id rfl (.inl rfl)) (h.order_of_eq (.inl rfl)) (h.generation i)) le_rfl,
    h.toCounted.hold rfl ?_ (fun k hk => ?_) id rfl ⟨rfl, rfl⟩⟩
  · rw [hold, hold']
    simp [hz, bne_iff_ne.mpr hn]
  · rw [hold, hold']
    simp [hk]

lemma Change.ok_commit (hx : Change (.commit i) t t') (h : t.Ok) : t'.Ok := by
  cases hx with
  | commit _ j _ _ ha hn =>
  have hi := h.slot i
  obtain ⟨hu, hp, _, _, _, _, hst⟩ := acceptable_iff.mp ha
  obtain ⟨_, _, hc⟩ := hi.young hp
  have hold := holding_of_acceptable ha
  have hpos : 0 < (t.listeners j).acceptHolds := by
    rw [h.holds j, count_pos_iff]
    exact ⟨i, by rw [hold]; simp [hn]⟩
  refine ⟨Owned.setListener (h.toOwned.setConnection ⟨hi.sound, by simp [hu],
    fun hu => (hi.anchored hu).of_accepting hst, by simp, by simp, by simp, by simp [hc], hi.aborting⟩
    (h.distinct id rfl (.inl rfl)) (h.order_of_eq (.inr rfl)) (h.generation i)) le_rfl,
    h.toCounted.hold rfl ?_ (fun k hk => ?_) (by simp) rfl ⟨rfl, rfl⟩⟩
  · rw [hold]
    simp only [holding, decide_true, bne_self_eq_false, Bool.and_false, Bool.false_and, Bool.true_and,
      bne_iff_ne.mpr hn, Bool.toNat_true, Bool.toNat_false]
    omega
  · rw [hold]
    simp [hk, holding]

lemma Change.ok_cancel (hx : Change (.cancel i) t t') (h : t.Ok) : t'.Ok := by
  cases hx with
  | cancel _ j _ hu hn hp hg =>
  have hi := h.slot i
  have hold : (t.connections i).holding j (t.listeners j).generation = true := by
    simp [holding, hu, hn, hp, hg]
  have hpos : 0 < (t.listeners j).acceptHolds := by
    rw [h.holds j, count_pos_iff]
    exact ⟨i, hold⟩
  refine ⟨Owned.setListener (h.toOwned.setConnection { hi with
    vacant := by simp [hu], held := by simp } (h.distinct id rfl (.inl rfl))
    (h.order_of_eq (.inl rfl)) (h.generation i)) le_rfl,
    h.toCounted.hold rfl ?_ (fun k hk => ?_) id rfl ⟨rfl, rfl⟩⟩
  · rw [hold]
    simp only [holding, bne_self_eq_false, Bool.and_false, Bool.false_and, Bool.toNat_true, Bool.toNat_false]
    omega
  · have hne : (j == k) = false := by simpa using Ne.symm hk
    simp [holding, hp, hne]

lemma Ok.listen (h : t.Ok) (here : Endpoint) (backlog : ℕ) (hz : (t.listeners j).acceptHolds = 0) :
    (t.setListener j { t.listeners j with
      generation := (t.listeners j).generation + 1, here := here, backlog := backlog, references := 1, sequence := 1
      terminal := false, used := true }).Ok := by
  have hnew (i) : ((t.connections i).parentSlot == j &&
      (t.connections i).parentGeneration == (t.listeners j).generation + 1) = false := by
    by_cases hj : (t.connections i).parentSlot = j
    · have hg := h.generation i
      rw [hj] at hg
      simp
      omega
    · simp [hj]
  refine ⟨h.toOwned.setListener (Nat.le_succ _), h.toCounted.setListener (by simp)
    (hz.trans (count_eq_zero_iff.mpr fun i => ?_).symm) ((count_eq_zero_iff.mpr fun i => ?_).trans_le (Nat.zero_le _))⟩
  · rw [holding, Bool.and_assoc, hnew i, Bool.and_false]
  · rw [childOf, Bool.and_assoc, hnew i, Bool.and_false]

lemma Change.ok_quiet (hx : Change .quiet t t') (h : t.Ok) : t'.Ok := by
  cases hx with
  | flag hc hl hs => exact h.of_flagged hc hl hs
  | scratch i core hu hs => exact h.scratch hu hs
  | connect i core hu hs hst hv hp hf => exact h.connect hu hs hst hv hp hf
  | adopt i j core hu hs hst hw hp hf hb => exact h.adopt hu hs hst hw hp hf hb
  | refer i n hr => exact h.refer n hr
  | letGo i due hr => exact h.letGo due hr
  | evolve i core es hu hm ho hn => exact h.evolve hu hm ho hn
  | orphan i due hp => exact h.orphan due hp
  | enqueue i hp hs _ hm => exact h.enqueue hp hs hm
  | reclaim i hu => exact h.reclaim hu
  | listen j here backlog _ hz => exact h.listen here backlog hz
  | referListener j n hr hn =>
    have hu := (h.listener j).mpr hr
    exact ⟨h.toOwned.setListener le_rfl, h.toCounted.setListener (by simp [hu, hn]) (h.holds j) (h.backlog j)⟩
  | close j changed =>
    exact ⟨h.toOwned.setListener le_rfl, h.toCounted.setListener (by simp) (h.holds j) (h.backlog j)⟩

lemma Change.ok (hx : Change x t t') (h : t.Ok) : t'.Ok := by
  cases x with
  | quiet => exact hx.ok_quiet h
  | accept => exact hx.ok_accept h
  | hold => exact hx.ok_hold h
  | commit => exact hx.ok_commit h
  | cancel => exact hx.ok_cancel h

def Dead (t : EndpointTable p cap σ) (i : Fin p.connections) (g : ℕ) : Prop :=
  g < (t.connections i).generation ∨ (t.connections i).generation = g ∧
      ((t.connections i).used = false ∨ (t.connections i).references = 0 ∧ (t.connections i).parent = false)

def DeadListener (t : EndpointTable p cap σ) (j : Fin p.listeners) (g : ℕ) : Prop :=
  g < (t.listeners j).generation ∨ (t.listeners j).generation = g ∧ (t.listeners j).used = false

def grip (s : ConnectionSlot p cap σ) : ℕ × ℕ × ℕ × Fin p.listeners × ℕ :=
  (s.generation, s.acceptOperation, s.acceptQueueOrder, s.parentSlot, s.parentGeneration)

/-- What a change that bears the label `x` leaves of the connection slot `i`. -/
structure Turned (t : EndpointTable p cap σ) (x : Label p) (i : Fin p.connections) (s : ConnectionSlot p cap σ) : Prop where
  aged : (t.connections i).Aged (x = .commit i ∨ x = .cancel i) s
  order : s.queueOrder ≠ 0 → t.acceptSerial < s.queueOrder ∨
    s.generation = (t.connections i).generation ∧ s.queueOrder = (t.connections i).queueOrder
  grip : x ≠ .hold i → s.acceptOperation ≠ 0 → grip s = grip (t.connections i)
  references : x ≠ .accept i → x ≠ .commit i → (t.connections i).references = 0 →
    (t.connections i).generation < s.generation ∨ s.references = 0
  queued : (t.connections i).used = true → (t.connections i).parent = true → (t.connections i).queueOrder ≠ 0 →
    s.generation = (t.connections i).generation ∧ (s.parent = false ∨
      s.used = true ∧ s.parent = true ∧ s.parentSlot = (t.connections i).parentSlot ∧
        s.parentGeneration = (t.connections i).parentGeneration ∧ s.queueOrder = (t.connections i).queueOrder)

lemma Turned.refl (x : Label p) (i : Fin p.connections) : t.Turned x i (t.connections i) :=
  ⟨.refl _ _, fun _ => .inr ⟨rfl, rfl⟩, fun _ _ => rfl, fun _ _ => .inr, fun hu hp _ => ⟨rfl, .inr ⟨hu, hp, rfl, rfl, rfl⟩⟩⟩

lemma Turned.update {k : Fin p.connections} (hs : t.Turned x k s) : t.Turned x i (update t.connections k s i) := by
  by_cases hik : i = k
  · subst hik
    rwa [update_self]
  · rw [update_of_ne hik]
    exact .refl x i

lemma Change.turned (hx : Change x t t') (h : t.Ok) (i : Fin p.connections) : t.Turned x i (t'.connections i) := by
  cases hx with
  | flag hc =>
    rw [(hc i).eq]
    exact { Turned.refl _ i with aged := { Aged.refl _ _ with } }
  | scratch k | evolve k => exact .update { Turned.refl _ k with aged := { Aged.refl _ _ with } }
  | connect k core hu | adopt k _ core hu =>
    exact .update {
      aged := ⟨Nat.le_succ _, fun hg => absurd hg (Nat.succ_ne_self _), fun hg => absurd hg (Nat.succ_ne_self _),
        fun hg => absurd hg (Nat.succ_ne_self _), fun ha => absurd ((h.slot k).vacant hu).1 ha⟩
      order := fun hz => absurd rfl hz
      grip := fun _ hz => absurd rfl hz
      references := fun _ _ _ => .inl (Nat.lt_succ_self _)
      queued := fun hu' => by simp [hu] at hu' }
  | refer k n hr =>
    exact .update { Turned.refl _ k with
      aged := { Aged.refl _ _ with references := fun _ _ h => absurd h hr }
      references := fun _ _ h => absurd h hr }
  | letGo k =>
    exact .update { Turned.refl _ k with
      aged := { Aged.refl _ _ with references := fun _ _ _ => rfl }
      references := fun _ _ _ => .inr rfl }
  | orphan k =>
    exact .update { Turned.refl _ k with
      aged := { Aged.refl _ _ with parent := fun _ _ => rfl }
      order := fun hz => absurd rfl hz
      queued := fun _ _ _ => ⟨rfl, .inl rfl⟩ }
  | enqueue k _ _ hz =>
    exact .update { Turned.refl _ k with
      aged := { Aged.refl _ _ with }
      order := fun _ => .inl (Nat.lt_succ_self _)
      queued := fun _ _ hn => absurd hz hn }
  | reclaim k =>
    refine .update ?_
    unfold ConnectionSlot.reclaim
    split
    · exact { Turned.refl _ k with
        aged := { Aged.refl _ _ with parent := fun _ _ => rfl, references := fun _ _ _ => rfl }
        order := fun hz => absurd rfl hz
        references := fun _ _ _ => .inr rfl
        queued := fun _ _ _ => ⟨rfl, .inl rfl⟩ }
    next ha =>
    exact { Turned.refl _ k with
      aged := ⟨le_rfl, fun _ _ => rfl, fun _ _ => rfl, fun _ _ _ => rfl, fun hn => absurd hn ha⟩
      order := fun hz => absurd rfl hz
      references := fun _ _ _ => .inr rfl
      queued := fun _ _ _ => ⟨rfl, .inl rfl⟩ }
  | accept k j ha =>
    exact .update { Turned.refl _ k with
      aged := { Aged.refl _ _ with
        parent := fun _ _ => rfl, references := fun _ h => by simp [(acceptable_iff.mp ha).2.1] at h }
      order := fun hz => absurd rfl hz
      references := fun hn => absurd rfl hn
      queued := fun _ _ _ => ⟨rfl, .inl rfl⟩ }
  | hold k j operation sequence ha hz =>
    exact .update { Turned.refl _ k with
      aged := { Aged.refl True _ with held := fun hn => absurd hz hn }
      grip := fun hn => absurd rfl hn }
  | commit k j sequence sequence' ha =>
    exact .update {
      aged := ⟨le_rfl, fun _ _ => rfl, fun _ h => h, fun _ h => by simp [(acceptable_iff.mp ha).2.1] at h,
        fun _ hd => absurd (.inl rfl) hd⟩
      order := fun hz => absurd rfl hz
      grip := fun _ hz => absurd rfl hz
      references := fun _ hn => absurd rfl hn
      queued := fun _ _ _ => ⟨rfl, .inl rfl⟩ }
  | cancel k =>
    exact .update { Turned.refl _ k with
      aged := { Aged.refl True _ with held := fun _ hd => absurd (.inr rfl) hd }
      grip := fun _ hz => absurd rfl hz }
  | listen | referListener | close => exact .refl _ i

lemma past_or {g a b : ℕ} {P Q : Prop} (hab : a ≤ b) (h : g < a ∨ a = g ∧ P) (hPQ : b = a → P → Q) : g < b ∨ b = g ∧ Q := by
  rcases h with h | ⟨rfl, h⟩
  · exact .inl (h.trans_le hab)
  · exact hab.lt_or_eq.imp_right fun he => ⟨he.symm, hPQ he.symm h⟩

lemma Change.dead (hx : Change x t t') (h : t.Ok) {g : ℕ} (hd : t.Dead i g) : t'.Dead i g :=
  have ha := (hx.turned h i).aged
  past_or ha.generation hd fun he => Or.imp (ha.used he) fun ⟨hr, hp⟩ => ⟨ha.references he hp hr, ha.parent he hp⟩

lemma Change.listener_aged (hx : Change x t t') (k : Fin p.listeners) :
    (t.listeners k).generation ≤ (t'.listeners k).generation ∧ ((t'.listeners k).generation = (t.listeners k).generation →
      (t.listeners k).used = false → (t'.listeners k).used = false) := by
  set P : Fin p.listeners → ListenerSlot → Prop := fun k l => (t.listeners k).generation ≤ l.generation ∧
    (l.generation = (t.listeners k).generation → (t.listeners k).used = false → l.used = false)
  have hsame (k : Fin p.listeners) : P k (t.listeners k) := ⟨le_rfl, fun _ h => h⟩
  show P k (t'.listeners k)
  cases hx with
  | flag _ hl =>
    rw [hl k]
    exact hsame k
  | hold _ j | commit _ j | cancel _ j | referListener j =>
    refine forall_setListener (P := P) ?_ (fun k _ => hsame k) k
    exact ⟨le_rfl, fun _ h => h⟩
  | close j =>
    refine forall_setListener (P := P) ?_ (fun k _ => hsame k) k
    exact ⟨le_rfl, fun _ _ => rfl⟩
  | listen j =>
    refine forall_setListener (P := P) ?_ (fun k _ => hsame k) k
    exact ⟨Nat.le_succ _, fun h => absurd h (Nat.succ_ne_self _)⟩
  | _ => exact hsame k

lemma Change.deadListener (hx : Change x t t') {g : ℕ} (hd : t.DeadListener j g) : t'.DeadListener j g :=
  past_or (hx.listener_aged j).1 hd (hx.listener_aged j).2

end

end EndpointTable

end ObfuscationKernel.Net.Tcp
