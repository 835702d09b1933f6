import ObfuscationKernel.Net.Transport

/-! What one operation of the control block can do to its protocol block. Every later
invariant is proved for these moves and carried to the operations by refinement. -/

namespace ObfuscationKernel.Net.Tcp

open ObfuscationKernel.Core Library Library.Serial Wire Tcp.Block State

variable {cap : Capacities}

inductive Event
  | quiet | opened | ended | shut | planned | transmitted
  | wrote (xs : List UInt8)
  | returned (xs : List UInt8)
  | synchronized (seq : U32)
  | acked (ack una max : U32)
  | took (seg : Wire.Tcp) (rank : ℤ)

def Receiver.rank {n : ℕ} (r : Receiver n) (seq : U32) : ℤ :=
  (r.rxSize + (if r.eof then 1 else 0) : ℕ) + (seq - r.rcvNxt).toInt

def State.streaming : State → Bool
  | .established | .closeWait | .finWait1 | .finWait2 | .closing | .lastAck => true
  | _ => false

def State.opening : State → Bool
  | .synSent | .synReceived => true
  | _ => false

def State.synchronized : State → Bool
  | .synReceived | .timeWait => true
  | s => s.streaming

inductive Planned {n : ℕ} (state : State) (s : Sender n) (p : Plan) : Prop
  | other (hk : p.kind = .reset ∨ p.kind = .ack) (hf : p.fields.flags = tcpRst ∨ p.fields.flags = tcpAck)
      (hp : p.payload = 0)
  | syn (hk : p.kind = .syn ∨ p.kind = .retry) (hs : state.opening = true)
      (hq : p.fields.sequence = s.iss ∨ p.fields.sequence = s.sndUna)
      (hf : p.fields.flags = tcpSyn ∨ p.fields.flags = tcpSyn ||| tcpAck) (hp : p.payload = 0)
      (hr : p.kind = .retry → s.rtx.active = true)
  | head (hk : p.kind = .retry ∧ s.rtx.active = true ∨ p.kind = .fast ∧ state.streaming = true)
      (hs : state.opening = false) (hq : p.fields.sequence = s.sndUna)
      (hf : p.fields.flags = tcpAck ||| tcpPsh) (h0 : p.payload ≠ 0) (hz : p.offset = 0)
      (hp : p.payload ≤ s.txSize ∧ p.payload ≤ (s.sndMax - s.sndUna).toNat)
  | headFin (hk : p.kind = .retry ∧ s.rtx.active = true ∨ p.kind = .fast ∧ state.streaming = true)
      (hs : state.opening = false) (hq : p.fields.sequence = s.sndUna)
      (hf : p.fields.flags = tcpFin ||| tcpAck) (hp : p.payload = 0) (hd : s.finSent = true)
      (h0 : s.txSize = 0 ∨ s.sndMax = s.sndUna)
  | data (hk : p.kind = .data ∨ p.kind = .probe) (hs : state.streaming = true)
      (hq : p.fields.sequence = s.sndNxt) (hf : p.fields.flags = tcpAck ||| tcpPsh)
      (ho : p.offset = s.sentData) (hp : 0 < p.payload) (hn : s.sentData + p.payload ≤ s.txSize)
  | fin (hk : p.kind = .fin) (hs : state.streaming = true) (hq : p.fields.sequence = s.sndNxt)
      (hf : p.fields.flags = tcpFin ||| tcpAck) (hp : p.payload = 0) (hw : s.writeShutdown = true)
      (ha : s.finAcknowledged = false) (he : s.sndNxt = s.finSequence)

inductive Move : Event → Block cap → Block cap → Prop
  | repeatSyn {k} (hp : k.plan.active = false) (hs : k.state = .synReceived) :
      Move .quiet k { k with pendingSyn := true }
  | activeOpen {k} (here peer : Endpoint) (iss : U32) (hp : k.plan.active = false)
      (hs : k.state = .closed) :
      Move .opened k { k.resetFields with
        localEndpoint := here, peer := peer, snd := k.resetFields.snd.startSequence iss
        state := .synSent, pendingSyn := true }
  | passiveOpen {k} (here : Endpoint) (iss : U32) (hp : k.plan.active = false)
      (hs : k.state = .closed) :
      Move .opened k { k.resetFields with
        localEndpoint := here, snd := k.resetFields.snd.startSequence iss
        state := .listen, passive := true, listenerArmed := true }
  | rearm {k} (iss : U32) (hp : k.plan.active = false) (hs : k.state = .listen)
      (ha : k.listenerArmed = false) :
      Move .opened k { k with snd := k.snd.startSequence iss, listenerArmed := true }
  | terminate {k} (reason : Failure) (hp : k.plan.active = false) (hr : reason ≠ .none) :
      Move .ended k (k.terminate reason)
  | relisten {k} (hp : k.plan.active = false) (hs : k.state = .synReceived) (hv : k.passive = true) :
      Move .ended k k.returnToListen
  | expire {k} (hp : k.plan.active = false) (hs : k.state = .timeWait) :
      Move .ended k { k with state := .closed }
  | write {k} (xs : List UInt8) (hp : k.plan.active = false) (hw : k.snd.writeShutdown = false)
      (hs : k.state = .established ∨ k.state = .closeWait)
      (hx : xs.length ≤ cap.send - k.snd.txSize) :
      Move (.wrote xs) k { k with snd := k.snd.write xs }
  | read {k} (size : ℕ) (hp : k.plan.active = false) (hf : k.failure = .none) :
      Move (.returned (k.rcv.peek size)) k { k with rcv := k.rcv.read size }
  | shutdown {k} (hp : k.plan.active = false) (hs : k.state = .established ∨ k.state = .closeWait) :
      Move .shut k { k with snd := { k.snd with writeShutdown := true } }
  | greet {k} (source : Endpoint) (seq : U32) (mss : ℕ) (hp : k.plan.active = false)
      (hs : k.state = .listen) (ha : k.listenerArmed = true) (hm : 0 < mss) :
      Move (.synchronized seq) k { k.synchronize seq with
        listenerArmed := false, peer := source, state := .synReceived, pendingSyn := true, peerMss := mss }
  | cross {k} (seq : U32) (mss : ℕ) (hp : k.plan.active = false) (hs : k.state = .synSent)
      (hm : 0 < mss) :
      Move (.synchronized seq) k { k.synchronize seq with
        state := .synReceived, pendingSyn := true, peerMss := mss }
  | connect {k} (seq : U32) (mss due : ℕ) (hp : k.plan.active = false) (hs : k.state = .synSent)
      (hm : 0 < mss) (ha : k.snd.sndMax = k.snd.iss + 1) :
      Move (.synchronized seq) k
        (({ k.synchronize seq with peerMss := mss } : Block cap).establish (k.snd.iss + 1) due)
  | handshake {k} (due : ℕ) (hp : k.plan.active = false) (hs : k.state = .synReceived)
      (ha : k.snd.sndMax = k.snd.iss + 1) :
      Move (.acked (k.snd.iss + 1) k.snd.sndUna k.snd.sndMax) k (k.establish (k.snd.iss + 1) due)
  | acknowledge {k} (ack : U32) (due : ℕ) (hp : k.plan.active = false)
      (hs : k.state.streaming = true ∨ k.state = .timeWait) (ha : k.ackIgnored ack = false) :
      Move (.acked ack k.snd.sndUna k.snd.sndMax) k (k.acknowledge ack due)
  | consume {k} (seg : Wire.Tcp) (hp : k.plan.active = false) (hs : k.state.streaming = true) :
      Move (.took seg (k.rcv.rank seg.fields.sequence)) k (k.consume seg)
  | plan {k} (p : Plan) (hp : k.plan.active = false) (ha : p.active = true)
      (h : Planned k.state k.snd p) :
      Move .planned k { k with plan := p }
  | refuse {k} (hp : k.plan.active = true) : Move .quiet k { k with plan := {} }
  | transmit {k} (due : ℕ) (hp : k.plan.active = true) :
      Move .transmitted k (({ k with plan := {} } : Block cap).complete k.plan due)

inductive Moves : List Event → Block cap → Block cap → Prop
  | nil (k) : Moves [] k k
  | cons {e es k k' k''} : Move e k k' → Moves es k' k'' → Moves (e :: es) k k''

namespace Moves

variable {es fs : List Event} {e : Event} {k k' k'' : Block cap}

lemma single (h : Move e k k') : Moves [e] k k' := .cons h (.nil _)

lemma append (h : Moves es k k') (h' : Moves fs k' k'') : Moves (es ++ fs) k k'' := by
  induction h with
  | nil => exact h'
  | cons hm _ ih => exact .cons hm (ih h')

end Moves

namespace Block

variable (k : Block cap)

@[simp] lemma acknowledge_plan (ack : U32) (due : ℕ) : (k.acknowledge ack due).plan = k.plan := by
  unfold acknowledge
  split_ifs <;> rfl

@[simp] lemma acknowledge_rcv (ack : U32) (due : ℕ) : (k.acknowledge ack due).rcv = k.rcv := by
  unfold acknowledge
  split_ifs <;> rfl

lemma consume_rcv (seg : Wire.Tcp) : (k.consume seg).rcv = k.rcv ∨
      (k.consume seg).rcv = k.rcv.consume seg.fields.sequence seg.payload (seg.fields.has tcpFin) := by
  unfold consume enter
  dsimp only
  split_ifs
  · exact .inl rfl
  iterate 3 exact .inr rfl

lemma acknowledge_state (ack : U32) (due : ℕ) (h : k.state.streaming = true ∨ k.state = .timeWait) :
    (k.acknowledge ack due).state.streaming = true ∨ (k.acknowledge ack due).state = .timeWait ∨
      (k.acknowledge ack due).state = .closed := by
  unfold acknowledge
  split_ifs
  · tauto
  · simp only [enter]
    cases hk : k.state <;> simp_all [finAcked, streaming]
  · tauto

lemma acknowledge_timeWait {ack : U32} {due : ℕ} (h : (k.acknowledge ack due).state = .timeWait) :
    k.state = .closing ∨ k.state = .timeWait := by
  unfold acknowledge at h
  split_ifs at h
  · exact .inr h
  · simp only [enter] at h
    cases hk : k.state <;> simp_all [finAcked]
  · exact .inr h

end Block

lemma State.synchronized_of_streaming {s : State} (h : s.streaming = true) : s.synchronized = true := by
  cases s <;> simp_all [streaming, synchronized]

variable {e : Event} {k k' : Block cap} {n : ℕ}

lemma Move.took_rcv {seg : Wire.Tcp} {rank : ℤ} (h : Move e k k')
    (he : e = .took seg rank) :
    k'.rcv = k.rcv ∨ k'.rcv = k.rcv.consume seg.fields.sequence seg.payload (seg.fields.has tcpFin) := by
  cases h <;> cases he
  exact k.consume_rcv seg

namespace Connection

variable {σ : Type} (c : Connection cap σ)

lemma challenge_toBlock (now : ℕ) : (c.challenge now).2.toBlock = c.toBlock := by
  unfold challenge
  split <;> rfl

lemma updateWindow_toBlock (f : TcpFields) : (c.updateWindow f).toBlock = c.toBlock := by
  unfold updateWindow
  dsimp only
  split <;> split <;> rfl

def Caused (k : Block cap) (seg : Wire.Tcp) (answer : Result Ingress) : Event → Prop
  | .quiet | .ended => True
  | .synchronized seq => seq = seg.fields.sequence ∧ seg.fields.has tcpSyn = true
  | .acked ack una max => ack = seg.fields.acknowledgment ∧ seg.fields.has tcpAck = true ∧
      una = k.snd.sndUna ∧ max = k.snd.sndMax ∧
      (answer = .ok .accepted ∨ k.state = .closing ∨ k.state = .timeWait)
  | .took s rank => s = seg ∧ rank = k.rcv.rank seg.fields.sequence ∧ k.state.synchronized = true ∧
      answer = .ok .accepted ∧ seg.fields.has tcpSyn = false
  | _ => False

inductive Receives (k : Block cap) (seg : Wire.Tcp) (k' : Block cap) : Prop
  | same (h : k'.rcv = k.rcv)
  | consumed (h : k'.rcv = k.rcv.consume seg.fields.sequence seg.payload (seg.fields.has tcpFin))
      (hs : k.state.synchronized = true)
  | cleared (h : k'.rcv = { k.rcv with rxSize := 0, ooo := [] })
  | relistened (h : k'.state = .listen) (hx : k'.rcv.rx = k.rcv.rx)
  | greeted (h : k.state = .listen ∨ k.state = .synSent) (hx : k'.rcv.rx = k.rcv.rx)

variable {k k' : Block cap}

lemma Receives.of_move {seg : Wire.Tcp} {answer : Result Ingress} {e : Event}
    (hm : Move e k k') (hc : Caused k seg answer e) : Receives k seg k' := by
  cases hm with
  | repeatSyn | refuse | expire => exact .same rfl
  | terminate => exact .cleared rfl
  | relisten => exact .relistened rfl rfl
  | greet _ _ _ _ hs => exact .greeted (.inl hs) rfl
  | cross _ _ _ hs => exact .greeted (.inr hs) rfl
  | connect _ _ _ _ hs => exact .greeted (.inr hs) (by simp [Block.establish, Block.synchronize])
  | handshake => exact .same (by simp [Block.establish])
  | acknowledge => exact .same (by simp)
  | consume s _ hs =>
    obtain ⟨rfl, _⟩ := hc
    rcases k.consume_rcv s with h | h
    · exact .same h
    · exact .consumed h (synchronized_of_streaming hs)
  | _ => exact hc.elim

def Refines (seg : Wire.Tcp) (r : Outcome cap σ Ingress) : Prop :=
  ∃ es, Moves es c.toBlock r.2.toBlock ∧ (∀ e ∈ es, Caused c.toBlock seg r.1 e) ∧ Receives c.toBlock seg r.2.toBlock

section

variable {c} {seg : Wire.Tcp} {r : Outcome cap σ Ingress}

lemma Refines.same (h : r.2.toBlock = c.toBlock) : c.Refines seg r :=
  ⟨[], by rw [h]; exact .nil _, by simp, .same (by rw [h])⟩

lemma Refines.one {e : Event} (h : Move e c.toBlock r.2.toBlock) (he : Caused c.toBlock seg r.1 e) : c.Refines seg r :=
  ⟨[e], .single h, by simpa using he, .of_move h he⟩

lemma Refines.ite {p : Prop} [Decidable p] {r' : Outcome cap σ Ingress} (h : p → c.Refines seg r)
    (h' : ¬ p → c.Refines seg r') : c.Refines seg (if p then r else r') := by
  by_cases hp : p
  · rw [if_pos hp]
    exact h hp
  · rw [if_neg hp]
    exact h' hp

def Takes (c : Connection cap σ) (seg : Wire.Tcp) (r : Outcome cap σ Ingress) : Prop :=
  r.2.toBlock = c.toBlock ∨ Move (.took seg (c.rcv.rank seg.fields.sequence)) c.toBlock r.2.toBlock ∧ r.1 = .ok .accepted

lemma Takes.refines (h : c.Takes seg r) (hy : seg.fields.has tcpSyn = false)
    (hs : c.state.synchronized = true) : c.Refines seg r := by
  rcases h with h | ⟨hm, ha⟩
  · exact .same h
  · exact .one hm ⟨rfl, rfl, hs, ha, hy⟩

variable {c' : Connection cap σ}

lemma Takes.prepend {e : Event} (h : c'.Takes seg r) (hm : Move e c.toBlock c'.toBlock)
    (he : Caused c.toBlock seg r.1 e) (hr : c'.rcv = c.rcv) (hs : c.state.synchronized = true)
    (hy : seg.fields.has tcpSyn = false) : c.Refines seg r := by
  rcases h with h | ⟨ht, ha⟩
  · exact .one (h ▸ hm) he
  have hc : Caused c.toBlock seg r.1 (.took seg (c'.rcv.rank seg.fields.sequence)) :=
    ⟨rfl, by rw [hr], hs, ha, hy⟩
  refine ⟨[e, _], .cons hm (.single ht), by simp [he, hc], ?_⟩
  rcases ht.took_rcv rfl with h | h
  · exact .same (h.trans hr)
  · exact .consumed (by rw [h, hr]) hs

lemma Refines.of_toBlock (h : c'.toBlock = c.toBlock)
    (hr : c'.Refines seg r) : c.Refines seg r := by
  obtain ⟨es, hm, hc, hx⟩ := hr
  exact ⟨es, h ▸ hm, h ▸ hc, h ▸ hx⟩

end

variable [CongestionControl σ]

lemma duplicateAck_toBlock : c.duplicateAck.toBlock = c.toBlock := by
  unfold duplicateAck
  dsimp only
  split_ifs <;> rfl

lemma noteDuplicate_toBlock (una : U32) (window : ℕ) (seg : Wire.Tcp) :
    (c.noteDuplicate una window seg).toBlock = c.toBlock := by
  unfold noteDuplicate
  dsimp only
  split
  · exact c.duplicateAck_toBlock
  · rfl

lemma acknowledge_toBlock (ack : U32) (now : ℕ) :
    ∃ due, (c.acknowledge ack now).toBlock = c.toBlock.acknowledge ack due := by
  unfold acknowledge
  split
  · next h => exact ⟨0, by rw [Block.acknowledge, if_pos h]⟩
  · exact ⟨_, rfl⟩

lemma establish_toBlock (ack : U32) (now : ℕ) : ∃ due, (c.establish ack now).toBlock = c.toBlock.establish ack due := by
  obtain ⟨due, h⟩ := c.acknowledge_toBlock ack now
  exact ⟨due, by simp only [establish, Block.establish, h]⟩

lemma mssOption_pos (n : ℕ) (cursor : TcpOptions) : 0 < (mssOption n cursor).getD 536 := by
  induction n generalizing cursor with
  | zero => simp [mssOption]
  | succ n ih =>
  rw [mssOption]
  split
  · next option cursor' _ =>
    by_cases h : option.kind = 2 ∧ be16 option.data 0 ≠ 0
    · simp only [h, decide_true, ne_eq, not_false_eq_true, Bool.and_self, if_true, Option.getD_some]
      exact Nat.pos_of_ne_zero h.2
    · rw [if_neg (by simpa using h)]
      exact ih cursor'
  · simp

variable {c} {seg : Wire.Tcp} (now : ℕ)

lemma ingressData_takes (una : U32) (window : ℕ) (hp : c.plan.active = false)
    (hs : c.state.streaming = true ∨ c.state = .timeWait ∨ c.state = .closed) :
    c.Takes seg (c.ingressData una window seg now) := by
  have hd : ((c.updateWindow seg.fields).noteDuplicate una window seg).toBlock = c.toBlock := by
    rw [noteDuplicate_toBlock, updateWindow_toBlock]
  unfold ingressData
  generalize (c.updateWindow seg.fields).noteDuplicate una window seg = d at hd ⊢
  split
  · exact .inl rfl
  next hc =>
  split
  · exact .inl hd
  next ht =>
  simp only [beq_iff_eq] at ht hc
  have hm : Move _ d.toBlock (d.consume seg now).toBlock := .consume seg (hd ▸ hp) (by rw [hd]; tauto)
  exact .inr ⟨hd ▸ hm, rfl⟩

lemma ingressData_answer (una : U32) (window : ℕ) (hs : c.state ≠ .timeWait) :
    (c.ingressData una window seg now).1 = .ok .accepted := by
  unfold ingressData
  split
  · rfl
  · rw [if_neg (by simpa using hs)]

lemma receiveSyn_refines (hp : c.plan.active = false) : c.Refines seg (c.receiveSyn seg now) := by
  unfold receiveSyn
  dsimp only
  split
  · next h =>
    simp only [Bool.and_eq_true, beq_iff_eq] at h
    obtain ⟨⟨⟨⟨⟨⟨hs, _⟩, _⟩, ha⟩, _⟩, he⟩, hm⟩ := h
    obtain ⟨due, hb⟩ := c.establish_toBlock seg.fields.acknowledgment now
    have hq := he.trans hm
    have hh : Move (.acked (c.snd.iss + 1) c.snd.sndUna c.snd.sndMax) c.toBlock
        (c.establish seg.fields.acknowledgment now).toBlock := by
      rw [hb, hq]
      exact .handshake due hp hs hm
    exact .one hh ⟨hq.symm, ha, rfl, rfl, .inl rfl⟩
  · exact .same (c.challenge_toBlock now)

lemma ingressListen_refines (source : Endpoint) (hp : c.plan.active = false) (hs : c.state = .listen) :
    c.Refines seg (c.ingressListen source seg) := by
  refine .ite (fun _ => .same rfl) fun _ => ?_
  refine .ite (fun _ => .same rfl) fun _ => ?_
  refine .ite (fun _ => .same rfl) fun hf => ?_
  refine .ite (fun _ => .same rfl) fun ha => ?_
  have hy : seg.fields.has tcpSyn = true := by simp_all
  exact .one (.greet source seg.fields.sequence _ hp hs (by simpa using ha) (mssOption_pos _ _)) ⟨rfl, hy⟩

lemma ingressSynSent_refines (hp : c.plan.active = false) (hs : c.state = .synSent) :
    c.Refines seg (c.ingressSynSent seg now) := by
  refine .ite (fun _ => .same ?_) fun hack => ?_
  · split_ifs <;> rfl
  refine .ite (fun _ => ?_) fun _ => ?_
  · refine .ite (fun _ => ?_) fun _ => .same rfl
    exact .one (.terminate .refused hp (by decide)) trivial
  refine .ite (fun _ => .same rfl) fun hf => ?_
  have hy : seg.fields.has tcpSyn = true := by simp_all
  by_cases ha : seg.fields.has tcpAck = true
  · simp only [ha, Bool.true_and, Bool.or_eq_true, bne_iff_ne, not_or, not_not] at hack
    obtain ⟨due, hb⟩ := establish_toBlock (Connection.negotiateMss { c with
      toBlock := c.toBlock.synchronize seg.fields.sequence
      peerWindow := seg.fields.window, wl1 := seg.fields.sequence
      wl2 := seg.fields.acknowledgment } seg) seg.fields.acknowledgment now
    refine .one (e := .synchronized seg.fields.sequence) ?_ ⟨rfl, hy⟩
    simp only [ha, if_true, hb]
    rw [hack.1]
    exact .connect seg.fields.sequence _ due hp hs (mssOption_pos _ _) hack.2
  refine .one (e := .synchronized seg.fields.sequence) ?_ ⟨rfl, hy⟩
  dsimp only
  rw [if_neg ha, if_neg ha]
  exact .cross seg.fields.sequence _ hp hs (mssOption_pos _ _)

lemma ingressAck_refines (hp : c.plan.active = false)
    (hs : c.state.streaming = true ∨ c.state = .timeWait ∨ c.state = .synReceived)
    (hy : seg.fields.has tcpSyn = false) : c.Refines seg (c.ingressAck seg now) := by
  refine .ite (fun _ => .same rfl) fun ha => ?_
  have ha : seg.fields.has tcpAck = true := by simpa using ha
  refine .ite (fun _ => .same (c.challenge_toBlock now)) fun _ => ?_
  refine .ite (fun hr => ?_) fun hr => ?_
  · refine .ite (fun _ => .same rfl) fun h => ?_
    simp only [Bool.or_eq_true, bne_iff_ne, not_or, not_not] at h
    obtain ⟨due, hb⟩ := c.establish_toBlock seg.fields.acknowledgment now
    have hb : (c.establish seg.fields.acknowledgment now).toBlock =
        c.toBlock.establish (c.snd.iss + 1) due := by rw [hb, h.1, h.2]
    have hq : c.state = .synReceived := by simpa using hr
    have hm : Move (.acked (c.snd.iss + 1) c.snd.sndUna c.snd.sndMax) c.toBlock
        (c.establish seg.fields.acknowledgment now).toBlock := by
      rw [hb]
      exact .handshake due hp hq h.2
    refine (ingressData_takes now _ _ ?_ (Or.inl rfl)).prepend hm
      ⟨(h.1.trans h.2).symm, ha, rfl, rfl, .inl (ingressData_answer now _ _ ?_)⟩ ?_ (by rw [hq]; rfl) hy
    · rw [hb]
      simpa [Block.establish] using hp
    · simp [establish]
    · rw [hb]
      simp [Block.establish]
  have hs : c.state.streaming = true ∨ c.state = .timeWait := by
    simp only [beq_iff_eq] at hr
    tauto
  have hy' : c.state.synchronized = true := by
    rcases hs with h | h
    · exact synchronized_of_streaming h
    · rw [h]
      rfl
  refine .ite (fun _ => ?_) fun _ => (ingressData_takes now _ _ hp (by tauto)).refines hy hy'
  obtain ⟨due, hb⟩ := c.acknowledge_toBlock seg.fields.acknowledgment now
  have hd : (c.acknowledge seg.fields.acknowledgment now).Takes seg
      ((c.acknowledge seg.fields.acknowledgment now).ingressData c.snd.sndUna c.peerWindow seg now) := by
    refine ingressData_takes now _ _ ?_ ?_
    · rw [hb, Block.acknowledge_plan]
      exact hp
    · rw [hb]
      exact c.toBlock.acknowledge_state _ _ hs
  by_cases hi : c.toBlock.ackIgnored seg.fields.acknowledgment = true
  · have he : (c.acknowledge seg.fields.acknowledgment now).toBlock = c.toBlock := by
      rw [hb, Block.acknowledge, if_pos hi]
    exact .of_toBlock he (hd.refines hy (by rw [he]; exact hy'))
  have hm : Move (.acked seg.fields.acknowledgment c.snd.sndUna c.snd.sndMax) c.toBlock
      (c.acknowledge seg.fields.acknowledgment now).toBlock := by
    rw [hb]
    exact .acknowledge _ due hp hs (by simpa using hi)
  refine hd.prepend hm ⟨rfl, ha, rfl, rfl, ?_⟩ (by rw [hb, Block.acknowledge_rcv]) hy' hy
  by_cases ht : (c.acknowledge seg.fields.acknowledgment now).state = .timeWait
  · rw [hb] at ht
    exact .inr (c.toBlock.acknowledge_timeWait ht)
  · exact .inl (ingressData_answer now _ _ ht)

lemma ingressSynchronized_refines (hp : c.plan.active = false)
    (hs : c.state.streaming = true ∨ c.state = .timeWait ∨ c.state = .synReceived) :
    c.Refines seg (c.ingressSynchronized seg now) := by
  refine .ite (fun _ => .same ?_) fun _ => ?_
  · split_ifs <;> rfl
  refine .ite (fun _ => ?_) fun _ => ?_
  · refine .ite (fun _ => .same (c.challenge_toBlock now)) fun _ => ?_
    by_cases h : c.state = .synReceived ∧ c.passive = true
    · refine .one (e := .ended) ?_ trivial
      simp only [h, BEq.rfl, Bool.and_self, if_true]
      exact .relisten hp h.1 h.2
    refine .one (e := .ended) ?_ trivial
    rw [if_neg (by simpa using h)]
    exact .terminate .reset hp (by decide)
  refine .ite (fun _ => receiveSyn_refines now hp) fun hy => ?_
  exact ingressAck_refines now hp hs (by simpa using hy)

lemma ingressState_refines (source : Endpoint) (hp : c.plan.active = false) :
    c.Refines seg (c.ingressState source seg now) := by
  refine .ite (fun _ => .same rfl) fun hc => ?_
  refine .ite (fun _ => .same rfl) fun _ => ?_
  refine .ite (fun _ => .same rfl) fun _ => ?_
  refine .ite (fun h => ingressListen_refines source hp (by simpa using h)) fun hl => ?_
  refine .ite (fun h => ingressSynSent_refines now hp (by simpa using h)) fun hs => ?_
  refine .ite (fun _ => ?_) fun _ => ?_
  · refine .ite (fun _ => .same (c.challenge_toBlock now)) fun _ => .same rfl
  refine .ite (fun h => ?_) fun _ => ?_
  · simp only [Bool.and_eq_true, beq_iff_eq] at h
    by_cases hd : (!c.snd.rtx.active || decide (now ≥ c.snd.rtx.deadline)) = true
    · refine .one (e := .quiet) ?_ trivial
      rw [if_pos hd]
      exact .repeatSyn hp h.1.1.1.1
    · refine .same ?_
      rw [if_neg hd]
  refine .ite (fun _ => receiveSyn_refines now hp) fun _ => ?_
  apply ingressSynchronized_refines now hp
  cases hk : c.state <;> simp_all [streaming]

lemma ingress_refines (c : Connection cap σ) (seg : Wire.Tcp) (sender destination : IpAddress)
    (hp : c.plan.active = false) : c.Refines seg (c.ingress sender destination seg now) := by
  refine .ite (fun _ => .same rfl) fun _ => ?_
  refine .ite (fun _ => .same rfl) fun _ => ?_
  exact .of_toBlock (show { c with lastNow := now }.toBlock = c.toBlock from rfl) (ingressState_refines now _ hp)

lemma receive_receives (c : Connection cap σ) (d : Datagram) :
    Receives c.toBlock d.tcp (c.receive (.ok d) now).2.toBlock := by
  unfold receive
  split_ifs with hp
  · exact .same rfl
  · exact .same rfl
  · exact (ingress_refines now c d.tcp d.source d.destination (by simpa using hp)).choose_spec.2.2

def Ends (k k' : Block cap) : Prop :=
  ∃ es, Moves es k k' ∧ (∀ e ∈ es, e = .ended) ∧ k'.plan.active = false

lemma Ends.refl (hp : k.plan.active = false) : Ends k k :=
  ⟨[], .nil _, by simp, hp⟩

lemma Ends.one (h : Move .ended k k') (hp : k'.plan.active = false) : Ends k k' :=
  ⟨[.ended], .single h, by simp, hp⟩

structure Settled (c : Connection cap σ) (now : ℕ) : Prop where
  last : c.lastNow = now
  timeWait : (c.state == .timeWait && decide (now ≥ c.timeWaitDeadline)) = false
  retransmission : (c.snd.rtx.active && decide (now ≥ c.snd.rtx.deadline) &&
    decide (c.snd.rtx.retries ≥ maxRetransmissions)) = false
  finWait : (c.state == .finWait2 && decide (now ≥ c.finWaitDeadline)) = false

def spent (c : Connection cap σ) (now : ℕ) : Bool :=
  c.snd.rtx.active && decide (now ≥ c.snd.rtx.deadline) && decide (c.snd.rtx.retries ≥ maxRetransmissions)

/-- What the timers do to a connection whose clock has been set. -/
inductive Fires (now : ℕ) (c : Connection cap σ) : Connection cap σ → Prop
  | rest : c.Settled now → Fires now c c
  | expire : c.state = .timeWait → c.spent now = false →
      Fires now c { c with state := .closed, pendingAck := false, resetPending := false }
  | relisten : c.state = .synReceived → c.passive = true → Fires now c c.returnToListen
  | timeout : c.spent now = true ∨ c.state = .finWait2 → Fires now c (c.terminate .timedOut)

lemma fires (hl : c.lastNow = now) :
    Fires now c (((c.expireTimeWait now).expireRetransmission now).expireFinWait now) := by
  by_cases hw : (c.state == .timeWait && decide (now ≥ c.timeWaitDeadline)) = true
  · have hs : c.state = .timeWait ∧ now ≥ c.timeWaitDeadline := by simpa using hw
    have ha : c.expireTimeWait now = { c with state := .closed, pendingAck := false, resetPending := false } := by
      simp [expireTimeWait, Block.expireTimeWait, hs.1, hs.2]
    rw [ha]
    unfold expireRetransmission
    split_ifs with h1 h2
    · simp at h2
    · exact .timeout (.inl h1)
    · exact .expire hs.1 (by simpa [spent] using h1)
  rw [Bool.not_eq_true] at hw
  have ha : c.expireTimeWait now = c := by
    unfold expireTimeWait
    simp [hw, Block.expireTimeWait]
  rw [ha]
  unfold expireRetransmission
  split_ifs with h1 h2
  · simp only [Bool.and_eq_true, beq_iff_eq] at h2
    exact .relisten h2.1 h2.2
  · exact .timeout (.inl h1)
  unfold expireFinWait
  split_ifs with hf
  · exact .timeout (.inr (by simpa using ((Bool.and_eq_true _ _).mp hf).1))
  · exact .rest ⟨hl, hw, by simpa using h1, by simpa using hf⟩

variable (c) in
lemma tick_cases : (c.plan.active = true ∨ now < c.lastNow) ∧ (∃ status, c.tick now = (.error status, c)) ∨
    c.plan.active = false ∧ c.lastNow ≤ now ∧ ∃ t, c.tick now = (.ok (), t) ∧ Fires now { c with lastNow := now } t := by
  unfold tick
  split_ifs with hp hn
  · exact .inl ⟨.inl hp, _, rfl⟩
  · exact .inl ⟨.inr hn, _, rfl⟩
  · exact .inr ⟨by simpa using hp, not_lt.mp hn, _, rfl, fires now rfl⟩

lemma tick_ends (hp : c.plan.active = false) : Ends c.toBlock (c.tick now).2.toBlock := by
  rcases c.tick_cases now with ⟨-, _, h⟩ | ⟨-, -, t, h, hf⟩ <;> rw [h]
  · exact .refl hp
  cases hf with
  | rest => exact .refl hp
  | expire hs => exact .one (.expire hp hs) hp
  | relisten hs hv => exact .one (.relisten hp hs hv) rfl
  | timeout => exact .one (.terminate .timedOut hp (by decide)) hp

variable {now} {t : Connection cap σ}

lemma tick_settled (h : c.tick now = (.ok (), t)) : t.Settled now ∧ t.plan.active = false := by
  rcases c.tick_cases now with ⟨-, _, he⟩ | ⟨hp, -, t, he, hf⟩ <;> cases he.symm.trans h
  refine ⟨?_, ?_⟩
  · cases hf with
    | rest hs => exact hs
    | expire _ hr => exact ⟨rfl, rfl, hr, rfl⟩
    | relisten | timeout => exact ⟨rfl, rfl, rfl, rfl⟩
  · obtain ⟨es, -, -, he⟩ := tick_ends now hp
    rwa [h] at he

lemma tick_of_settled (h : ({ c with lastNow := now } : Connection cap σ).Settled now) (hp : c.plan.active = false)
    (hn : c.lastNow ≤ now) : c.tick now = (.ok (), { c with lastNow := now }) := by
  have ha : ({ c with lastNow := now } : Connection cap σ).expireTimeWait now = { c with lastNow := now } := by
    unfold expireTimeWait
    rw [h.timeWait]
    simp [Block.expireTimeWait]
  unfold tick
  rw [if_neg (by simp [hp]), if_neg (not_lt.mpr hn), ha]
  unfold expireRetransmission
  rw [if_neg (by simp [h.retransmission])]
  unfold expireFinWait
  rw [if_neg (by simp [h.finWait])]

lemma Settled.tick (h : c.Settled now) (hp : c.plan.active = false) : c.tick now = (.ok (), c) := by
  have hl : ({ c with lastNow := now } : Connection cap σ) = c := by
    rw [← h.last]
  have ht := tick_of_settled (hl.symm ▸ h) hp h.last.le
  rwa [hl] at ht

end Connection

structure Block.Sound (k : Block cap) : Prop where
  mss : 0 < k.peerMss
  syn : k.pendingSyn = true → k.state.opening = true
  plan : k.plan.active = true → Planned k.state k.snd k.plan

lemma Planned.finish {state : State} {s : Sender n} {p q : Plan} (h : Planned state s p)
    (hk : q.kind = p.kind) (hq : q.fields.sequence = p.fields.sequence)
    (hf : q.fields.flags = p.fields.flags) (hp : q.payload = p.payload) (ho : q.offset = p.offset) :
    Planned state s q := by
  cases h with
  | other => exact .other (by rwa [hk]) (by rwa [hf]) (by rwa [hp])
  | syn _ hs => exact .syn (by rwa [hk]) hs (by rwa [hq]) (by rwa [hf]) (by rwa [hp]) (by rwa [hk])
  | head _ hs =>
    exact .head (by rwa [hk]) hs (by rwa [hq]) (by rwa [hf]) (by rwa [hp]) (by rwa [ho]) (by rwa [hp])
  | headFin _ hs _ _ _ hd h0 =>
    exact .headFin (by rwa [hk]) hs (by rwa [hq]) (by rwa [hf]) (by rwa [hp]) hd h0
  | data _ hs =>
    exact .data (by rwa [hk]) hs (by rwa [hq]) (by rwa [hf]) (by rwa [ho]) (by rwa [hp]) (by rwa [hp])
  | fin _ hs _ _ _ hw ha he =>
    exact .fin (by rwa [hk]) hs (by rwa [hq]) (by rwa [hf]) (by rwa [hp]) hw ha he

lemma Sender.arm_active (s : Sender n) (due : ℕ) : (s.arm due).rtx.active = true := by
  unfold Sender.arm
  split <;> simp_all

lemma Sender.arm_eq (s : Sender n) (due : ℕ) : s.arm due = { s with rtx := (s.arm due).rtx } := by
  unfold Sender.arm
  split <;> rfl

namespace Block

variable (k : Block cap)

lemma complete_frame (sent : Plan) (due : ℕ) :
    (k.complete sent due).plan = k.plan ∧ (k.complete sent due).peerMss = k.peerMss ∧ (k.complete sent due).rcv = k.rcv ∧
      ((k.complete sent due).pendingSyn = true → k.pendingSyn = true) := by
  unfold complete completeSyn completeRetry completeNew
  split
  case h_5 => split <;> simp
  all_goals simp

lemma complete_state (sent : Plan) (due : ℕ) (h : sent.kind ≠ .fin) : (k.complete sent due).state = k.state := by
  unfold complete completeSyn completeRetry completeNew
  split
  case h_5 => split <;> rfl
  all_goals simp_all

lemma acknowledge_peerMss (ack : U32) (due : ℕ) : (k.acknowledge ack due).peerMss = k.peerMss := by
  unfold acknowledge
  split_ifs <;> rfl

lemma consume_plan (seg : Wire.Tcp) : (k.consume seg).plan = k.plan := by
  unfold consume
  dsimp only
  split_ifs <;> rfl

lemma consume_peerMss (seg : Wire.Tcp) : (k.consume seg).peerMss = k.peerMss := by
  unfold consume
  dsimp only
  split_ifs <;> rfl

lemma consume_pendingSyn (seg : Wire.Tcp) : (k.consume seg).pendingSyn = k.pendingSyn := by
  unfold consume
  dsimp only
  split_ifs <;> rfl

lemma acknowledge_pendingSyn (ack : U32) (due : ℕ) : (k.acknowledge ack due).pendingSyn = k.pendingSyn := by
  unfold acknowledge
  split_ifs <;> rfl

lemma consume_snd (seg : Wire.Tcp) : (k.consume seg).state = k.state ∧ (k.consume seg).snd = k.snd ∨
      (k.consume seg).state = k.state.finReceived ∧ (k.consume seg).snd =
        if k.state.finReceived == .timeWait then { k.snd with rtx := {} } else k.snd := by
  unfold consume
  dsimp only
  split_ifs <;> simp_all [enter]

lemma complete_snd (sent : Plan) (due : ℕ) :
    (k.complete sent due).snd.txSize = k.snd.txSize ∧ (k.complete sent due).snd.iss = k.snd.iss ∧
      (k.complete sent due).snd.writeShutdown = k.snd.writeShutdown ∧
      (k.complete sent due).failure = k.failure := by
  unfold complete completeSyn completeRetry completeNew
  split
  case h_4 => dsimp only; split <;> (try rw [Sender.arm_eq]) <;> exact ⟨rfl, rfl, rfl, rfl⟩
  case h_5 => dsimp only; split <;> exact ⟨rfl, rfl, rfl, rfl⟩
  case h_6 | h_7 | h_8 => dsimp only; rw [Sender.arm_eq]; exact ⟨rfl, rfl, rfl, rfl⟩
  all_goals exact ⟨rfl, rfl, rfl, rfl⟩

end Block

lemma State.opening_eq_false {s : State} (h : s.streaming = true ∨ s = .timeWait) : s.opening = false := by
  cases s <;> simp_all [streaming, opening]

lemma Block.Sound.idle (hm : 0 < k.peerMss)
    (hs : k.pendingSyn = true → k.state.opening = true) (hp : k.plan.active = false) : k.Sound :=
  ⟨hm, hs, by simp [hp]⟩

lemma Block.Sound.pendingSyn_eq_false (hs : k.Sound)
    (h : k.state.streaming = true ∨ k.state = .timeWait) : k.pendingSyn = false := by
  by_contra hn
  have ho := hs.syn (by simpa using hn)
  rw [opening_eq_false h] at ho
  cases ho

lemma Move.sound (h : Move e k k') (hs : k.Sound) : k'.Sound := by
  cases h with
  | repeatSyn hp hr => exact .idle hs.mss (fun _ => by simp [hr, opening]) hp
  | activeOpen | passiveOpen => exact .idle (Nat.succ_pos 535) (by simp [opening, resetFields]) rfl
  | rearm iss hp | write xs hp | read size hp | shutdown hp => exact .idle hs.mss hs.syn hp
  | terminate reason hp => exact .idle hs.mss (by simp [Block.terminate]) hp
  | relisten => exact .idle (Nat.succ_pos 535) (by simp [returnToListen, resetFields]) rfl
  | expire hp ht =>
    refine .idle hs.mss (fun h => ?_) hp
    have ho := hs.syn h
    rw [ht] at ho
    cases ho
  | greet source seq mss hp _ _ hm | cross seq mss hp _ hm => exact .idle hm (fun _ => rfl) hp
  | connect seq mss due hp _ hm =>
    refine .idle ?_ (by simp [establish]) ?_
    · simpa [establish, acknowledge_peerMss] using hm
    · simpa [establish, synchronize] using hp
  | handshake due hp =>
    refine .idle ?_ (by simp [establish]) (by simpa [establish] using hp)
    simpa [establish, acknowledge_peerMss] using hs.mss
  | acknowledge ack due hp ht =>
    refine .idle (by rw [acknowledge_peerMss]; exact hs.mss) ?_ (by simpa using hp)
    simp [acknowledge_pendingSyn, hs.pendingSyn_eq_false ht]
  | consume seg hp ht =>
    refine .idle (by rw [consume_peerMss]; exact hs.mss) ?_ (by rwa [consume_plan])
    simp [consume_pendingSyn, hs.pendingSyn_eq_false (.inl ht)]
  | plan p hp ha h => exact ⟨hs.mss, hs.syn, fun _ => h⟩
  | refuse => exact .idle hs.mss hs.syn rfl
  | transmit due hp =>
  obtain ⟨hq, hm, _, hn⟩ := complete_frame { k with plan := {} } k.plan due
  refine .idle (by rw [hm]; exact hs.mss) (fun h => ?_) (by rw [hq])
  have ho := hs.syn (hn h)
  rw [complete_state]
  · exact ho
  · intro hk
    rcases hs.plan hp with h | h | h | h | h | ⟨_, ht⟩ <;> simp_all [opening_eq_false]

lemma Moves.sound {es : List Event} (h : Moves es k k') (hs : k.Sound) : k'.Sound := by
  induction h with
  | nil => exact hs
  | cons hm _ ih => exact ih (hm.sound hs)

lemma Block.complete_state_cases {p : Plan} (hp : Planned k.state k.snd p) (due : ℕ) :
    (k.complete p due).state = k.state ∨ k.state.streaming = true ∧ (k.complete p due).state.streaming = true := by
  by_cases hk : p.kind = .fin
  · right
    have hs : k.state.streaming = true := by rcases hp with h | h | h | h | h | ⟨_, hs⟩ <;> simp_all
    refine ⟨hs, ?_⟩
    simp only [complete, completeNew, hk]
    split_ifs <;> first | rfl | exact hs
  · exact .inl (k.complete_state p due hk)

lemma Move.closed (hm : Move e k k') (he : e ≠ .opened) (hs : k.Sound) (hc : k.state = .closed) : k'.state = .closed := by
  cases hm with
  | activeOpen | passiveOpen | rearm => exact absurd rfl he
  | terminate | expire => rfl
  | read | plan | refuse => exact hc
  | transmit due hp =>
    rw [complete_state]
    · exact hc
    · intro hk
      rcases hs.plan hp with h | h | h | h | h | ⟨_, ht⟩ <;> simp_all [streaming]
  | _ => simp_all [streaming]

lemma Block.acknowledge_fixed (k : Block cap) (ack : U32) (due : ℕ) :
    (k.acknowledge ack due).snd.writeShutdown = k.snd.writeShutdown ∧ (k.acknowledge ack due).snd.iss = k.snd.iss := by
  unfold Block.acknowledge Block.enter
  split_ifs <;> exact ⟨rfl, rfl⟩

lemma Move.writeShutdown_cases (hm : Move e k k') (he : e ≠ .opened) :
    k'.snd.writeShutdown = k.snd.writeShutdown ∧ e ≠ .shut ∨ e = .shut ∧ k'.snd.writeShutdown = true ∧ k.state ≠ .closed ∨
      e = .ended ∧ k'.state = .closed ∧ k'.snd.writeShutdown = true ∨
      e = .ended ∧ k.state = .synReceived ∧ k'.snd.writeShutdown = false := by
  cases hm with
  | activeOpen | passiveOpen | rearm => exact absurd rfl he
  | connect seq mss due | handshake due | acknowledge ack due => exact .inl ⟨(Block.acknowledge_fixed _ _ due).1, by simp⟩
  | consume seg =>
    refine .inl ⟨?_, by simp⟩
    rcases k.consume_snd seg with ⟨_, hn⟩ | ⟨_, hn⟩ <;> rw [hn]
    split <;> rfl
  | transmit due => exact .inl ⟨(complete_snd _ k.plan due).2.2.1, by simp⟩
  | terminate => exact .inr (.inr (.inl ⟨rfl, rfl, rfl⟩))
  | relisten _ hs => exact .inr (.inr (.inr ⟨rfl, hs, rfl⟩))
  | shutdown _ hs => exact .inr (.inl ⟨rfl, rfl, by rintro hc; simp [hc] at hs⟩)
  | _ => exact .inl ⟨rfl, by simp⟩

namespace Connection

variable {σ : Type} {c : Connection cap σ}

variable {next p : Plan}

lemma head_planned (h : c.head next = some p) (hg : 0 < c.segment)
    (hk : next.kind = .retry ∧ c.snd.rtx.active = true ∨ next.kind = .fast ∧ c.state.streaming = true)
    (hs : c.state.opening = false) (hq : next.fields.sequence = c.snd.sndUna) (hp : next.payload = 0) :
    p.active = next.active ∧ Planned c.state c.snd p := by
  unfold head at h
  dsimp only at h
  split_ifs at h with hd hf <;> cases h
  · refine ⟨rfl, .head hk hs hq rfl hd rfl ?_⟩
    dsimp only
    omega
  refine ⟨rfl, .headFin hk hs hq rfl hp hf ?_⟩
  have hm : (c.snd.sndMax - c.snd.sndUna).toNat = 0 → c.snd.sndMax = c.snd.sndUna := by
    intro h0
    rw [← offset_distance c.snd.sndUna c.snd.sndMax, h0, offset_zero]
  by_cases h0 : (c.snd.sndMax - c.snd.sndUna).toNat = 0
  · exact .inr (hm h0)
  · left
    omega

lemma sending_streaming (h : c.sending = true) : c.state.streaming = true := by
  cases hc : c.state <;> simp_all [sending, streaming]

lemma segment_pos (hm : 0 < c.peerMss) : 0 < c.segment := Nat.lt_min.mpr ⟨cap.segment_pos, hm⟩

lemma synFlags_cases : c.synFlags = tcpSyn ∨ c.synFlags = tcpSyn ||| tcpAck := by
  unfold synFlags
  split <;> simp

variable [CongestionControl σ]

lemma sendNext_eq (c : Connection cap σ) (next : Plan) (now : ℕ) :
    ∃ due, (c.sendNext next now).2 = { c with persistDeadline := due } := by
  unfold sendNext
  dsimp only
  split_ifs <;> exact ⟨_, rfl⟩

lemma sendNext_planned {now : ℕ} (h : (c.sendNext next now).1 = some p)
    (hs : c.state.streaming = true) (hg : 0 < c.segment) (hp : next.payload = 0) :
    p.active = next.active ∧ Planned c.state c.snd p := by
  unfold sendNext at h
  dsimp only at h
  split_ifs at h with h1 h2 _ _ h3 <;> cases h
  · simp only [ne_eq, decide_not, Bool.and_eq_true, Bool.not_eq_true', decide_eq_false_iff_not] at h1
    refine ⟨rfl, .data (.inl rfl) hs rfl rfl rfl ?_ ?_⟩ <;>
      dsimp only <;> omega
  · simp only [ne_eq, decide_not, Bool.and_eq_true, Bool.not_eq_true', decide_eq_false_iff_not] at h2
    refine ⟨rfl, .data (.inr rfl) hs rfl rfl rfl ?_ ?_⟩ <;>
      dsimp only <;> omega
  · simp only [Bool.and_eq_true, beq_iff_eq, Bool.not_eq_true', decide_eq_true_eq] at h3
    exact ⟨rfl, .fin rfl hs rfl rfl hp h3.1.1.1.2 h3.2 h3.1.2⟩

lemma select_eq (now : ℕ) : ∃ due head, (c.select now).2 = { c with persistDeadline := due, retransmitHead := head } := by
  obtain ⟨due, hn⟩ := c.sendNext_eq { active := true, destination := c.peer } now
  unfold select
  by_cases h1 : c.resetPending = true
  · rw [if_pos h1]
    exact ⟨_, _, rfl⟩
  rw [if_neg h1]
  by_cases h2 : c.pendingSyn = true
  · rw [if_pos h2]
    exact ⟨_, _, rfl⟩
  split_ifs
  · exact ⟨_, _, rfl⟩
  · exact ⟨_, _, rfl⟩
  · split <;> exact ⟨_, _, rfl⟩
  · split
    · next h => rw [h] at hn; exact ⟨due, _, hn⟩
    next h =>
    rw [h] at hn
    split_ifs <;> exact ⟨due, _, hn⟩
  · dsimp only
    split_ifs <;> exact ⟨_, _, rfl⟩

lemma select_toBlock (now : ℕ) : (c.select now).2.toBlock = c.toBlock := by
  obtain ⟨_, _, h⟩ := c.select_eq now
  rw [h]

lemma select_planned {now : ℕ} (h : (c.select now).1 = some p) (hs : c.Sound) :
    p.active = true ∧ Planned c.state c.snd p := by
  have hg := segment_pos hs.mss
  unfold select at h
  by_cases h1 : c.resetPending = true
  · rw [if_pos h1] at h
    cases h
    exact ⟨rfl, .other (.inl rfl) (.inl rfl) rfl⟩
  rw [if_neg h1] at h
  by_cases h2 : c.pendingSyn = true
  · rw [if_pos h2] at h
    cases h
    refine ⟨rfl, .syn ?_ (hs.syn h2) (.inl rfl) c.synFlags_cases rfl ?_⟩
    · split <;> simp
    · split <;> simp_all
  split_ifs at h with h3 h4 h5 h6
  · cases h
    refine ⟨rfl, .syn (.inr rfl) ?_ (.inr rfl) c.synFlags_cases rfl fun _ => ?_⟩
    · simp only [Bool.or_eq_true, beq_iff_eq] at h4
      rcases h4 with h4 | h4 <;> simp [h4, opening]
    · simp only [Bool.and_eq_true] at h3
      exact h3.1
  · simp only [Bool.and_eq_true] at h3
    refine head_planned h hg (.inl ⟨rfl, h3.1⟩) ?_ rfl rfl
    cases hc : c.state <;> simp_all [opening]
  · simp only [Bool.and_eq_true] at h5
    have ht := sending_streaming h5.2
    split at h <;> cases h
    next hh => exact head_planned hh hg (.inr ⟨rfl, ht⟩) (opening_eq_false (.inl ht)) rfl rfl
  · split at h
    · next hh =>
      cases h
      have hn := congrArg Prod.fst hh
      exact sendNext_planned hn (sending_streaming h6) hg rfl
    split_ifs at h
    cases h
    exact ⟨rfl, .other (.inr rfl) (.inr rfl) rfl⟩
  dsimp only at h
  split_ifs at h
  cases h
  exact ⟨rfl, .other (.inr rfl) (.inr rfl) rfl⟩

def Describes (k : Block cap) (p : PreparedPacket) : Prop :=
  k.plan.active = true ∧ p.packet.tcp.fields = k.plan.fields ∧
    p.packet.tcp.payload = k.snd.tx.slice (k.snd.txHead + k.plan.offset) k.plan.payload

omit [CongestionControl σ] in
lemma buildPacket_tcp {plan : Plan} {size length : ℕ} {d : Datagram}
    (h : c.buildPacket plan size = .ok (length, d)) :
    d.tcp.fields = c.finishFields plan ∧ d.tcp.payload = c.snd.tx.slice (c.snd.txHead + plan.offset) plan.payload := by
  have hd := buildTcp_packet h
  subst hd
  exact ⟨rfl, rfl⟩

lemma prepare_cases (c : Connection cap σ) (size now : ℕ) :
    (∃ due head, (c.prepare size now).2 = { (c.tick now).2 with persistDeadline := due, retransmitHead := head }) ∧
        (∀ p, (c.prepare size now).1 ≠ .ok (some p)) ∨
      ∃ t t' plan length packet, c.tick now = (.ok (), t) ∧ t.nextToken ≠ u64Max ∧ t.select now = (some plan, t') ∧
        t'.buildPacket plan size = .ok (length, packet) ∧
        c.prepare size now = (.ok (some ⟨length, t'.nextToken + 1, packet⟩), { t' with
          nextToken := t'.nextToken + 1
          plan := { plan with token := t'.nextToken + 1, fields := t'.finishFields plan } }) := by
  unfold prepare
  by_cases hp : c.plan.active = true
  · rw [if_pos hp, tick, if_pos hp]
    exact .inl ⟨⟨_, _, rfl⟩, by simp⟩
  rw [if_neg hp]
  rcases c.tick now with ⟨_ | _, t⟩
  · exact .inl ⟨⟨_, _, rfl⟩, by simp⟩
  dsimp only
  split_ifs with hn
  · exact .inl ⟨⟨_, _, rfl⟩, by simp⟩
  obtain ⟨due, head, he⟩ := t.select_eq now
  rcases hs : t.select now with ⟨_ | plan, t'⟩ <;> rw [hs] at he <;> dsimp only at he ⊢
  · exact .inl ⟨⟨due, head, he⟩, by simp⟩
  rcases hb : t'.buildPacket plan size with _ | ⟨length, packet⟩
  · exact .inl ⟨⟨due, head, he⟩, by simp⟩
  · exact .inr ⟨t, t', plan, length, packet, rfl, hn, hs, hb, rfl⟩

lemma prepare_refines (hs : c.Sound) (size now : ℕ) : ∃ es, Moves es c.toBlock (c.prepare size now).2.toBlock ∧
      (∀ e ∈ es, e = .ended ∨ e = .planned) ∧
      ∀ p, (c.prepare size now).1 = .ok (some p) → Describes (c.prepare size now).2.toBlock p := by
  by_cases ha : c.plan.active = true
  · rw [prepare, if_pos ha]
    exact ⟨[], .nil _, by simp, by simp⟩
  obtain ⟨es, hm, he, hp⟩ := tick_ends now (c := c) (by simpa using ha)
  have he' : ∀ e ∈ es, e = .ended ∨ e = .planned := fun e h => .inl (he e h)
  rcases c.prepare_cases size now with ⟨⟨due, head, hb⟩, hne⟩ | ⟨t, t', plan, length, packet, ht, -, hc, hb, hq⟩
  · exact ⟨es, by rw [hb]; exact hm, he', fun p h => absurd h (hne p)⟩
  rw [ht] at hm hp
  rw [hq]
  have hd := t.select_toBlock now
  rw [hc] at hd
  obtain ⟨hact, hplan⟩ := select_planned (congrArg Prod.fst hc) (hm.sound hs)
  obtain ⟨hf, hx⟩ := buildPacket_tcp hb
  refine ⟨es ++ [.planned], hm.append (.single ?_), List.forall_mem_append.mpr ⟨he', by simp⟩, ?_⟩
  · rw [← hd] at hp hplan ⊢
    exact .plan _ hp hact (hplan.finish rfl rfl rfl rfl rfl)
  intro p h
  cases h
  exact ⟨hact, hf, hx⟩

end Connection

end ObfuscationKernel.Net.Tcp
