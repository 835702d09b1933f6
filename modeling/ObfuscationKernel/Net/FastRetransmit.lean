import ObfuscationKernel.Net.ZeroWindow

/-! Fast retransmit over runs of any length: SND.UNA and the recovery point as positions that do not wrap,
and the duplicate ACKs that start recovery. -/

namespace ObfuscationKernel.Net.Tcp

open ObfuscationKernel.Core Library Library.Serial Wire Connection State

variable {cap : Capacities} {σ : Type}

structure Loss where
  iss : U32
  una : U32
  recover : U32
  recovery : Bool
  dupacks : ℕ

namespace Connection

def loss (c : Connection cap σ) : Loss := ⟨c.snd.iss, c.snd.sndUna, c.recover, c.recovery, c.dupacks⟩

variable [CongestionControl σ]

def timesOut (c : Connection cap σ) (op : Op) : Bool := c.transmits .retry op && !c.plan.fields.has tcpSyn

def entersRecovery (c : Connection cap σ) (op : Op) : Bool := !c.recovery && (op.run c).2.recovery

inductive Shift (c : Connection cap σ) (l : Loss) : Prop
  | still : l = c.loss → Shift c l
  | acked (ack : U32) (r : Bool) : ack ≠ c.snd.sndUna → (r = true → c.recovery = true) →
      l = { c.loss with una := ack, dupacks := 0, recovery := r } → Shift c l
  | duplicate : l = c.duplicateAck.loss → Shift c l

variable {c d : Connection cap σ}

omit [CongestionControl σ] in
lemma loss_of_timing (h : d.timing = c.timing) : d.loss = c.loss := by
  simp only [timing, Timing.mk.injEq] at h
  simp only [loss, h]

lemma duplicateAck_loss {r : ℕ} (h : d.timing = { c.timing with rto := r }) : d.duplicateAck.loss = c.duplicateAck.loss := by
  simp only [timing, Timing.mk.injEq] at h
  unfold duplicateAck
  simp only [h]
  split_ifs <;> simp [loss, h]

lemma acknowledge_loss (ack : U32) (now : ℕ) : c.acknowledge ack now = c ∨
    ack ≠ c.snd.sndUna ∧ ∃ r : Bool, (r = true → c.recovery = true) ∧
      (c.acknowledge ack now).loss = { c.loss with una := ack, dupacks := 0, recovery := r } := by
  rcases c.acknowledge_cases ack now with h | ⟨hn, r, snd, h, -, hu, hi, -⟩
  · exact .inl h
  simp only [timing, Timing.mk.injEq] at h
  exact .inr ⟨hn, c.recovery && before ack c.recover, fun h => ((Bool.and_eq_true _ _).mp h).1, by simp [loss, h, hu, hi]⟩

lemma Deeds.shift (h : c.Deeds d) : c.Shift d.loss := by
  induction h with
  | refl => exact .still rfl
  | @touch a b _ ht ih => rwa [loss_of_timing ht]
  | @acknowledge a ack now _ ht ih =>
    have he := loss_of_timing ht
    simp only [timing, Timing.mk.injEq] at ht
    rcases a.acknowledge_loss ack now with h | ⟨hn, r, hr, hk⟩
    · rwa [h]
    rw [hk, he]
    refine .acked ack r ?_ (fun h => ?_) rfl
    · rwa [← ht.1]
    · rw [← ht.2.2.2.2.1]
      exact hr h
  | @duplicateAck a r _ ht _ =>
    rw [duplicateAck_loss ht]
    exact .duplicate rfl
  | _ => assumption

lemma completeTransmit_loss (token : ℕ) (accepted : Bool) (now : ℕ) : (c.completeTransmit token accepted now).2.loss =
      if c.timesOut (.completeTransmit token accepted now) then
        { c.loss with recover := c.snd.sndMax, recovery := false, dupacks := 0 }
      else c.loss := by
  have hk : ¬ (c.plan.active = true ∧ c.plan.token = token ∧ c.lastNow ≤ now) ∨ accepted = false ∨
      c.plan.kind ≠ .retry → c.timesOut (.completeTransmit token accepted now) = false := by
    intro h
    simp [timesOut, transmits_eq_false h]
  rcases c.completeTransmit_effect token accepted now with ⟨h, -, hn⟩ | ⟨hp, hq, hl, h⟩
  · rw [h, hk (.inl hn)]
    rfl
  generalize he : (c.completeTransmit token accepted now).2.timing = t at h
  have hd : (c.completeTransmit token accepted now).2.loss =
      ⟨t.snd.iss, t.snd.sndUna, t.recover, t.recovery, t.dupacks⟩ := by
    rw [← he]
    rfl
  rw [hd]
  cases h with
  | retrySyn due hr hacc hf =>
    rw [if_neg (by simp [timesOut, hf])]
    rfl
  | retry due hr hacc hf =>
    subst hacc
    rw [if_pos (by simp [timesOut, transmits, hp, hq, hl, hr, hf])]
    rfl
  | refused hacc =>
    rw [hk (.inr (.inl hacc))]
    rfl
  | reset hr | ack hr | fast hr =>
    rw [hk (.inr (.inr (by simp [hr])))]
    rfl
  | syn due hr =>
    rw [hk (.inr (.inr (by simp [hr])))]
    unfold Block.completeSyn
    by_cases hm : (c.snd.sndMax == c.snd.iss) = true
    · rw [if_pos hm, Sender.arm_eq]
      rfl
    · rw [if_neg hm]
      rfl
  | new due hr =>
  rw [hk (.inr (.inr (by rcases hr with h | h | h <;> simp [h])))]
  unfold Block.completeNew
  rw [Sender.arm_eq]
  rfl

lemma run_shift (op : Op) : (((op.run c).2.state.opening = true ∨ (op.run c).2.state = .listen) ∧
      (op.run c).2.snd.sndUna = (op.run c).2.snd.iss ∧ (op.run c).2.recover = (op.run c).2.snd.iss) ∨
      (c.timesOut op = true ∧ (op.run c).2.loss = { c.loss with recover := c.snd.sndMax, recovery := false, dupacks := 0 }) ∨
      (c.timesOut op = false ∧ c.Shift (op.run c).2.loss) := by
  have hl : ∀ now, (({ c with lastNow := now } : Connection cap σ).returnToListen.state.opening = true ∨
      ({ c with lastNow := now } : Connection cap σ).returnToListen.state = .listen) :=
    fun now => .inr rfl
  have ht : ∀ now, (c.tick now).2.loss = c.loss ∨
      (c.tick now).2 = ({ c with lastNow := now } : Connection cap σ).returnToListen := by
    intro now
    rcases c.tick_timing now with ⟨r, h, -⟩ | ⟨-, h⟩ | h
    · simp only [timing, Timing.mk.injEq] at h
      exact .inl (by simp [loss, h])
    · exact .inr h
    · simp only [timing, Timing.mk.injEq] at h
      exact .inl (by simp [loss, h, terminate, Block.terminate])
  cases op with
  | activeOpen here peer iss now =>
    simp only [Op.run, activeOpen]
    split_ifs
    all_goals first | exact .inr (.inr ⟨rfl, .still rfl⟩) | exact .inl ⟨.inl rfl, rfl, rfl⟩
  | passiveOpen here iss now =>
    simp only [Op.run, passiveOpen]
    split_ifs
    all_goals first | exact .inr (.inr ⟨rfl, .still rfl⟩) | exact .inl ⟨.inr rfl, rfl, rfl⟩
  | rearmListener iss now =>
    simp only [Op.run, rearmListener]
    split_ifs with h
    iterate 2 exact .inr (.inr ⟨rfl, .still rfl⟩)
    refine .inl ⟨.inr ?_, rfl, rfl⟩
    simp only [Bool.or_eq_true, not_or, bne_iff_ne, ne_eq, not_not] at h
    exact h.1.1.2
  | abort =>
    simp only [Op.run, abort]
    split_ifs <;> exact .inr (.inr ⟨rfl, .still rfl⟩)
  | write input =>
    simp only [Op.run, write]
    split_ifs <;> exact .inr (.inr ⟨rfl, .still rfl⟩)
  | peek size => exact .inr (.inr ⟨rfl, .still rfl⟩)
  | read size =>
    simp only [Op.run, read]
    split_ifs <;> exact .inr (.inr ⟨rfl, .still rfl⟩)
  | shutdownWrite =>
    simp only [Op.run, shutdownWrite]
    split_ifs <;> exact .inr (.inr ⟨rfl, .still rfl⟩)
  | receive packet now =>
    rcases c.receive_deeds packet now with h | ⟨-, h⟩
    · exact .inr (.inr ⟨rfl, h.shift⟩)
    · rw [show (Op.run c (.receive packet now)).2 = _ from h]
      exact .inl ⟨hl now, rfl, rfl⟩
  | tick now =>
    rcases ht now with h | h
    · exact .inr (.inr ⟨rfl, .still h⟩)
    · rw [show (Op.run c (.tick now)).2 = _ from h]
      exact .inl ⟨hl now, rfl, rfl⟩
  | prepare size now =>
    obtain ⟨q, head, n, he, hs, -⟩ := c.prepare_timing size now
    simp only [timing, Timing.mk.injEq] at he
    rcases ht now with h | h
    · refine .inr (.inr ⟨rfl, .still ?_⟩)
      rw [← h]
      simp [Op.run, loss, he]
    rw [h] at he hs
    simp only [Op.run, Prod.map_snd, id, hs, he]
    exact .inl ⟨hl now, rfl, rfl⟩
  | completeTransmit token accepted now =>
  have h := c.completeTransmit_loss token accepted now
  split_ifs at h with hx
  · exact .inr (.inl ⟨hx, h⟩)
  · exact .inr (.inr ⟨by simpa using hx, .still h⟩)

lemma duplicateAck_cases (c : Connection cap σ) : (c.duplicateAck.loss = { c.loss with dupacks := c.duplicateAck.dupacks } ∧
      (c.recovery = false → c.duplicateAck.dupacks = fastRetransmitThreshold → after c.snd.sndUna c.recover = false)) ∨
      c.recovery = false ∧ after c.snd.sndUna c.recover = true ∧ c.duplicateAck.retransmitHead = true ∧ c.duplicateAck.loss =
          { c.loss with recover := c.snd.sndMax, recovery := true, dupacks := c.duplicateAck.dupacks } := by
  unfold duplicateAck
  dsimp only
  split_ifs with h1 h2 <;> simp_all [loss]

lemma duplicateAck_dupacks (c : Connection cap σ) :
    c.duplicateAck.dupacks = if c.dupacks ≠ 0xff then c.dupacks + 1 else c.dupacks := by
  unfold duplicateAck
  dsimp only
  split_ifs <;> rfl

lemma run_recover (op : Op) : (((op.run c).2.state.opening = true ∨ (op.run c).2.state = .listen) ∧
      (op.run c).2.snd.sndUna = (op.run c).2.snd.iss ∧ (op.run c).2.recover = (op.run c).2.snd.iss) ∨
      (op.run c).2.snd.iss = c.snd.iss ∧
        (op.run c).2.recover = if c.timesOut op || c.entersRecovery op then c.snd.sndMax else c.recover := by
  unfold entersRecovery
  rcases c.run_shift op with h | ⟨hx, h⟩ | ⟨hx, h⟩
  · exact .inl h
  · right
    simp only [loss, Loss.mk.injEq] at h
    simp [hx, h]
  right
  rw [hx]
  generalize hd : (op.run c).2.loss = l at h
  cases h with
  | still h =>
    rw [h] at hd
    simp only [loss, Loss.mk.injEq] at hd
    simp [hd]
  | acked ack r hn hr h =>
    rw [h] at hd
    simp only [loss, Loss.mk.injEq] at hd
    refine ⟨hd.1, ?_⟩
    cases hc : c.recovery <;> cases r <;> simp_all
  | duplicate h =>
  rcases c.duplicateAck_cases with ⟨he, -⟩ | ⟨hc, -, -, he⟩ <;>
    rw [h, he] at hd <;> simp only [Loss.mk.injEq, loss] at hd
  · refine ⟨hd.1, ?_⟩
    rw [hd.2.2.2.1, hd.2.2.1]
    simp
  refine ⟨hd.1, ?_⟩
  rw [hd.2.2.2.1, hd.2.2.1, hc]
  rfl

end Connection

variable [CongestionControl σ] {c : Connection cap σ} {h : History} {op : Op}

/-- Positions of the sequence space that do not wrap, counted from the initial sequence number: SND.UNA, and the
SND.MAX recorded by the last loss event (zero if there was none). -/
structure Track where
  una : ℕ := 0
  mark : ℕ := 0
deriving DecidableEq

/-- Each step moves the position of SND.UNA by the distance SND.UNA moved; while a handshake has nothing
acknowledged and no loss event behind it, both positions are zero. -/
def Track.after (t : Track) (c : Connection cap σ) (op : Op) : Track :=
  let d := (op.run c).2
  if (d.state.opening || d.state == .listen) && d.snd.sndUna == d.snd.iss && d.recover == d.snd.iss then {}
  else
    { una := t.una + (d.snd.sndUna - c.snd.sndUna).toNat
      mark :=
        if c.timesOut op || c.entersRecovery op then t.una + (c.snd.sndMax - c.snd.sndUna).toNat else t.mark }

inductive Tracked : Connection cap σ → History → Track → Prop
  | fresh : Tracked .fresh {} {}
  | step {c h t} (op : Op) : Tracked c h t →
      Tracked (op.run c).2 (h.after c.toBlock op (op.run c).1) (t.after c op)

variable {t : Track} {d : Connection cap σ}

lemma Tracked.reachable (ht : Tracked c h t) : Reachable c h := by
  induction ht with
  | fresh => exact .fresh
  | step op _ ih => exact ih.step op

lemma Tracked.positions (ht : Tracked c h t) :
    c.snd.sndUna = offset c.snd.iss t.una ∧ c.recover = offset c.snd.iss t.mark := by
  induction ht with
  | fresh => exact ⟨rfl, rfl⟩
  | @step c h t op _ ih =>
  obtain ⟨hu, hm⟩ := ih
  unfold Track.after
  dsimp only
  split_ifs with h1 h2
  · simp only [Bool.and_eq_true, beq_iff_eq] at h1
    exact ⟨by simpa using h1.1.2, by simpa using h1.2⟩
  all_goals
    have hn := (c.run_recover op).resolve_left fun hx => h1 (by
      rcases hx.1 with ho | ho <;> simp [ho, hx.2.1, hx.2.2])
    refine ⟨?_, ?_⟩
    · rw [hn.1, ← offset_add, ← hu, offset_distance]
  · rw [hn.1, hn.2, if_pos h2, ← offset_add, ← hu, offset_distance]
  · rw [hn.1, hn.2, if_neg h2, hm]

lemma Reachable.dupacks (hr : Reachable c h) (hn : c.recovery = false) (hd : fastRetransmitThreshold ≤ c.dupacks) :
    after c.snd.sndUna c.recover = false := by
  induction hr with
  | fresh => simp [fastRetransmitThreshold, Connection.fresh] at hd
  | @step c h op _ ih =>
  rcases c.run_shift op with ⟨-, h1, h2⟩ | ⟨-, h⟩ | ⟨-, h⟩
  · rw [h1, h2]
    simp [after, before]
  · simp only [loss, Loss.mk.injEq] at h
    simp [fastRetransmitThreshold, h] at hd
  generalize hl : (op.run c).2.loss = l at h
  cases h with
  | still h =>
    rw [h] at hl
    simp only [loss, Loss.mk.injEq] at hl
    rw [hl.2.1, hl.2.2.1]
    exact ih (hl.2.2.2.1 ▸ hn) (hl.2.2.2.2 ▸ hd)
  | acked ack r _ _ h =>
    rw [h] at hl
    simp only [loss, Loss.mk.injEq] at hl
    simp [fastRetransmitThreshold, hl] at hd
  | duplicate h =>
  rcases c.duplicateAck_cases with ⟨he, hx⟩ | ⟨-, -, -, he⟩ <;>
    rw [h, he] at hl <;> simp only [loss, Loss.mk.injEq] at hl
  · rw [hl.2.1, hl.2.2.1]
    have hc := hl.2.2.2.1 ▸ hn
    by_cases h3 : fastRetransmitThreshold ≤ c.dupacks
    · exact ih hc h3
    refine hx hc ?_
    have hk := c.duplicateAck_dupacks
    split_ifs at hk <;> omega
  · rw [hl.2.2.2.1] at hn
    cases hn

namespace Connection

structure PureAck (c : Connection cap σ) (d : Datagram) (now : ℕ) : Prop where
  idle : c.plan.active = false
  clock : c.lastNow ≤ now
  here : d.destination = c.localEndpoint.address ∧ d.tcp.fields.destinationPort = c.localEndpoint.port
  peer : (⟨d.source, d.tcp.fields.sourcePort⟩ : Endpoint) = c.peer
  valid : c.peer.valid = true
  streaming : c.state.streaming = true
  bare : d.tcp.fields.has tcpUrg = false ∧ d.tcp.fields.has tcpRst = false ∧ d.tcp.fields.has tcpSyn = false ∧
    d.tcp.fields.has tcpFin = false
  ack : d.tcp.fields.has tcpAck = true
  empty : d.tcp.payload = []
  acceptable : c.rcv.acceptable d.tcp.fields.sequence (segmentLength d.tcp) = true
  window : between d.tcp.fields.acknowledgment (c.snd.sndUna - 65535) c.snd.sndMax = true

omit [CongestionControl σ] in
lemma consume_empty {seg : Wire.Tcp} {now : ℕ} (hp : seg.payload = []) (hf : seg.fields.has tcpFin = false) :
    c.consume seg now = c := by
  have hk : c.toBlock.consume seg = c.toBlock := by
    unfold Block.consume
    simp [hp, hf]
  unfold consume
  simp only [hk, hp, hf]
  cases hc : c.state <;> simp

lemma ingressData_bare {seg : Wire.Tcp} {una : U32} {window now : ℕ} (hp : seg.payload = [])
    (hf : seg.fields.has tcpFin = false) (hs : c.state ≠ .closed) :
    (c.ingressData una window seg now).2 = (c.updateWindow seg.fields).noteDuplicate una window seg := by
  unfold ingressData
  rw [if_neg (by simpa using hs)]
  split_ifs
  · rfl
  · exact consume_empty hp hf

lemma PureAck.receive {d : Datagram} {now : ℕ} (h : c.PureAck d now) : (c.receive (.ok d) now).2 =
      let r : Connection cap σ :=
        if after d.tcp.fields.acknowledgment c.snd.sndUna then
          ({ c with lastNow := now }).acknowledge d.tcp.fields.acknowledgment now
        else { c with lastNow := now }
      (r.ingressData c.snd.sndUna c.peerWindow d.tcp now).2 := by
  obtain ⟨hu, hr, hy, hf⟩ := h.bare
  have hport : d.tcp.fields.sourcePort ≠ 0 := by
    have hv := h.valid
    rw [← h.peer] at hv
    simp only [Endpoint.valid, Bool.and_eq_true, bne_iff_ne] at hv
    exact hv.1
  have hstate := h.streaming
  have hne : ∀ s : State, s.streaming = false → (c.state == s) = false := by
    intro s hs
    rw [beq_eq_false_iff_ne]
    rintro rfl
    rw [hstate] at hs
    cases hs
  have hack : (!d.tcp.fields.has tcpAck) = false := by simp [h.ack]
  unfold Connection.receive
  rw [if_neg (by simp [h.idle]), if_neg (not_lt.mpr h.clock)]
  dsimp only
  unfold ingress
  rw [if_neg (by simp [h.here.1, h.here.2, hport]), if_neg (by simp [h.peer, h.valid])]
  unfold ingressState
  rw [if_neg (by simp [hne .closed rfl]), if_neg (by simp [hne .timeWait rfl]), if_neg (by simp [hu]),
    if_neg (by simp [hne .listen rfl]), if_neg (by simp [hne .synSent rfl]), if_neg (by simp [hne .timeWait rfl]),
    if_neg (by simp [hne .synReceived rfl]), if_neg (by simp [hne .synReceived rfl])]
  unfold ingressSynchronized
  rw [if_neg (by simp [h.acceptable]), if_neg (by simp [hr]), if_neg (by simp [hy])]
  unfold ingressAck
  rw [if_neg (by simp [hack]), if_neg (by rw [h.window]; decide), if_neg (by simp [hne .synReceived rfl])]
  split_ifs <;> rfl

def duplicates (c : Connection cap σ) : Op → Bool
  | .receive (.ok d) now =>
    let f := d.tcp.fields
    !c.plan.active && decide (c.lastNow ≤ now) && d.destination == c.localEndpoint.address &&
      f.destinationPort == c.localEndpoint.port && (⟨d.source, f.sourcePort⟩ : Endpoint) == c.peer && c.peer.valid &&
      c.state.streaming && f.has tcpAck && !f.has tcpUrg && !f.has tcpRst && !f.has tcpSyn && !f.has tcpFin &&
      d.tcp.payload.isEmpty && c.rcv.acceptable f.sequence (segmentLength d.tcp) &&
      f.acknowledgment == c.snd.sndUna && f.window == c.peerWindow && after c.snd.sndMax c.snd.sndUna &&
      c.snd.sentData != 0
  | _ => false

omit [CongestionControl σ] in
lemma between_of_le {una max ack : U32} (hm : (max - una).toNat ≤ 65536)
    (ha : (ack - una).toNat ≤ (max - una).toNat) : between ack (una - 65535) max = true := by
  have h1 : max - (una - 65535) = max - una + 65535 := by abel
  have h2 : ack - (una - 65535) = ack - una + 65535 := by abel
  have h3 : (65535 : U32).toNat = 65535 := rfl
  unfold between
  rw [h1, h2, BitVec.toNat_add, BitVec.toNat_add, h3, Nat.mod_eq_of_lt (by omega), Nat.mod_eq_of_lt (by omega)]
  simp only [Bool.and_eq_true, decide_eq_true_eq]
  omega

end Connection

lemma Reachable.flight (hr : Reachable c h) (hs : c.state ≠ .closed) : (c.snd.sndMax - c.snd.sndUna).toNat ≤ 65536 := by
  obtain ⟨u, v, m, hk⟩ := hr.sender.sends hs
  obtain ⟨hu, hv, hm, hz⟩ := hk.bounds cap.send_le
  rw [hk.max_eq, hk.una_eq, distance _ (hu.trans hv) (by omega)]
  omega

namespace Connection

omit [CongestionControl σ] in
lemma has_or {f : TcpFields} {a b : UInt8} (ha : f.has a = false) (hb : f.has b = false) : f.has (a ||| b) = false := by
  simp only [TcpFields.has, bne_eq_false_iff_eq, ← UInt8.toBitVec_inj, UInt8.toBitVec_and, UInt8.toBitVec_or] at *
  rw [BitVec.and_or_distrib_left, ha, hb]
  rfl

lemma duplicates_pureAck (hr : Reachable c h) (hd : c.duplicates op = true) :
    ∃ d now, op = .receive (.ok d) now ∧ c.PureAck d now ∧ d.tcp.fields.acknowledgment = c.snd.sndUna ∧
      d.tcp.fields.window = c.peerWindow ∧ after c.snd.sndMax c.snd.sndUna = true ∧ c.snd.sentData ≠ 0 := by
  cases op with
  | receive packet now =>
    cases packet with
    | error status => cases hd
    | ok d =>
    simp only [duplicates, Bool.and_eq_true, Bool.not_eq_true', decide_eq_true_eq, beq_iff_eq, bne_iff_ne,
      List.isEmpty_iff] at hd
    obtain ⟨⟨⟨⟨⟨⟨⟨⟨⟨⟨⟨⟨⟨⟨⟨⟨⟨h1, h2⟩, h3⟩, h4⟩, h5⟩, h6⟩, h7⟩, h8⟩, h9⟩, h10⟩, h11⟩, h12⟩, h13⟩, h14⟩, h15⟩, h16⟩,
      h17⟩, h18⟩ := hd
    have hc : c.state ≠ .closed := by
      intro hc
      simp [hc, streaming] at h7
    refine ⟨d, now, rfl, ⟨h1, h2, ⟨h3, h4⟩, h5, h6, h7, ⟨h9, h10, h11, h12⟩, h8, h13, h14, ?_⟩, h15, h16, h17, h18⟩
    rw [h15]
    exact between_of_le (hr.flight hc) (by simp)
  | _ => cases hd

lemma run_duplicate (hr : Reachable c h) (hd : c.duplicates op = true) :
    (op.run c).2.loss = c.duplicateAck.loss ∧ (op.run c).2.retransmitHead = c.duplicateAck.retransmitHead ∧
      (op.run c).2.toBlock = c.toBlock := by
  obtain ⟨d, now, rfl, hp, ha, hw, hx, hz⟩ := duplicates_pureAck hr hd
  have hc : c.state ≠ .closed := by
    intro hc
    have := hp.streaming
    simp [hc, streaming] at this
  have hn : ¬ after d.tcp.fields.acknowledgment c.snd.sndUna = true := by
    rw [ha]
    simp [after, before]
  have he := hp.receive
  rw [if_neg hn] at he
  simp only [Op.run, Prod.map_snd, id, he]
  have hb : (({ c with lastNow := now } : Connection cap σ).ingressData c.snd.sndUna c.peerWindow d.tcp now).2 =
      (({ c with lastNow := now } : Connection cap σ).updateWindow d.tcp.fields).noteDuplicate c.snd.sndUna
        c.peerWindow d.tcp := ingressData_bare hp.empty hp.bare.2.2.2 hc
  have ht := ({ c with lastNow := now } : Connection cap σ).updateWindow_timing d.tcp.fields
  have hk := ({ c with lastNow := now } : Connection cap σ).updateWindow_toBlock d.tcp.fields
  have hsf := has_or hp.bare.2.2.1 hp.bare.2.2.2
  rw [hb]
  generalize ({ c with lastNow := now } : Connection cap σ).updateWindow d.tcp.fields = e at ht hk
  have hs : e.snd = c.snd := congrArg Timing.snd ht
  have hq : e.noteDuplicate c.snd.sndUna c.peerWindow d.tcp = e.duplicateAck := by
    exact if_pos (by simp [ha, hs, hp.empty, hsf, hw, hx, hz])
  rw [hq]
  refine ⟨duplicateAck_loss (r := c.rto) ht, ?_, ?_⟩
  · simp only [timing, Timing.mk.injEq] at ht
    unfold duplicateAck
    simp only [ht]
    split_ifs <;> rfl
  · rw [duplicateAck_toBlock, hk]

end Connection

def Connection.duplicateCount : Connection cap σ → List Op → ℕ
  | _, [] => 0
  | c, op :: ops => (if c.duplicates op then 1 else 0) + duplicateCount (op.run c).2 ops

def Connection.stands (c : Connection cap σ) (op : Op) : Bool :=
  !c.timesOut op && (op.run c).2.snd.sndUna == c.snd.sndUna

lemma Connection.run_stands (hr : Reachable c h) (hs : c.stands op = true)
    (hd : (op.run c).2.state.streaming = true) :
    ((op.run c).2.recovery = false → c.recovery = false ∧ (op.run c).2.recover = c.recover ∧
      min fastRetransmitThreshold (c.dupacks + if c.duplicates op then 1 else 0) ≤ (op.run c).2.dupacks) ∧
    ((op.run c).2.recovery = true → c.recovery = true ∨ after c.snd.sndUna c.recover = true) := by
  simp only [stands, Bool.and_eq_true, Bool.not_eq_true', beq_iff_eq] at hs
  have hshift : c.Shift (op.run c).2.loss := by
    rcases c.run_shift op with ⟨ho | ho, -⟩ | ⟨hx, -⟩ | ⟨-, h⟩
    · rw [opening_eq_false (.inl hd)] at ho
      cases ho
    · rw [ho] at hd
      cases hd
    · rw [hs.1] at hx
      cases hx
    · exact h
  have hdup : (op.run c).2.loss = c.duplicateAck.loss →
      ((op.run c).2.recovery = false → c.recovery = false ∧ (op.run c).2.recover = c.recover ∧
        min fastRetransmitThreshold (c.dupacks + 1) ≤ (op.run c).2.dupacks) ∧
      ((op.run c).2.recovery = true → c.recovery = true ∨ after c.snd.sndUna c.recover = true) := by
    intro hl
    have hk := c.duplicateAck_dupacks
    rcases c.duplicateAck_cases with ⟨he, -⟩ | ⟨hc, ha, -, he⟩ <;>
      rw [he] at hl <;> simp only [loss, Loss.mk.injEq] at hl
    · refine ⟨fun hn => ⟨hl.2.2.2.1 ▸ hn, hl.2.2.1, ?_⟩, fun hn => .inl (hl.2.2.2.1 ▸ hn)⟩
      rw [hl.2.2.2.2, hk]
      unfold fastRetransmitThreshold
      split_ifs <;> omega
    refine ⟨fun hn => ?_, fun _ => .inr ha⟩
    rw [hl.2.2.2.1] at hn
    cases hn
  by_cases hx : c.duplicates op = true
  · rw [if_pos hx]
    exact hdup (run_duplicate hr hx).1
  rw [if_neg hx]
  generalize hl : (op.run c).2.loss = l at hshift
  cases hshift with
  | still he =>
    rw [he] at hl
    simp only [loss, Loss.mk.injEq] at hl
    refine ⟨fun hn => ⟨hl.2.2.2.1 ▸ hn, hl.2.2.1, ?_⟩, fun hn => .inl (hl.2.2.2.1 ▸ hn)⟩
    omega
  | acked ack r hn _ he =>
    rw [he] at hl
    simp only [loss, Loss.mk.injEq] at hl
    exact absurd (hl.2.1.symm.trans hs.2) hn
  | duplicate he =>
  obtain ⟨h1, h2⟩ := hdup (hl.trans he)
  refine ⟨fun hn => ?_, h2⟩
  obtain ⟨h3, h4, h5⟩ := h1 hn
  exact ⟨h3, h4, by omega⟩

lemma Op.runs_stands (hr : Reachable c h) (ops : List Op)
    (hd : Op.everyState (fun d => d.state.streaming) c ops = true)
    (hs : Op.everyStep (fun d op => d.stands op) c ops = true) :
    ((Op.runs c h ops).1.recovery = false → c.recovery = false ∧ (Op.runs c h ops).1.recover = c.recover ∧
      min fastRetransmitThreshold (c.dupacks + c.duplicateCount ops) ≤ (Op.runs c h ops).1.dupacks) ∧
    ((Op.runs c h ops).1.recovery = true → c.recovery = true ∨ after c.snd.sndUna c.recover = true) ∧
    (Op.runs c h ops).1.snd.sndUna = c.snd.sndUna := by
  induction ops generalizing c h with
  | nil =>
    refine ⟨fun hn => ⟨hn, rfl, ?_⟩, .inl, rfl⟩
    simp only [duplicateCount, Op.runs]
    omega
  | cons op ops ih =>
  simp only [Op.everyState, Op.everyStep, Bool.and_eq_true] at hd hs
  have hn : (op.run c).2.state.streaming = true := by
    cases ops <;> simp_all [Op.everyState]
  have hu : (op.run c).2.snd.sndUna = c.snd.sndUna := by
    have := hs.1
    simp only [stands, Bool.and_eq_true, beq_iff_eq] at this
    exact this.2
  obtain ⟨h1, h2⟩ := run_stands hr hs.1 hn
  obtain ⟨i1, i2, i3⟩ := ih (hr.step op) hd.2 hs.2
  simp only [Op.runs, duplicateCount]
  refine ⟨fun hx => ?_, fun hx => ?_, i3.trans hu⟩
  · obtain ⟨j1, j2, j3⟩ := i1 hx
    obtain ⟨k1, k2, k3⟩ := h1 j1
    exact ⟨k1, j2.trans k2, by omega⟩
  rcases i2 hx with hy | hy
  · exact h2 hy
  by_cases hz : (op.run c).2.recovery = true
  · exact h2 hz
  obtain ⟨k1, k2, -⟩ := h1 (by simpa using hz)
  rw [hu, k2] at hy
  exact .inr hy

def Connection.HeldBack (c : Connection cap σ) : Prop :=
  c.resetPending = true → (c.state.streaming = true ∨ c.state = .timeWait → c.snd.sndMax = c.snd.sndUna) ∧
      (c.plan.active = true → c.plan.kind = .reset)

lemma Connection.Deeds.reset (hd : c.Deeds d) : (c.snd.sndMax = c.snd.sndUna → d.snd.sndUna = c.snd.sndUna) ∧
      (d.resetPending = true → c.resetPending = true ∨ c.state.opening = true ∨ c.state = .listen) := by
  induction hd with
  | refl => exact ⟨fun _ => rfl, .inl⟩
  | @touch a b _ ht ih =>
    simp only [timing, Timing.mk.injEq] at ht
    rwa [ht.1, ht.2.2.2.2.2.2.2.1]
  | @acknowledge a ack now _ ht ih =>
    refine ⟨fun hm => ?_, fun hr => ih.2 ?_⟩
    · have hs : a.snd = c.snd := congrArg Timing.snd ht
      have hi : a.ackIgnored ack = true := by
        simp only [Block.ackIgnored, hs, hm]
        cases after ack c.snd.sndUna <;> rfl
      unfold Connection.acknowledge
      rw [if_pos hi, hs]
    rcases a.acknowledge_cases ack now with h | ⟨-, r, snd, h, -⟩
    · rwa [h] at hr
    · exact (congrArg Timing.resetPending h).symm.trans hr
  | @duplicateAck a r _ _ ih =>
    unfold Connection.duplicateAck
    dsimp only
    split_ifs <;> exact ih
  | terminate _ _ _ ih => exact ⟨ih.1, by simp [Connection.terminate]⟩
  | queueReset _ _ _ _ ho ih => exact ⟨ih.1, fun _ => .inr ho⟩
  | _ => assumption

lemma Connection.Deeds.opened {h' : History} (hd : c.Deeds d) (hr : Reachable c h)
    (hr' : Reachable d h') (hw : h'.written = h.written) (ho : c.state.opening = true ∨ c.state = .listen)
    (hs : d.state.streaming = true ∨ d.state = .timeWait) : d.snd.sndMax = d.snd.sndUna := by
  obtain ⟨u, v, m, hk⟩ := hr.sender.sends (by rintro hz; simp [hz, opening] at ho)
  obtain ⟨u', v', m', hk'⟩ := hr'.sender.sends (by rintro hz; simp [hz, streaming] at hs)
  obtain ⟨-, -, -, -, h1, h2⟩ := hd.frame
  have hm : m ≤ 1 ∧ h.written.length = 0 := by
    have hphase := hk.phase
    rcases ho with hc | hc
    · cases hz : c.state <;> simp_all [Phase, opening]
    · simp only [hc, Phase] at hphase
      omega
  have hphase := hk'.phase
  have hle := hk'.una_le.trans hk'.nxt_le
  rw [hk'.max_eq, hk'.una_eq]
  have he : offset c.snd.iss m = offset c.snd.iss m' := by
    rw [← hk.max_eq, ← h2, ← hk'.max_eq, h1]
  rw [hw, hm.2] at hphase
  have hu : u' = m' := by
    have hfin : m' ≠ 2 := by
      rintro rfl
      rw [offset_inj _ (by omega) (by omega)] at he
      omega
    cases hz : d.state <;> simp only [hz, Phase] at hphase <;> simp [hz, streaming] at hs <;> omega
  rw [hu]

lemma Connection.tick_heldBack (hk : c.HeldBack) (now : ℕ) : (c.tick now).2.HeldBack := by
  intro hr
  rcases c.tick_timing now with ⟨r, he, hc⟩ | ⟨-, he⟩ | he
  · simp only [timing, Timing.mk.injEq] at he
    obtain ⟨hres, hst⟩ := hc (he.2.2.2.2.2.2.2.1 ▸ hr)
    rw [he.1, he.2.1, hst]
    exact hk hres
  · rw [he] at hr
    cases hr
  simp only [timing, Timing.mk.injEq] at he
  rw [he.2.2.2.2.2.2.2.1] at hr
  cases hr

lemma Connection.receive_closed (hc : c.state = .closed) (packet : Result Datagram) (now : ℕ) :
    (c.receive packet now).2.state = .closed := by
  unfold receive
  split_ifs
  · exact hc
  · exact hc
  cases packet with
  | error status => exact hc
  | ok d =>
  unfold ingress
  dsimp only
  split_ifs
  · exact hc
  · exact hc
  unfold ingressState
  rw [if_pos (by simp [hc])]
  exact hc

lemma Connection.prepare_heldBack (hk : c.HeldBack) (size now : ℕ) : (c.prepare size now).2.HeldBack := by
  have ht := tick_heldBack hk now
  obtain ⟨q, head, n, he, hst, hq⟩ := c.prepare_timing size now
  simp only [timing, Timing.mk.injEq] at he
  intro hr
  rw [he.1, he.2.1, hst]
  have hx := he.2.2.2.2.2.2.2.1 ▸ hr
  refine ⟨(ht hx).1, fun ha => ?_⟩
  rcases hq with ⟨rfl, -⟩ | ⟨-, plan, hp, hkind⟩
  · exact (ht hx).2 ha
  have hu := select_of_urgent (c := (c.tick now).2) (if_pos hx : urgent _ now = _)
  rw [hu.1] at hp
  rw [hkind, ← Option.some.inj hp]

lemma Connection.completeTransmit_heldBack (hk : c.HeldBack) (token : ℕ) (accepted : Bool) (now : ℕ) :
    (c.completeTransmit token accepted now).2.HeldBack := by
  intro hr
  rcases c.completeTransmit_effect token accepted now with ⟨he, -⟩ | ⟨ha, ht, hl, hs⟩
  · rw [he] at hr ⊢
    exact hk hr
  cases accepted with
  | false =>
    have he : (c.completeTransmit token false now).2 = { c with plan := {}, lastNow := now } := by
      unfold completeTransmit
      rw [if_neg (by simp [ha, ht]), if_neg (not_lt.mpr hl)]
      rfl
    rw [he] at hr ⊢
    exact ⟨(hk hr).1, by simp⟩
  | true =>
  generalize he : (c.completeTransmit token true now).2.timing = t at hs
  have hres : t.resetPending = true := by rw [← he]; exact hr
  cases hs with
  | refused hx => cases hx
  | reset => cases hres
  | ack hx | fast hx | syn _ hx | retrySyn _ hx | retry _ hx | new _ hx => simp [(hk hres).2 ha] at hx

omit [CongestionControl σ] in
lemma after_receive_written (h : History) (k : Block cap) (packet : Result Datagram) (now : ℕ) (r : Reply) :
    (h.after k (.receive packet now) r).written = h.written := by
  unfold History.after
  split <;> first | rfl | simp_all
  split <;> rfl

lemma Reachable.heldBack (hr : Reachable c h) : c.HeldBack := by
  induction hr with
  | fresh => exact fun h => by cases h
  | @step c h op hr ih =>
  cases op with
  | activeOpen here peer iss now =>
    simp only [Op.run, Connection.activeOpen]
    split_ifs <;> first | exact ih | exact fun h => by cases h
  | passiveOpen here iss now =>
    simp only [Op.run, Connection.passiveOpen]
    split_ifs <;> first | exact ih | exact fun h => by cases h
  | rearmListener iss now =>
    simp only [Op.run, Connection.rearmListener]
    split_ifs with h1
    · exact ih
    · exact ih
    intro hx
    have hx : c.resetPending = true := hx
    simp [hx] at h1
  | abort =>
    simp only [Op.run, Connection.abort]
    split_ifs <;> first | exact ih | exact fun h => by cases h
  | write input =>
    simp only [Op.run, Connection.write]
    split_ifs <;> exact ih
  | peek size => exact ih
  | read size =>
    simp only [Op.run, Connection.read]
    split_ifs <;> exact ih
  | shutdownWrite =>
    simp only [Op.run, Connection.shutdownWrite]
    split_ifs <;> exact ih
  | receive packet now =>
    have hstep := hr.step (.receive packet now)
    by_cases hp : c.plan.active = true
    · have hb : (c.receive packet now).2 = c := by
        unfold Connection.receive
        rw [if_pos hp]
      simp only [Op.run, Prod.map_snd, id, hb]
      exact ih
    rcases c.receive_deeds packet now with hd | ⟨-, hd⟩
    · obtain ⟨-, -, h3, -, h1, -⟩ := hd.frame
      obtain ⟨h4, h5⟩ := hd.reset
      intro hx
      refine ⟨fun hs => ?_, fun ha => absurd (h3 ▸ ha) hp⟩
      by_cases ho : c.state.opening = true ∨ c.state = .listen
      · refine hd.opened hr hstep ?_ ho hs
        exact after_receive_written h c.toBlock packet now _
      have hc := (h5 hx).resolve_right ho
      have hm : c.snd.sndMax = c.snd.sndUna := by
        refine (ih hc).1 ?_
        have hn : c.state ≠ .closed := by
          intro hz
          have hq : ((Op.receive packet now).run c).2.state = .closed := Connection.receive_closed hz packet now
          simp [hq, streaming] at hs
        cases hz : c.state <;> simp_all [opening, streaming]
      exact h1.trans (hm.trans (h4 hm).symm)
    intro hx
    rw [show (Op.run c (.receive packet now)).2 = _ from hd] at hx
    cases hx
  | tick now => exact Connection.tick_heldBack ih now
  | prepare size now => exact Connection.prepare_heldBack ih size now
  | completeTransmit token accepted now => exact Connection.completeTransmit_heldBack ih token accepted now

def Connection.headLength (c : Connection cap σ) : ℕ :=
  min (min c.snd.txSize (c.snd.sndMax - c.snd.sndUna).toNat) c.segment

lemma Reachable.headLength_pos (hr : Reachable c h) (hs : c.sending = true) (hz : c.snd.sentData ≠ 0) :
    0 < c.headLength ∧ c.snd.sndMax ≠ c.snd.sndUna := by
  have hst := sending_streaming hs
  obtain ⟨u, v, m, hk⟩ := hr.sender.sends (by rintro hx; simp [hx, streaming] at hst)
  obtain ⟨h1, h2, hm, hb⟩ := hk.bounds cap.send_le
  have hphase := hk.phase
  have hdata := hk.sentData_eq cap.send_le
  have hfin := hk.finInFlight_iff cap.send_le
  have hseg := segment_pos hr.sound.mss
  have hv : u < v := by
    by_contra hx
    omega
  have ht : 0 < c.snd.txSize := by
    by_contra hx
    have hsize : c.snd.txSize = 0 := by omega
    have hflight : c.snd.finInFlight = true := by
      refine hfin.mpr ⟨?_, by omega⟩
      cases hq : c.state <;> simp only [hq, Phase] at hphase <;>
        first | exact hphase.2.2.2.1 | (exfalso; omega) | simp [hq, sending] at hs
    rw [hdata, if_pos hflight] at hz
    omega
  have hd : (c.snd.sndMax - c.snd.sndUna).toNat = m - u := by
    rw [hk.max_eq, hk.una_eq, distance _ (by omega) (by omega)]
  refine ⟨?_, ?_⟩
  · unfold headLength
    omega
  intro he
  rw [he, BitVec.sub_self, BitVec.toNat_zero] at hd
  omega

lemma Reachable.prepare_head {size now : ℕ} (hr : Reachable c h) (hh : c.retransmitHead = true)
    (hs : c.sending = true) (hz : c.snd.sentData ≠ 0) (hp : c.plan.active = false) (hn : c.lastNow ≤ now)
    (hto : (c.snd.rtx.active && decide (c.snd.rtx.deadline ≤ now)) = false) (htok : c.nextToken ≠ u64Max)
    (hsize : packetLength c.localEndpoint.address.family 0 c.headLength ≤ size) :
    ∃ p, (c.prepare size now).1 = .ok (some p) ∧ p.packet.tcp.fields.sequence = c.snd.sndUna ∧
      p.packet.tcp.payload = c.snd.tx.slice c.snd.txHead c.headLength := by
  obtain ⟨hpos, hne⟩ := hr.headLength_pos hs hz
  have hst := sending_streaming hs
  have hset : ({ c with lastNow := now } : Connection cap σ).Settled now := by
    refine ⟨rfl, ?_, ?_, ?_⟩
    · have : (c.state == .timeWait) = false := by cases hq : c.state <;> simp_all [sending]
      simp [this]
    · have : (c.snd.rtx.active && decide (now ≥ c.snd.rtx.deadline)) = false := hto
      simp only [this, Bool.false_and]
    · have : (c.state == .finWait2) = false := by cases hq : c.state <;> simp_all [sending]
      simp [this]
  have hreset : c.resetPending = false := by
    by_contra hx
    exact hne ((hr.heldBack (by simpa using hx)).1 (.inl hst))
  have hsyn := hr.sound.pendingSyn_eq_false (.inl hst)
  let plan : Plan :=
    { active := true, kind := .fast, destination := c.peer, payload := c.headLength, offset := 0
      fields := { sequence := c.snd.sndUna, flags := tcpAck ||| tcpPsh } }
  have hurgent : ({ c with lastNow := now } : Connection cap σ).urgent now = some (some plan) := by
    unfold urgent
    rw [if_neg (by simp [hreset]), if_neg (by simp [hsyn]), if_neg (by simpa using hto), if_pos (by simp [hh]; exact hs)]
    exact congrArg some (if_pos hpos.ne')
  obtain ⟨hsel, hsame⟩ := select_of_urgent hurgent
  have hselect : ({ c with lastNow := now } : Connection cap σ).select now =
      (some plan, { c with lastNow := now }) := Prod.ext hsel (hsame (by simp))
  obtain ⟨length, packet, hbuild, hseq, hpay⟩ : ∃ length packet,
      ({ c with lastNow := now } : Connection cap σ).buildPacket plan size = .ok (length, packet) ∧
        packet.tcp.fields.sequence = c.snd.sndUna ∧
        packet.tcp.payload = c.snd.tx.slice c.snd.txHead c.headLength := by
    have hf : (({ c with lastNow := now } : Connection cap σ).finishFields plan).has tcpSyn = false := by
      show ((tcpAck ||| tcpPsh) &&& tcpSyn != 0) = false
      decide
    refine ⟨packetLength c.localEndpoint.address.family 0 c.headLength,
      ⟨c.localEndpoint.address, c.peer.address, ⟨({ c with lastNow := now } : Connection cap σ).finishFields plan, [],
          c.snd.tx.slice c.snd.txHead c.headLength⟩⟩, ?_, rfl, rfl⟩
    unfold buildPacket
    dsimp only
    rw [hf]
    unfold buildTcp
    simp only [Bool.false_eq_true, if_false, List.length_nil, Ring.length_slice, plan, Nat.add_zero]
    rw [if_neg (not_lt.mpr hsize)]
  refine ⟨⟨length, c.nextToken + 1, packet⟩, ?_, hseq, hpay⟩
  unfold prepare
  rw [if_neg (by simp [hp]), tick_of_settled hset hp hn]
  dsimp only
  rw [if_neg htok, hselect]
  dsimp only
  rw [hbuild]

lemma Reachable.sending_of_sent (hr : Reachable c h) (hs : c.state.streaming = true) (hz : c.snd.sentData ≠ 0) :
    c.sending = true := by
  obtain ⟨u, v, m, hk⟩ := hr.sender.sends (by rintro hx; simp [hx, streaming] at hs)
  have hdata := hk.sentData_eq cap.send_le
  have hphase := hk.phase
  have h1 := hk.una_le
  have h2 := hk.nxt_le
  cases hq : c.state <;> simp_all [streaming, sending]
  simp only [Phase] at hphase
  omega

lemma after_iff_distance (iss : U32) {i j : ℕ} (h : i < j) :
    after (offset iss j) (offset iss i) = true ↔ 0 < (j - i) % 2 ^ 32 ∧ (j - i) % 2 ^ 32 < 2 ^ 31 := by
  rw [after_iff, offset_sub iss h.le, BitVec.toNat_ofNat]

/-- After three duplicate ACKs in a row the connection is in recovery exactly when the distance from the recovery
point to SND.UNA, which the code sees modulo `2 ^ 32`, is neither zero nor `2 ^ 31` and more; a connection that
enters recovery resends the segment at SND.UNA next, unless a timeout comes first. -/
theorem fast_retransmit {t : Track} (ht : Tracked c h t) :
    (∀ ops, c.recovery = false → t.mark < t.una → Op.everyState (fun d => d.state.streaming) c ops = true →
      Op.everyStep (fun d op => d.stands op) c ops = true → fastRetransmitThreshold ≤ c.duplicateCount ops →
      ((Op.runs c h ops).1.recovery = true ↔ 0 < (t.una - t.mark) % 2 ^ 32 ∧ (t.una - t.mark) % 2 ^ 32 < 2 ^ 31)) ∧
    (∀ op size now, c.duplicates op = true → c.entersRecovery op = true → let d := (op.run c).2
      d.lastNow ≤ now → (d.snd.rtx.active && decide (d.snd.rtx.deadline ≤ now)) = false → d.nextToken ≠ u64Max →
      packetLength d.localEndpoint.address.family 0 d.headLength ≤ size →
      ∃ p, (d.prepare size now).1 = .ok (some p) ∧ p.packet.tcp.fields.sequence = d.snd.sndUna ∧
        p.packet.tcp.payload = d.snd.tx.slice d.snd.txHead d.headLength ∧ p.packet.tcp.payload ≠ []) := by
  have hr := ht.reachable
  obtain ⟨hu, hm⟩ := ht.positions
  refine ⟨fun ops hrec hpast hst hs hcount => ?_, fun op size now hd he => ?_⟩
  · rw [← after_iff_distance c.snd.iss hpast, ← hu, ← hm]
    obtain ⟨h1, h2, h3⟩ := Op.runs_stands hr ops hst hs
    constructor
    · intro hx
      simpa [hrec] using h2 hx
    intro ha
    by_contra hx
    obtain ⟨-, h4, h5⟩ := h1 (by simpa using hx)
    have hk := (hr.runs ops).dupacks (by simpa using hx) (by omega)
    rw [h3, h4, ha] at hk
    cases hk
  obtain ⟨hl, hh, hb⟩ := Connection.run_duplicate hr hd
  obtain ⟨d, at_, rfl, hp, -, -, hmax, hz⟩ := Connection.duplicates_pureAck hr hd
  intro e hn hto htok hsize
  have he' := hb
  have hsent : e.snd.sentData ≠ 0 := by
    rw [he']
    exact hz
  have hsend : e.sending = true := by
    refine (hr.step _).sending_of_sent ?_ hsent
    rw [show ((Op.receive (.ok d) at_).run c).2.toBlock = c.toBlock from hb]
    exact hp.streaming
  have hhead : e.retransmitHead = true := by
    simp only [Connection.entersRecovery, Bool.and_eq_true, Bool.not_eq_true'] at he
    refine hh.trans ?_
    rcases c.duplicateAck_cases with ⟨hq, -⟩ | ⟨-, -, hq, -⟩
    · rw [hq] at hl
      have hx : e.recovery = c.recovery := congrArg Loss.recovery hl
      rw [he.1, show e.recovery = true from he.2] at hx
      cases hx
    · exact hq
  have hidle : e.plan.active = false := by
    rw [he']
    exact hp.idle
  obtain ⟨p, h1, h2, h3⟩ := (hr.step _).prepare_head hhead hsend hsent hidle hn hto htok hsize
  refine ⟨p, h1, h2, h3, ?_⟩
  have hpos := ((hr.step (.receive (.ok d) at_)).headLength_pos hsend hsent).1
  intro hx
  rw [h3] at hx
  have := congrArg List.length hx
  simp only [Ring.length_slice, List.length_nil] at this
  exact hpos.ne' this

def Track.along (t : Track) (c : Connection cap σ) : List Op → Track
  | [] => t
  | op :: ops => (t.after c op).along (op.run c).2 ops

lemma Tracked.runs (ht : Tracked c h t) (ops : List Op) :
    Tracked (Op.runs c h ops).1 (Op.runs c h ops).2 (t.along c ops) := by
  induction ops generalizing c h t with
  | nil => exact ht
  | cons op ops ih => exact ih (ht.step op)

def peerSegment (ack : U32) : Datagram :=
  ⟨.v4 10 0 0 2, .v4 10 0 0 1,
    ⟨{ sourcePort := 80, destinationPort := 1000, sequence := 501, acknowledgment := ack, flags := tcpAck, window := 8 },
      [], []⟩⟩

def peerAck (ack : U32) : Op := .receive (.ok (peerSegment ack)) 1

theorem fast_retransmit_dialed :
    (Op.runs dialed.1 dialed.2 [.prepare 1500 1, .completeTransmit 2 true 1, peerAck 101, peerAck 101,
      peerAck 101]).1.recovery = true :=
  ((fast_retransmit (c := dialed.1) (Tracked.fresh.runs dialOps)).1 _ (by decide +kernel) (by decide +kernel)
    (by decide +kernel) (by decide +kernel) (by decide +kernel)).mpr (by decide +kernel)

end ObfuscationKernel.Net.Tcp
