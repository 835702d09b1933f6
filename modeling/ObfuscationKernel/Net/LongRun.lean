import ObfuscationKernel.Net.FastRetransmit

/-! A run of more than `2 ^ 31` acknowledged bytes without a loss, byte by byte, and the duplicate ACKs that
do not start recovery after it. -/

namespace ObfuscationKernel.Net.Tcp

open ObfuscationKernel.Core Library Library.Serial Wire Connection Sender

namespace Connection

variable {cap : Capacities} {σ : Type} [CongestionControl σ] {c : Connection cap σ}

lemma acknowledge_rest (ack : U32) (now : ℕ) (hr : c.recovery = false) :
    (c.acknowledge ack now).lastNow = c.lastNow ∧ (c.acknowledge ack now).peerWindow = c.peerWindow ∧
      ((c.acknowledge ack now).cc = c.cc ∨
        ∃ n, (c.acknowledge ack now).cc = CongestionControl.acknowledged c.cc n c.segment) := by
  have hs : ∀ d : Connection cap σ, d.recovery = false → (d.sampleAcked ack now).lastNow = d.lastNow ∧
      (d.sampleAcked ack now).peerWindow = d.peerWindow ∧ (d.sampleAcked ack now).cc = d.cc ∧
      (d.sampleAcked ack now).recovery = false ∧ (d.sampleAcked ack now).segment = d.segment := by
    intro d hd
    unfold sampleAcked sampleRtt
    split_ifs <;> exact ⟨rfl, rfl, rfl, hd, rfl⟩
  have hn : ∀ (d : Connection cap σ) (n : ℕ), d.recovery = false → (d.noteAcked ack n).lastNow = d.lastNow ∧
      (d.noteAcked ack n).peerWindow = d.peerWindow ∧
      ((d.noteAcked ack n).cc = d.cc ∨ (d.noteAcked ack n).cc = CongestionControl.acknowledged d.cc n d.segment) := by
    intro d n hd
    unfold noteAcked
    rw [if_neg (by simp [hd])]
    split_ifs
    · exact ⟨rfl, rfl, .inr rfl⟩
    · exact ⟨rfl, rfl, .inl rfl⟩
  have hf : ∀ d : Connection cap σ, (d.noteFin ack now).lastNow = d.lastNow ∧
      (d.noteFin ack now).peerWindow = d.peerWindow ∧ (d.noteFin ack now).cc = d.cc := by
    intro d
    unfold noteFin
    split_ifs
    · exact ⟨rfl, rfl, rfl⟩
    · split <;> exact ⟨rfl, rfl, rfl⟩
  unfold acknowledge
  split_ifs
  · exact ⟨rfl, rfl, .inl rfl⟩
  obtain ⟨s1, s2, s3, s4, s5⟩ := hs c hr
  obtain ⟨n1, n2, n3⟩ := hn (c.sampleAcked ack now) (c.ackReleases ack) s4
  obtain ⟨f1, f2, f3⟩ := hf ((c.sampleAcked ack now).noteAcked ack (c.ackReleases ack))
  rw [s3, s5] at n3
  exact ⟨f1.trans (n1.trans s1), f2.trans (n2.trans s2),
    n3.imp (fun h => f3.trans h) fun h => ⟨c.ackReleases ack, f3.trans h⟩⟩

omit [CongestionControl σ] in
lemma completeNew_frame (c : Connection cap σ) (sent : Plan) (now : ℕ) :
    (c.completeNew sent now).toBlock = c.toBlock.complete sent (deadline now c.rto) ∧
      (c.completeNew sent now).lastNow = c.lastNow ∧ (c.completeNew sent now).peerWindow = c.peerWindow ∧
      (c.completeNew sent now).resetPending = c.resetPending ∧
      (c.completeNew sent now).retransmitHead = c.retransmitHead ∧ (c.completeNew sent now).recovery = c.recovery ∧
      (c.completeNew sent now).recover = c.recover ∧
      (c.completeNew sent now).cc = c.cc ∧ (c.completeNew sent now).nextToken = c.nextToken := by
  unfold completeNew time
  split_ifs <;> exact ⟨rfl, rfl, rfl, rfl, rfl, rfl, rfl, rfl, rfl⟩

end Connection

structure Cruise (c : Connection dialCapacities NewReno) (una max : U32) (size : ℕ) (token : ℕ) : Prop where
  state : c.state = .established
  plan : c.plan.active = false
  clock : c.lastNow = 1
  here : c.localEndpoint = ⟨.v4 10 0 0 1, 1000⟩
  peer : c.peer = ⟨.v4 10 0 0 2, 80⟩
  acked : c.snd.sndUna = una
  nxt : c.snd.sndNxt = max
  sent : c.snd.sndMax = max
  buffered : c.snd.txSize = size
  shut : c.snd.writeShutdown = false
  timer : c.snd.rtx.active = (una != max)
  syn : c.pendingSyn = false
  next : c.rcv.rcvNxt = 501
  room : c.rcv.rxSize = 0
  window : c.peerWindow = 8
  reset : c.resetPending = false
  head : c.retransmitHead = false
  recovery : c.recovery = false
  recover : c.recover = 100
  iss : c.snd.iss = 100
  mss : c.peerMss = 536
  cwnd : 0 < c.cc.cwnd
  issued : c.nextToken = token

namespace Cruise

variable {c : Connection dialCapacities NewReno} {x : U32} {token : ℕ}

lemma write (h : Cruise c x x 0 token) : c.write [0] = (.ok 1, { c with snd := c.snd.write [0] }) := by
  unfold Connection.write
  rw [if_neg (by simp [h.plan]), if_neg (by simp [h.shut, h.state]), if_neg (by simp)]
  simp [h.buffered, dialCapacities]

lemma wrote (h : Cruise c x x 0 token) : Cruise ((Op.write [0]).run c).2 x x 1 token := by
  rw [show ((Op.write [0]).run c).2 = { c with snd := c.snd.write [0] } from congrArg Prod.snd h.write]
  exact { h with buffered := by simp [Sender.write, h.buffered] }

lemma sentData (h : Cruise c x x 1 token) : c.snd.sentData = 0 := by
  simp [Sender.sentData, Sender.outstanding, Sender.finInFlight, h.nxt, h.acked, h.shut]

def packet (c : Connection dialCapacities NewReno) (x : U32) : Plan :=
  { active := true, kind := .data, destination := c.peer, offset := 0, payload := 1
    fields := { sequence := x, flags := tcpAck ||| tcpPsh } }

lemma select (h : Cruise c x x 1 token) : c.select 1 = (some (packet c x), c) := by
  have hu : c.urgent 1 = none := by
    unfold urgent
    simp [h.reset, h.syn, h.timer, h.head]
  have hs : c.sending = true := by simp [sending, h.state]
  have hw : c.usable ≠ 0 := by
    have hc := h.cwnd
    have ho : c.snd.outstanding.toNat = 0 := by simp [outstanding, h.nxt, h.acked]
    unfold usable
    rw [ho, h.window]
    simp only [CongestionControl.window]
    split_ifs <;> omega
  have hn : c.sendNew 1 = (some (packet c x), c) := by
    have hp : min (min 1 c.segment) c.usable = 1 := by
      have : c.segment = 4 := by simp [Connection.segment, h.mss, dialCapacities]
      omega
    unfold sendNew sendNext
    rw [if_pos hs]
    simp only [h.sentData, h.buffered, Nat.sub_zero]
    rw [if_pos (by simp [hw])]
    simp [packet, hp, h.nxt]
  rw [select_of_idle hu, hn]

lemma prepare (h : Cruise c x x 1 token) (ht : token < u64Max) : (c.prepare 1500 1).2 = { c with
      nextToken := token + 1
      plan := { packet c x with token := token + 1, fields := c.finishFields (packet c x) } } := by
  have hset : c.Settled 1 := by
    refine ⟨h.clock, ?_, ?_, ?_⟩ <;> simp [h.state, h.timer]
  unfold Connection.prepare
  rw [if_neg (by simp [h.plan]), hset.tick h.plan]
  dsimp only
  rw [if_neg (by rw [h.issued]; exact ht.ne), h.select]
  dsimp only
  obtain ⟨length, d, hb⟩ : ∃ length d, c.buildPacket (packet c x) 1500 = .ok (length, d) := by
    have hf : (c.finishFields (packet c x)).has tcpSyn = false := by
      show ((tcpAck ||| tcpPsh) &&& tcpSyn != 0) = false
      decide
    unfold buildPacket
    dsimp only
    rw [hf]
    refine ⟨_, _, if_neg ?_⟩
    simp [h.here, packet, packetLength, IpAddress.v4]
  rw [hb, h.issued]

lemma stop_packet (fields : TcpFields) (hs : fields.sequence = x) (hf : fields.flags = tcpAck ||| tcpPsh) (n : ℕ) :
    Block.stop { packet c x with token := n, fields := fields } = x + 1 := by
  have hn : fields.has (tcpSyn ||| tcpFin) = false := by
    rw [TcpFields.has, hf]
    decide
  simp [Block.stop, hn, hs, packet]

lemma succ_sub (x : U32) : x + 1 - x = 1 := by abel

lemma after_succ (x : U32) : after (x + 1) x = true := by
  rw [after_iff, succ_sub]
  decide

lemma succ_ne (x : U32) : x ≠ x + 1 := by
  intro he
  have := after_succ x
  rw [← he] at this
  simp [after, before] at this

lemma completeNew {sent : Plan} (h : Cruise c x x 1 token) (hk : sent.kind = .data) (hs : Block.stop sent = x + 1) :
    Cruise (c.completeNew sent 1) x (x + 1) 1 token := by
  obtain ⟨hb, h1, h2, h3, h4, h5, h7, h8, h9⟩ := c.completeNew_frame sent 1
  have hq : (c.toBlock.complete sent (deadline 1 c.rto)) = { c.toBlock with snd := { c.snd with
        sndNxt := x + 1, sndMax := x + 1, rtx := ((c.snd.advance (x + 1)).arm (deadline 1 c.rto)).rtx } } := by
    simp only [Block.complete, hk, Block.completeNew, hs]
    rw [arm_eq]
    have hx : after (x + 1) c.snd.sndMax = true := h.sent ▸ after_succ x
    simp only [advance, hx, if_true]
    rfl
  rw [hq] at hb
  have ht : ((c.snd.advance (x + 1)).arm (deadline 1 c.rto)).rtx.active = true := arm_active _ _
  refine ⟨?_, ?_, h1.trans h.clock, ?_, ?_, ?_, ?_, ?_, ?_, ?_, ?_, ?_, ?_, ?_, h2.trans h.window, h3.trans h.reset,
    h4.trans h.head, h5.trans h.recovery, h7.trans h.recover, ?_, ?_, ?_, h9.trans h.issued⟩
  all_goals first | rw [hb] | rw [h8]
  case refine_10 => exact ht.trans (bne_iff_ne.mpr (succ_ne x)).symm
  all_goals cases h; first | rfl | assumption

lemma launched (h : Cruise c x x 1 token) (ht : token < u64Max) :
    Cruise (Op.run (Op.run c (.prepare 1500 1)).2 (.completeTransmit (token + 1) true 1)).2 x (x + 1) 1 (token + 1) := by
  rw [show (Op.run c (.prepare 1500 1)).2 = _ from h.prepare ht]
  set p : Plan := { packet c x with token := token + 1, fields := c.finishFields (packet c x) } with hp
  have hc : (({ c with nextToken := token + 1, plan := p } : Connection dialCapacities NewReno).completeTransmit
      (token + 1) true 1).2 =
      ({ c with nextToken := token + 1, plan := {}, lastNow := 1, pendingAck := c.pendingAck && !p.fields.has tcpAck } :
        Connection dialCapacities NewReno).completeNew p 1 := by
    unfold completeTransmit
    rw [if_neg (by simp [hp, packet]), if_neg (by simp [h.clock])]
    rfl
  rw [show (Op.run { c with nextToken := token + 1, plan := p } (.completeTransmit (token + 1) true 1)).2 = _ from hc]
  refine completeNew ?_ rfl (stop_packet _ rfl rfl _)
  exact { h with plan := rfl, clock := rfl, issued := rfl }

variable {y : U32}

lemma pureAck (h : Cruise c x (x + 1) 1 token) (hy : (y - x).toNat ≤ 1) : c.PureAck (peerSegment y) 1 := by
  have hack : ∀ mask : UInt8, (peerSegment y).tcp.fields.has mask = (tcpAck &&& mask != 0) := fun _ => rfl
  refine ⟨h.plan, h.clock.le, ?_, ?_, ?_, ?_, ?_, ?_, rfl, ?_, ?_⟩
  · rw [h.here]
    exact ⟨rfl, rfl⟩
  · rw [h.peer]
    rfl
  · rw [h.peer]
    decide
  · rw [h.state]
    rfl
  · simp only [hack]
    decide
  · rw [hack]
    decide
  · have hw : c.rcv.window = 8 := by simp [Receiver.window, h.room, dialCapacities]
    have hz : segmentLength (peerSegment y).tcp = 0 := by
      unfold segmentLength
      simp only [hack, show (peerSegment y).tcp.payload = [] from rfl]
      decide
    unfold Receiver.acceptable
    simp only [hw, h.next, hz, show (peerSegment y).tcp.fields.sequence = 501 from rfl]
    decide
  rw [h.acked, h.sent, show (peerSegment y).tcp.fields.acknowledgment = y from rfl]
  refine between_of_le ?_ ?_
  · rw [succ_sub]
    decide
  · rwa [succ_sub]

lemma cwnd_acknowledged {r : NewReno} {bytes mss : ℕ} (h : 0 < r.cwnd) :
    0 < (CongestionControl.acknowledged r bytes mss).cwnd := by
  have hg : ∀ n, 0 < (r.grow n).cwnd := by
    intro n
    unfold NewReno.grow
    dsimp only
    split_ifs <;> omega
  show 0 < (r.acknowledged bytes mss).cwnd
  unfold NewReno.acknowledged
  split_ifs <;> exact hg _

lemma ackIgnored (h : Cruise c x (x + 1) 1 token) : c.toBlock.ackIgnored (x + 1) = false := by
  simp only [Block.ackIgnored, h.acked, h.sent, after_succ]
  simp [after, before]

lemma release (h : Cruise c x (x + 1) 1 token) (due : ℕ) : c.toBlock.acknowledge (x + 1) due =
    { c.toBlock with snd := { c.snd with
      txHead := (c.snd.txHead + 1) % 8, txSize := 0, sndUna := x + 1, rtx := {} } } := by
  have hi := h.ackIgnored
  have hf : c.toBlock.ackClosesFin (x + 1) = false := by simp [Block.ackClosesFin, Sender.finSent, h.shut]
  have hr : c.toBlock.ackReleases (x + 1) = 1 := by
    unfold Block.ackReleases
    simp only [hf, h.state, h.acked, h.buffered, succ_sub]
    decide
  have hn : before (x + 1) (x + 1) = false := by simp [before]
  unfold Block.acknowledge
  rw [hi]
  simp only [hf, hr, Sender.release, h.nxt, h.sent, h.buffered, hn, Bool.or_false, beq_self_eq_true]
  simp [dialCapacities]

lemma updateWindow {size : ℕ} {f : TcpFields} (h : Cruise c x y size token) (hf : f.window = 8) :
    Cruise (c.updateWindow f) x y size token := by
  unfold Connection.updateWindow
  dsimp only
  split_ifs <;> exact { h with window := by first | exact h.window | exact hf }

lemma acknowledge (h : Cruise c x (x + 1) 1 token) : Cruise (c.acknowledge (x + 1) 1) (x + 1) (x + 1) 0 token := by
  have hi := h.ackIgnored
  obtain ⟨due, hb⟩ := c.acknowledge_toBlock (x + 1) 1
  obtain ⟨r, due', ht, -⟩ := c.acknowledge_timing (x + 1) 1 hi
  obtain ⟨hl, hw, hcc⟩ := c.acknowledge_rest (x + 1) 1 h.recovery
  rw [h.release] at hb
  generalize c.acknowledge (x + 1) 1 = a at *
  simp only [timing, Timing.mk.injEq] at ht
  obtain ⟨-, -, -, t4, t5, -, t7, t8, -, t10⟩ := ht
  have hgrow : 0 < a.cc.cwnd := by
    rcases hcc with hx | ⟨n, hx⟩
    · rw [hx]
      exact h.cwnd
    · rw [hx]
      exact cwnd_acknowledged h.cwnd
  refine ⟨?_, ?_, hl.trans h.clock, ?_, ?_, ?_, ?_, ?_, ?_, ?_, ?_, ?_, ?_, ?_, hw.trans h.window, t8.trans h.reset,
    ?_, ?_, t4.trans h.recover, ?_, ?_, hgrow, t10.trans h.issued⟩
  case refine_14 => rw [t7, h.head, h.recovery]; rfl
  case refine_15 => rw [t5, h.recovery]; rfl
  all_goals rw [hb]
  all_goals cases h; first | assumption | simp

lemma acknowledged (h : Cruise c x (x + 1) 1 token) : Cruise ((peerAck (x + 1)).run c).2 (x + 1) (x + 1) 0 token := by
  have hp := h.pureAck (y := x + 1) (by simp)
  have he := hp.receive
  have hc : ({ c with lastNow := 1 } : Connection dialCapacities NewReno) = c := by rw [← h.clock]
  rw [if_pos (by rw [h.acked]; exact after_succ x), hc] at he
  have ha := h.acknowledge
  rw [show ((peerAck (x + 1)).run c).2 = _ from he]
  show Cruise ((c.acknowledge (x + 1) 1).ingressData c.snd.sndUna c.peerWindow (peerSegment (x + 1)).tcp 1).2 _ _ _ _
  rw [ingressData_bare rfl hp.bare.2.2.2 (by rw [ha.state]; decide)]
  unfold noteDuplicate
  rw [if_neg fun hy => ?_]
  · exact ha.updateWindow rfl
  · simp only [Bool.and_eq_true, beq_iff_eq] at hy
    exact succ_ne x (h.acked.symm.trans hy.1.1.1.1.1.1.symm)

lemma duplicateAck {size : ℕ} (h : Cruise c x y size token) (hx : after x 100 = false) :
    Cruise c.duplicateAck x y size token := by
  unfold Connection.duplicateAck
  rw [if_neg (by simp [h.recovery]), if_neg (by rw [h.acked, h.recover, hx]; simp)]
  exact { h with state := h.state }

lemma repeated (h : Cruise c x (x + 1) 1 token) (hx : after x 100 = false) :
    Cruise ((peerAck x).run c).2 x (x + 1) 1 token := by
  have hp := h.pureAck (y := x) (by simp)
  have he := hp.receive
  have hc : ({ c with lastNow := 1 } : Connection dialCapacities NewReno) = c := by rw [← h.clock]
  rw [if_neg (by rw [h.acked]; simp [peerSegment, after, before]), hc] at he
  rw [show ((peerAck x).run c).2 = _ from he]
  rw [ingressData_bare rfl hp.bare.2.2.2 (by rw [h.state]; decide)]
  have hu := h.updateWindow (f := (peerSegment x).tcp.fields) rfl
  unfold noteDuplicate
  dsimp only
  split_ifs
  · exact hu.duplicateAck hx
  · exact hu

lemma duplicates (h : Cruise c x (x + 1) 1 token) : c.duplicates (peerAck x) = true := by
  have hp := h.pureAck (y := x) (by simp)
  obtain ⟨h1, h2, h3, h4⟩ := hp.bare
  have hd : c.snd.sentData ≠ 0 := by
    simp only [Sender.sentData, Sender.outstanding, Sender.finInFlight, h.nxt, h.acked, h.shut, succ_sub, Bool.false_and]
    decide
  simp only [peerAck, Connection.duplicates, Bool.and_eq_true, Bool.not_eq_true', beq_iff_eq, decide_eq_true_eq,
    bne_iff_ne, List.isEmpty_iff]
  refine ⟨⟨⟨⟨⟨⟨⟨⟨⟨⟨⟨⟨⟨⟨⟨⟨⟨hp.idle, hp.clock⟩, hp.here.1⟩, hp.here.2⟩, hp.peer⟩, hp.valid⟩, hp.streaming⟩, hp.ack⟩, h1⟩,
    h2⟩, h3⟩, h4⟩, rfl⟩, hp.acceptable⟩, h.acked.symm⟩, h.window.symm⟩, ?_⟩, hd⟩
  rw [h.sent, h.acked]
  exact after_succ x

lemma stands (h : Cruise c x (x + 1) 1 token) (hx : after x 100 = false) : c.stands (peerAck x) = true := by
  simp [Connection.stands, Connection.timesOut, Connection.transmits, peerAck, h.acked]
  exact (h.repeated hx).acked

end Cruise

variable {c : Connection dialCapacities NewReno}

lemma Track.after_of (t : Track) {op : Op}
    (hs : (op.run c).2.state = .established) (ht : c.timesOut op = false) (hr : (op.run c).2.recovery = false) :
    t.after c op = ⟨t.una + ((op.run c).2.snd.sndUna - c.snd.sndUna).toNat, t.mark⟩ := by
  unfold Track.after
  rw [if_neg (by rw [hs]; simp [State.opening])]
  simp [ht, entersRecovery, hr]

lemma Track.after_still (t : Track) {op : Op}
    (hs : (op.run c).2.state = .established) (ht : c.timesOut op = false) (hr : (op.run c).2.recovery = false)
    (hu : (op.run c).2.snd.sndUna = c.snd.sndUna) : t.after c op = t := by
  rw [t.after_of hs ht hr, hu, BitVec.sub_self]
  rfl

section

variable {c : Connection dialCapacities NewReno} {h : History} {t : Track} {x : U32} {token : ℕ}

lemma cruise_launched (ht : Tracked c h t) (hc : Cruise c x x 0 token) (hn : token < u64Max) :
    ∃ d g, Tracked d g t ∧ Cruise d x (x + 1) 1 (token + 1) := by
  have hw := hc.wrote
  have h1 := ht.step (.write [0])
  rw [t.after_still hw.state rfl hw.recovery (hw.acked.trans hc.acked.symm)] at h1
  generalize ((Op.write [0]).run c).2 = w at *
  have hp : ((Op.prepare 1500 1).run w).2 = _ := hw.prepare hn
  have hl := hw.launched hn
  have h2 := h1.step (.prepare 1500 1)
  rw [t.after_still (by rw [hp]; exact hw.state) rfl (by rw [hp]; exact hw.recovery) (by rw [hp]), hp] at h2
  rw [hp] at hl
  have h3 := h2.step (.completeTransmit (token + 1) true 1)
  rw [t.after_still hl.state (by simp [timesOut, transmits, Cruise.packet]) hl.recovery
    (hl.acked.trans hw.acked.symm)] at h3
  exact ⟨_, _, h3, hl⟩

lemma cruise_cycle (ht : Tracked c h t) (hc : Cruise c x x 0 token) (hn : token < u64Max) :
    ∃ d g, Tracked d g ⟨t.una + 1, t.mark⟩ ∧ Cruise d (x + 1) (x + 1) 0 (token + 1) := by
  obtain ⟨d, g, hd, hl⟩ := cruise_launched ht hc hn
  have ha := hl.acknowledged
  have h1 := hd.step (peerAck (x + 1))
  rw [t.after_of ha.state rfl ha.recovery, ha.acked, hl.acked, Cruise.succ_sub] at h1
  exact ⟨_, _, h1, ha⟩

end

lemma cruise_dialed : Cruise (Op.runs .fresh {} (dialOps ++ [.prepare 1500 1, .completeTransmit 2 true 1, peerAck 104])).1
    104 104 0 2 := by
  constructor <;> decide +kernel

lemma cruise_reached {n : ℕ} (hn : 2 + n ≤ u64Max) :
    ∃ c h, Tracked c h ⟨4 + n, 0⟩ ∧ Cruise c (offset 104 n) (offset 104 n) 0 (2 + n) := by
  induction n with
  | zero =>
    have ht := Tracked.fresh.runs (c := (.fresh : Connection dialCapacities NewReno))
      (dialOps ++ [.prepare 1500 1, .completeTransmit 2 true 1, peerAck 104])
    exact ⟨_, _, ht, by simpa using cruise_dialed⟩
  | succ n ih =>
  obtain ⟨c, h, ht, hc⟩ := ih (by omega)
  obtain ⟨d, g, h1, h2⟩ := cruise_cycle ht hc (by omega)
  rw [add_one] at h2
  exact ⟨d, g, h1, h2⟩

/-- With `2 ^ 31` bytes acknowledged and no loss before them, three duplicate ACKs start no recovery. -/
theorem long_run_no_recovery : ∃ (c : Connection dialCapacities NewReno) (h : History) (t : Track) (ops : List Op),
    Tracked c h t ∧ c.recovery = false ∧ t.mark < t.una ∧ Op.everyState (fun d => d.state.streaming) c ops = true ∧
      Op.everyStep (fun d op => d.stands op) c ops = true ∧ fastRetransmitThreshold ≤ c.duplicateCount ops ∧
      (Op.runs c h ops).1.recovery = false := by
  obtain ⟨c, h, ht, hc⟩ := cruise_reached (n := 2 ^ 31 - 4) (by decide)
  obtain ⟨d, g, hd, hl⟩ := cruise_launched ht hc (by decide)
  have hx : after (offset (104 : U32) (2 ^ 31 - 4)) 100 = false := by decide
  generalize offset (104 : U32) (2 ^ 31 - 4) = x at *
  have h1 := hl.repeated hx
  have h2 := h1.repeated hx
  have h3 := h2.repeated hx
  refine ⟨d, g, _, [peerAck x, peerAck x, peerAck x], hd, hl.recovery, by decide, ?_, ?_, ?_, h3.recovery⟩
  · simp [Op.everyState, hl.state, h1.state, h2.state, h3.state, State.streaming]
  · simp [Op.everyStep, hl.stands hx, h1.stands hx, h2.stands hx]
  · simp [Connection.duplicateCount, hl.duplicates, h1.duplicates, h2.duplicates, fastRetransmitThreshold]

end ObfuscationKernel.Net.Tcp
