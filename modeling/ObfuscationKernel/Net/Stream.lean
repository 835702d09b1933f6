import ObfuscationKernel.Net.Receiver

/-! Two control blocks joined by a network that drops, duplicates, delays and reorders
packets: what one side reads is what the other side wrote. -/

namespace ObfuscationKernel.Net.Tcp

open ObfuscationKernel.Core Library Library.Serial Library.Reassembly Wire List State

structure Party (cap : Capacities) (σ : Type) where
  conn : Connection cap σ
  history : History := {}
  held : Option Datagram := none
  sent : List Datagram := []

def Op.isLocal : Op → Bool
  | .write _ | .peek _ | .read _ | .shutdownWrite | .tick _ | .prepare .. | .completeTransmit .. => true
  | _ => false

section

variable {cap : Capacities} {σ : Type} [CongestionControl σ]

def Party.hold (p : Party cap σ) (op : Op) (r : Reply) : Option Datagram :=
  match op, r with
  | .prepare .., .packet (.ok (some q)) => some q.packet
  | .completeTransmit .., .done (.ok ()) => none
  | _, _ => p.held

def Party.post (p : Party cap σ) (op : Op) (r : Reply) : List Datagram :=
  match op, r with
  | .completeTransmit _ true _, .done (.ok ()) => p.held.toList ++ p.sent
  | _, _ => p.sent

def Party.act (p : Party cap σ) (op : Op) : Party cap σ where
  conn := (op.run p.conn).2
  history := p.history.after p.conn.toBlock op (op.run p.conn).1
  held := p.hold op (op.run p.conn).1
  sent := p.post op (op.run p.conn).1

end

variable {capA capB : Capacities} {σ τ : Type} [CongestionControl σ] [CongestionControl τ]

/-- The runs of a connected pair: any block opened actively, any block opened passively, then any local
operation of either side and any delivery of a packet the other side has sent. -/
inductive Joined : Party capA σ → Party capB τ → Prop
  | opened {c : Connection capA σ} {d : Connection capB τ} {h h' : History} {here peer here' : Endpoint}
      {iss iss' : U32} {now now' : ℕ} (hc : Reachable c h) (hd : Reachable d h')
      (ha : (c.activeOpen here peer iss now).1 = .ok ()) (hb : (d.passiveOpen here' iss' now').1 = .ok ()) :
      Joined { conn := (c.activeOpen here peer iss now).2 } { conn := (d.passiveOpen here' iss' now').2 }
  | left {a b} (op : Op) (ho : op.isLocal = true) : Joined a b → Joined (a.act op) b
  | right {a b} (op : Op) (ho : op.isLocal = true) : Joined a b → Joined a (b.act op)
  | toLeft {a b} (d : Datagram) (now : ℕ) (hd : d ∈ b.sent) : Joined a b → Joined (a.act (.receive (.ok d) now)) b
  | toRight {a b} (d : Datagram) (now : ℕ) (hd : d ∈ a.sent) : Joined a b → Joined a (b.act (.receive (.ok d) now))

inductive Genuine (iss : U32) (h : History) (seg : Wire.Tcp) : Prop
  | bare (hs : seg.fields.has tcpSyn = false) (hf : seg.fields.has tcpFin = false) (hp : seg.payload = [])
  | syn (hf : seg.fields.has tcpFin = false) (hq : seg.fields.sequence = iss) (hp : seg.payload = [])
  | data (pos : ℕ) (hs : seg.fields.has tcpSyn = false) (hf : seg.fields.has tcpFin = false)
      (hq : seg.fields.sequence = offset (iss + 1) pos) (hl : pos + seg.payload.length ≤ h.written.length)
      (hp : seg.payload = (h.written.drop pos).take seg.payload.length)
  | fin (hs : seg.fields.has tcpSyn = false) (hq : seg.fields.sequence = offset (iss + 1) h.written.length)
      (hp : seg.payload = []) (hd : h.finished = some h.written)

structure History.Grows (h h' : History) : Prop where
  written : h.written <+: h'.written
  finished : ∀ xs, h.finished = some xs → h'.finished = some xs ∧ h'.written = h.written

lemma History.Grows.refl (h : History) : h.Grows h := ⟨prefix_rfl, fun _ hx => ⟨hx, rfl⟩⟩

lemma History.Grows.trans {h h' h'' : History} (h1 : h.Grows h') (h2 : h'.Grows h'') : h.Grows h'' :=
  ⟨h1.written.trans h2.written, fun xs hx =>
    have h3 := h1.finished xs hx
    have h4 := h2.finished xs h3.1
    ⟨h4.1, h4.2.trans h3.2⟩⟩

lemma Genuine.mono {iss : U32} {h h' : History} {seg : Wire.Tcp} (hg : Genuine iss h seg) (hh : h.Grows h') :
    Genuine iss h' seg := by
  cases hg with
  | bare hs hf hp => exact .bare hs hf hp
  | syn hf hq hp => exact .syn hf hq hp
  | data pos hs hf hq hl hp =>
    obtain ⟨t, ht⟩ := hh.written
    refine .data pos hs hf hq (by rw [← ht, length_append]; omega) ?_
    rw [← ht, drop_append_of_le_length (by omega), take_append_of_le_length (by simp; omega)]
    exact hp
  | fin hs hq hp hd =>
    obtain ⟨h1, h2⟩ := hh.finished _ hd
    exact .fin hs (by rw [h2]; exact hq) hp (by rw [h1, h2])

section

variable {cap : Capacities} {e : Event} {es : List Event} {k k' : Block cap} {h : History} {iss : U32}

structure Block.Sending (iss : U32) (h : History) (k : Block cap) : Prop where
  sound : k.Sound
  sender : k.SenderOk h.written
  iss_eq : k.snd.iss = iss
  finished : ∀ xs, h.finished = some xs → xs = h.written ∧ k.snd.writeShutdown = true
  shut : k.state ≠ .closed → k.snd.writeShutdown = true → h.finished = some h.written

lemma Move.not_shut {xs : List UInt8} (hm : Move e k k') (he : e = .wrote xs) : k.snd.writeShutdown = false := by
  cases hm <;> cases he
  assumption

lemma Block.Sending.finished_eq_none (hk : k.Sending iss h) (hw : k.snd.writeShutdown = false) : h.finished = none := by
  refine Option.eq_none_iff_forall_ne_some.mpr fun xs hx => ?_
  rw [(hk.finished xs hx).2] at hw
  cases hw

lemma Move.sending (hm : Move e k k') (he : e ≠ .opened) (hk : k.Sending iss h) :
    k'.Sending iss (h.note e) ∧ h.Grows (h.note e) := by
  have hw := hm.writeShutdown_cases he
  have hclosed := hm.closed he hk.sound
  have hn := hm.sender hk.sound hk.sender
  have hi := (hm.iss_eq he).trans hk.iss_eq
  have hso := hm.sound hk.sound
  have hsame (h1 : (h.note e).written = h.written) (h2 : (h.note e).finished = h.finished)
      (h3 : k'.snd.writeShutdown = k.snd.writeShutdown) :
      k'.Sending iss (h.note e) ∧ h.Grows (h.note e) := by
    refine ⟨⟨hso, hn, hi, ?_, ?_⟩, h1 ▸ prefix_rfl, fun xs hx => ⟨h2 ▸ hx, h1⟩⟩ <;> rw [h1, h2, h3]
    · exact hk.finished
    · exact fun hs => hk.shut (mt hclosed hs)
  cases e with
  | opened => exact absurd rfl he
  | wrote xs =>
    have h0 := hm.not_shut rfl
    have hf := hk.finished_eq_none h0
    have h1 : k'.snd.writeShutdown = false := by simpa [h0] using hw
    exact ⟨⟨hso, hn, hi, by simp [History.note, hf], by simp [h1]⟩, prefix_append _ _, by simp [hf]⟩
  | shut =>
    obtain ⟨h1, hc⟩ : k'.snd.writeShutdown = true ∧ k.state ≠ .closed := by simpa using hw
    have hd : h.finished.getD h.written = h.written := by
      cases hf : h.finished with
      | none => rfl
      | some xs => exact (hk.finished xs hf).1
    refine ⟨⟨hso, hn, hi, ?_, ?_⟩, prefix_rfl, fun xs hx => ⟨by simp [History.note, hx], rfl⟩⟩
    · simp [History.note, hd, h1]
    · simp [History.note, hd]
  | ended =>
    rcases hw with ⟨h3, _⟩ | ⟨h, _⟩ | ⟨_, hc, h3⟩ | ⟨_, hs, h3⟩
    · exact hsame rfl rfl h3
    · cases h
    · exact ⟨⟨hso, hn, hi, fun xs hx => ⟨(hk.finished xs hx).1, h3⟩, fun h => absurd hc h⟩, .refl h⟩
    obtain ⟨u, v, m, hsend⟩ := hk.sender.sends (by simp [hs])
    have hp := hsend.phase
    simp only [hs, Phase] at hp
    exact hsame rfl rfl (h3.trans hp.2.2.2.1.symm)
  | _ => exact hsame rfl rfl (by simpa using hw)

lemma Moves.sending (hm : Moves es k k') (he : .opened ∉ es) (hk : k.Sending iss h) :
    k'.Sending iss (es.foldl History.note h) ∧ h.Grows (es.foldl History.note h) := by
  induction hm generalizing h with
  | nil => exact ⟨hk, .refl h⟩
  | cons hm _ ih =>
  simp only [mem_cons, not_or] at he
  obtain ⟨h1, h2⟩ := hm.sending (Ne.symm he.1) hk
  obtain ⟨h3, h4⟩ := ih he.2 h1
  exact ⟨h3, h2.trans h4⟩

lemma has_bare {p : Plan} (hf : p.fields.flags = tcpRst ∨ p.fields.flags = tcpAck) :
    p.fields.has tcpSyn = false ∧ p.fields.has tcpFin = false := by
  rcases hf with hf | hf <;> simp only [TcpFields.has, hf] <;> decide

lemma Planned.not_closed {p : Plan} (hp : Planned k.state k.snd p) (hn : p.kind ≠ .reset) (ha : p.kind ≠ .ack)
    (hs : k.SenderOk h.written) : ∃ u v m, Sends h.written k.state k.snd u v m := by
  refine hs.resolve_left fun ⟨hc, ht⟩ => ?_
  cases hp with
  | other hk => simp [hn, ha] at hk
  | syn _ hs | data _ hs | fin _ hs => simp [hc, opening, streaming] at hs
  | head hk | headFin hk => simp [hc, ht, streaming] at hk

section

variable {p : Plan} {u v m : ℕ} (hs : Sends h.written k.state k.snd u v m)
include hs

lemma Sends.syn_sequence (ho : k.state.opening = true)
    (hq : p.fields.sequence = k.snd.iss ∨ p.fields.sequence = k.snd.sndUna) : p.fields.sequence = k.snd.iss := by
  rcases hq with hq | hq
  · exact hq
  have hph := hs.phase
  have hu : u = 0 := by cases hc : k.state <;> simp_all [Phase, opening]
  rw [hq, hs.una_eq, hu, offset_zero]

lemma Sends.fin_sequence (hq : k.snd.sndNxt = k.snd.finSequence) (ho : k.state.streaming = true)
    (hn : k.snd.finAcknowledged = false) : k.snd.sndNxt = offset (k.snd.iss + 1) h.written.length := by
  have hph := hs.phase
  have hu : u + k.snd.txSize = h.written.length + 1 := by
    cases hc : k.state <;> simp_all [Phase, streaming]
  rw [hq, hs.finSequence_eq, hu, offset_iss]

lemma Sends.headFin_sequence (ho : k.state.opening = false) (hf : k.snd.finSent = true)
    (hz : k.snd.txSize = 0 ∨ k.snd.sndMax = k.snd.sndUna) :
    k.snd.sndUna = offset (k.snd.iss + 1) h.written.length := by
  obtain ⟨hu, hv, hm, hsz⟩ := hs.bounds cap.send_le
  obtain ⟨hw, hlt⟩ := (hs.finSent_iff cap.send_le).mp hf
  have hz : k.snd.txSize = 0 := by
    refine hz.resolve_right fun he => ?_
    rw [hs.max_eq, hs.una_eq] at he
    have := (offset_inj _ (hu.trans hv) (by omega)).mp he.symm
    omega
  have hph := hs.phase
  have hu : u = h.written.length + 1 := by
    cases hc : k.state <;> simp only [hc, Phase, opening, reduceCtorEq] at hph ho <;> omega
  rw [hs.una_eq, hu, offset_iss]

end

lemma Block.Sending.genuine {p : PreparedPacket} (hk : k.Sending iss h) (hd : Connection.Describes k p) :
    Genuine iss h p.packet.tcp := by
  have hrep := hk.sender.repeats hk.sound hd
  obtain ⟨ha, hf, hx⟩ := hd
  have hpl := hk.sound.plan ha
  have hempty (h0 : k.plan.payload = 0) : p.packet.tcp.payload = [] := by rw [hx, h0]; rfl
  have hdata (h0 : k.plan.payload ≠ 0) (hfl : k.plan.fields.flags = tcpAck ||| tcpPsh) : Genuine iss h p.packet.tcp := by
    have hlen : p.packet.tcp.payload.length = k.plan.payload := by rw [hx, Ring.length_slice]
    obtain ⟨pos, hr⟩ := hrep fun hc => h0 (by rw [← hlen, hc]; rfl)
    have hq := hr.sequence
    rw [hk.iss_eq] at hq
    exact .data pos (by rw [hf]; exact (Block.has_data hfl).1) (by rw [hf]; exact (Block.has_data hfl).2)
      hq hr.last hr.bytes
  have hsends := hpl.not_closed (h := h)
  cases hpl with
  | other _ hfl h0 =>
    exact .bare (by rw [hf]; exact (has_bare hfl).1) (by rw [hf]; exact (has_bare hfl).2) (hempty h0)
  | syn hkd ho hq hfl h0 =>
    obtain ⟨u, v, m, hs⟩ := hsends (by rcases hkd with h | h <;> simp [h]) (by rcases hkd with h | h <;> simp [h])
      hk.sender
    refine .syn (by rw [hf]; exact (Block.has_syn hfl).2.2) ?_ (hempty h0)
    rw [hf, hs.syn_sequence ho hq, hk.iss_eq]
  | head _ _ _ hfl h0 => exact hdata h0 hfl
  | data _ _ _ hfl _ h0 => exact hdata h0.ne' hfl
  | headFin hkd ho hq hfl h0 hfs hz =>
    obtain ⟨u, v, m, hs⟩ := hsends (by rcases hkd with h | h <;> simp [h.1]) (by rcases hkd with h | h <;> simp [h.1])
      hk.sender
    have hw := ((hs.finSent_iff cap.send_le).mp hfs).1
    refine .fin (by rw [hf]; exact (Block.has_fin hfl).1) ?_ (hempty h0) (hk.shut hs.state_ne hw)
    rw [hf, hq, hs.headFin_sequence ho hfs hz, hk.iss_eq]
  | fin hkd hstr hq hfl h0 hw hna he =>
  obtain ⟨u, v, m, hs⟩ := hsends (by simp [hkd]) (by simp [hkd]) hk.sender
  refine .fin (by rw [hf]; exact (Block.has_fin hfl).1) ?_ (hempty h0) (hk.shut hs.state_ne hw)
  rw [hf, hq, hs.fin_sequence he hstr hna, hk.iss_eq]

def History.Wrote (h : History) (p : ℕ) (x : UInt8) : Prop := h.written[p]? = some x

def History.Ends (h : History) (p : ℕ) : Prop := h.finished = some h.written ∧ p = h.written.length

variable {h' g : History} {returned : List UInt8}

lemma History.Grows.wrote {h : History} (hg : h.Grows h') {p : ℕ} {x : UInt8} (hw : h.Wrote p x) : h'.Wrote p x := by
  obtain ⟨t, ht⟩ := hg.written
  obtain ⟨hp, _⟩ := List.getElem?_eq_some_iff.mp hw
  rw [Wrote, ← ht, getElem?_append_left hp]
  exact hw

lemma History.Grows.ends {h : History} (hg : h.Grows h') {p : ℕ} (he : h.Ends p) : h'.Ends p := by
  obtain ⟨h1, h2⟩ := hg.finished _ he.1
  exact ⟨by rw [h1, h2], by rw [h2]; exact he.2⟩

structure Block.Receiving (iss : U32) (h : History) (returned : List UInt8) (k : Block cap) : Prop where
  receiver : h.written.length < 2 ^ 31 → k.ReceiverOk h.Wrote h.Ends returned
  irs_eq : k.state.synchronized = true → k.rcv.irs = iss

lemma Block.Receiving.mono {h : History} (hk : k.Receiving iss h returned)
    (hg : h.Grows h') : k.Receiving iss h' returned :=
  ⟨fun hl => (hk.receiver (hg.written.length_le.trans_lt hl)).mono (fun _ _ => hg.wrote) fun _ => hg.ends, hk.irs_eq⟩

def Event.Genuine (iss : U32) (h : History) : Event → Prop
  | .synchronized seq => seq = iss
  | .took seg _ => Tcp.Genuine iss h seg
  | _ => True

lemma ReceiverOk.next_le {n : ℕ} {a : Assembly UInt8 n} {records : ℕ}
    (ha : a.Ok h.Wrote h.Ends records) (hf : a.first = returned.length)
    (hc : ∀ p (hp : p < returned.length), h.Wrote p (returned[p])) : a.next ≤ h.written.length := by
  by_contra hn
  have hw : ∃ x, h.Wrote (a.next - 1) x := by
    by_cases hlt : a.next - 1 < a.first
    · exact ⟨_, hc (a.next - 1) (by omega)⟩
    · exact ⟨_, ha.filled (a.next - 1) (by omega) (by omega)⟩
  obtain ⟨x, hx⟩ := hw
  have := (List.getElem?_eq_some_iff.mp hx).1
  omega

lemma Genuine.carries {seg : Wire.Tcp} (hg : Genuine iss h seg) (hl : h.written.length < 2 ^ 31)
    (hk : k.ReceiverOk h.Wrote h.Ends returned) (hs : k.state.streaming = true) (hi : k.rcv.irs = iss) :
    (Event.took seg (k.rcv.rank seg.fields.sequence)).Carries h.Wrote h.Ends returned := by
  rcases hk.holds with ⟨hf, _⟩ | ⟨b, a, hr, ha, hfirst, hb, _⟩
  · simp [hf.1, streaming] at hs
  have hb := hb (synchronized_of_streaming hs)
  rw [hi] at hb
  subst hb
  have hnext := ReceiverOk.next_le ha hfirst hk.carried
  have hfl := ha.first_le
  have hrank (pos : ℕ) (hp : pos ≤ h.written.length) (hq : seg.fields.sequence = offset (iss + 1) pos) :
      (returned.length : ℤ) + k.rcv.rank seg.fields.sequence = pos := by
    have hz : (a.next + if a.closed = true then 1 else 0) ≤ 2 ^ 31 := by split <;> omega
    rw [Receiver.rank, hq, hr.nxt, hr.eof, hr.size, toInt_offset_sub _ (by omega) (by omega) (by omega), ← hfirst]
    omega
  cases hg with
  | bare _ hf hp | syn hf _ hp =>
    exact ⟨fun i hi => by simp [hp] at hi, fun h => by simp [hf] at h⟩
  | data pos _ hf hq hle hp =>
    refine ⟨fun i hi p hpos => ?_, fun h => by simp [hf] at h⟩
    rw [hrank pos (by omega) hq] at hpos
    obtain rfl : p = pos + i := by omega
    have hget := congrArg (·[i]?) hp
    rw [getElem?_take_of_lt hi, getElem?_drop, getElem?_eq_getElem hi] at hget
    exact hget.symm
  | fin _ hq hp hd =>
  refine ⟨fun i hi => by simp [hp] at hi, fun _ p hpos => ⟨hd, ?_⟩⟩
  rw [hrank _ le_rfl hq, hp] at hpos
  simpa using hpos

lemma Move.took_inv {seg : Wire.Tcp} {rank : ℤ} (hm : Move e k k') (he : e = .took seg rank) :
    k.state.streaming = true ∧ rank = k.rcv.rank seg.fields.sequence := by
  cases hm <;> cases he
  exact ⟨by assumption, rfl⟩

lemma Move.irs_eq (hm : Move e k k') (he : e ≠ .opened) (hs : k.Sound) (hg : e.Genuine iss h)
    (hk : k.state.synchronized = true → k.rcv.irs = iss) (hk' : k'.state.synchronized = true) : k'.rcv.irs = iss := by
  cases hm with
  | activeOpen | passiveOpen | rearm => exact absurd rfl he
  | terminate | relisten | expire => cases hk'
  | greet | cross => exact hg
  | connect => simpa [Block.establish, Block.synchronize, Event.Genuine] using hg
  | handshake due _ hl => simpa [Block.establish] using hk (by simp [hl, synchronized])
  | acknowledge ack due _ hst =>
    rw [Block.acknowledge_rcv]
    refine hk ?_
    rcases hst with h | h
    · exact synchronized_of_streaming h
    · rw [h]
      rfl
  | consume seg _ hst =>
    have hi := hk (synchronized_of_streaming hst)
    rcases k.consume_rcv seg with hr | hr <;> rw [hr]
    · exact hi
    · rw [Receiver.consume_irs, hi]
  | transmit due hp =>
    rw [(Block.complete_frame { k with plan := {} } k.plan due).2.2.1]
    rcases Block.complete_state_cases (k := { k with plan := {} }) (hs.plan hp) due with hst | ⟨hst, _⟩
    · exact hk (hst ▸ hk')
    · exact hk (synchronized_of_streaming hst)
  | _ => exact hk hk'

lemma Move.receiving (hm : Move e k k') (he : e ≠ .opened) (hs : k.Sound)
    (hk : k.Receiving iss g h.returned) (hg : e.Genuine iss g) : k'.Receiving iss g (h.note e).returned := by
  refine ⟨fun hl => hm.receiver he hs (hk.receiver hl) ?_, hm.irs_eq he hs hg hk.irs_eq⟩
  cases e with
  | took seg rank =>
    obtain ⟨hst, rfl⟩ := hm.took_inv rfl
    exact Genuine.carries hg hl (hk.receiver hl) hst (hk.irs_eq (synchronized_of_streaming hst))
  | _ => trivial

lemma Moves.receiving (hm : Moves es k k') (he : .opened ∉ es) (hs : k.Sound)
    (hk : k.Receiving iss g h.returned) (hg : ∀ e ∈ es, e.Genuine iss g) :
    k'.Receiving iss g (es.foldl History.note h).returned := by
  induction hm generalizing h with
  | nil => exact hk
  | cons hm _ ih =>
    simp only [mem_cons, not_or] at he
    exact ih he.2 (hm.sound hs) (hm.receiving (Ne.symm he.1) hs hk (hg _ (.head _))) fun e h => hg e (.tail _ h)

lemma Move.starts {C : ℕ → UInt8 → Prop} {F : ℕ → Prop} (hm : Move e k k')
    (he : e = .opened) (hs : k.Sound) (hk : k.SenderOk h.written) (hr : k.ReceiverOk C F returned) :
    k'.Sending k'.snd.iss {} ∧ k'.Receiving iss g [] := by
  have hn := hm.sender hs hk
  have hrcv (_ : g.written.length < 2 ^ 31) : k'.ReceiverOk g.Wrote g.Ends [] := hm.receiver_opened he hr
  have hso := hm.sound hs
  subst he
  refine ⟨⟨hso, hn, rfl, by simp, fun hc hw => ?_⟩, hrcv, ?_⟩
  · obtain ⟨u, v, m, hn⟩ := hn.sends hc
    have hph := hn.phase
    cases hm with
    | activeOpen | passiveOpen => cases hw
    | rearm _ _ hl =>
      simp only [hl, Phase] at hph
      exact absurd hw (by simp [hph.2.2.2.1])
  cases hm with
  | activeOpen | passiveOpen => intro h; cases h
  | rearm _ _ hl => simp [hl, synchronized, streaming]

lemma Block.Sending.agrees (hk : k.Sending iss h) (ha : h.Agrees h') : k.Sending iss h' := by
  obtain ⟨h1, h2, h3, h4, h5⟩ := hk
  rw [ha.written] at h2 h4 h5
  rw [ha.finished] at h4 h5
  exact ⟨h1, h2, h3, h4, h5⟩

lemma History.Grows.agrees {h h'' : History} (hg : h.Grows h') (ha : h'.Agrees h'') : h.Grows h'' := by
  obtain ⟨h1, h2⟩ := hg
  rw [ha.written] at h1 h2
  rw [ha.finished] at h2
  exact ⟨h1, h2⟩

end

section

variable {cap : Capacities} {ρ : Type} [CongestionControl ρ] {p : Party cap ρ} {op : Op} {iss : U32}

structure Party.Transmits (iss : U32) (p : Party cap ρ) : Prop where
  sending : p.conn.Sending iss p.history
  held : ∀ d ∈ p.held, Genuine iss p.history d.tcp
  sent : ∀ d ∈ p.sent, Genuine iss p.history d.tcp

def Op.Stays (op : Op) : Prop := op.isLocal = true ∨ ∃ d now, op = .receive (.ok d) now

omit [CongestionControl ρ] in
lemma Op.Stays.not_opened {k : Block cap} {r : Reply} (ho : op.Stays) : ¬ Allowed k op r .opened := by
  rintro ⟨_, _, _, h⟩
  rcases ho with ho | ⟨d, now, rfl⟩
  · rcases h with ⟨_, _, _, _, rfl⟩ | ⟨_, _, _, rfl⟩ | ⟨_, _, rfl⟩ <;> cases ho
  · simp at h

lemma Party.act_sending (hp : p.Transmits iss) (ho : op.Stays) :
    (p.act op).conn.Sending iss (p.act op).history ∧ p.history.Grows (p.act op).history := by
  obtain ⟨es, hm, ha, ht⟩ := run_performs hp.sending.sound op
  obtain ⟨h1, h2⟩ := hm.sending (fun h => ho.not_opened (ha _ h)) hp.sending
  exact ⟨h1.agrees (ht p.history), h2.agrees (ht p.history)⟩

lemma Party.act_held (hp : p.Transmits iss) (ho : op.Stays) :
    ∀ d ∈ (p.act op).held, Genuine iss (p.act op).history d.tcp := by
  obtain ⟨hs, hg⟩ := Party.act_sending hp ho
  have hkeep (d : Datagram) (hd : d ∈ p.held) : Genuine iss (p.act op).history d.tcp := (hp.held d hd).mono hg
  intro d hd
  cases op with
  | prepare size now =>
    rcases hr : (p.conn.prepare size now).1 with _ | _ | q
    iterate 2 exact hkeep d (by simpa [act, Party.hold, Op.run, hr] using hd)
    obtain ⟨_, _, _, hdesc⟩ := Connection.prepare_refines hp.sending.sound size now
    have hq : q.packet = d := by simpa [act, Party.hold, Op.run, hr] using hd
    rw [← hq]
    exact hs.genuine (hdesc q hr)
  | completeTransmit token accepted now =>
    rcases hr : (p.conn.completeTransmit token accepted now).1 with _ | _
    · exact hkeep d (by simpa [act, Party.hold, Op.run, hr] using hd)
    · simp [act, Party.hold, Op.run, hr] at hd
  | _ => exact hkeep d hd

lemma Party.act_sent (hp : p.Transmits iss) (ho : op.Stays) :
    ∀ d ∈ (p.act op).sent, Genuine iss (p.act op).history d.tcp := by
  obtain ⟨_, hg⟩ := Party.act_sending hp ho
  have hpost : (p.act op).sent = p.sent ∨ (p.act op).sent = p.held.toList ++ p.sent := by
    simp only [act, post]
    split
    · exact .inr rfl
    · exact .inl rfl
  intro d hd
  rcases hpost with h | h <;> rw [h] at hd
  · exact (hp.sent d hd).mono hg
  rcases mem_append.mp hd with hd | hd
  · exact (hp.held d (by simpa using hd)).mono hg
  · exact (hp.sent d hd).mono hg

lemma Party.act_transmits (hp : p.Transmits iss) (ho : op.Stays) : (p.act op).Transmits iss :=
  ⟨(act_sending hp ho).1, act_held hp ho, act_sent hp ho⟩

lemma Genuine.sequence_eq {g : History} {seg : Wire.Tcp} (hg : Genuine iss g seg)
    (hs : seg.fields.has tcpSyn = true) : seg.fields.sequence = iss := by
  cases hg with
  | syn _ hq => exact hq
  | bare h | data _ h | fin h => simp [hs] at h

lemma Party.act_receiving {g : History} (hs : p.conn.Sound) (hp : p.conn.Receiving iss g p.history.returned)
    (ho : op.isLocal = true ∨ ∃ d now, op = .receive (.ok d) now ∧ Genuine iss g d.tcp) :
    (p.act op).conn.Receiving iss g (p.act op).history.returned := by
  have hstay : op.Stays := ho.imp_right fun ⟨d, now, h, _⟩ => ⟨d, now, h⟩
  obtain ⟨es, hm, ha, ht⟩ := run_performs hs op
  have hg : ∀ e ∈ es, e.Genuine iss g := by
    intro e he
    have hal := ha e he
    cases e with
    | synchronized seq =>
      obtain ⟨d, now, rfl, rfl, hsyn⟩ := hal
      obtain ⟨_, _, hop, hgen⟩ := ho.resolve_left (by simp [Op.isLocal])
      cases hop
      exact hgen.sequence_eq hsyn
    | took seg rank =>
      obtain ⟨d, now, rfl, rfl, _⟩ := hal
      obtain ⟨_, _, hop, hgen⟩ := ho.resolve_left (by simp [Op.isLocal])
      cases hop
      exact hgen
    | _ => trivial
  have hk := hm.receiving (h := p.history) (fun h => hstay.not_opened (ha _ h)) hs hp hg
  rwa [(ht p.history).returned] at hk

variable {c : Connection cap ρ}

lemma activeOpen_move {here peer : Endpoint} {now : ℕ}
    (h : (c.activeOpen here peer iss now).1 = .ok ()) :
    Move .opened c.toBlock (c.activeOpen here peer iss now).2.toBlock := by
  unfold Connection.activeOpen at h ⊢
  split_ifs at h ⊢ with hb
  simp only [Bool.or_eq_true, bne_iff_ne, not_or, not_not, Bool.not_eq_true] at hb
  exact .activeOpen here peer iss hb.1.1 hb.1.2

lemma passiveOpen_move {here : Endpoint} {now : ℕ}
    (h : (c.passiveOpen here iss now).1 = .ok ()) :
    Move .opened c.toBlock (c.passiveOpen here iss now).2.toBlock := by
  unfold Connection.passiveOpen at h ⊢
  split_ifs at h ⊢ with hb
  simp only [Bool.or_eq_true, bne_iff_ne, not_or, not_not, Bool.not_eq_true] at hb
  exact .passiveOpen here iss hb.1.1 hb.1.2

end

structure Flow (iss : U32) (p : Party capA σ) (q : Party capB τ) : Prop where
  transmits : p.Transmits iss
  receiving : q.conn.Receiving iss p.history q.history.returned

section

variable {iss : U32} {p : Party capA σ} {q : Party capB τ} {op : Op}

omit [CongestionControl τ] in
lemma Flow.sender (hf : Flow iss p q) (ho : op.Stays) : Flow iss (p.act op) q :=
  ⟨Party.act_transmits hf.transmits ho, hf.receiving.mono (Party.act_sending hf.transmits ho).2⟩

omit [CongestionControl σ] in
lemma Flow.receiver (hf : Flow iss p q) (hs : q.conn.Sound)
    (ho : op.isLocal = true ∨ ∃ d now, op = .receive (.ok d) now ∧ d ∈ p.sent) : Flow iss p (q.act op) :=
  ⟨hf.transmits, Party.act_receiving hs hf.receiving
    (ho.imp_right fun ⟨d, now, h, hd⟩ => ⟨d, now, h, hf.transmits.sent d hd⟩)⟩

/-- What `q` has read is a prefix of what `p` wrote, and all of what `p` had written when it shut its
side down once `q` sees the end of the stream. -/
def Delivers (p : Party capA σ) (q : Party capB τ) : Prop :=
  q.history.returned <+: p.history.written ∧
    ∀ size, size ≠ 0 → (q.conn.read size).1 = .ok [] → p.history.finished = some q.history.returned

omit [CongestionControl σ] [CongestionControl τ] in
lemma read_eof {c : Connection capB τ} {size : ℕ} (hz : size ≠ 0) (hr : (c.read size).1 = .ok []) :
    c.failure = .none ∧ c.rcv.rxSize = 0 ∧ c.rcv.eof = true := by
  unfold Connection.read at hr
  split_ifs at hr with hb hfail h0 h1
  · exact ⟨by simpa using hfail, h0, h1⟩
  have hlen : (c.rcv.peek size).length = 0 := by simpa using hr
  rw [Receiver.peek, Ring.length_slice] at hlen
  omega

omit [CongestionControl σ] [CongestionControl τ] in
lemma Flow.delivers (hf : Flow iss p q) (hl : p.history.written.length < 2 ^ 31) : Delivers p q := by
  have hk := hf.receiving.receiver hl
  have hpre : q.history.returned <+: p.history.written := by
    rw [prefix_iff_getElem?]
    exact fun i hi => hk.carried i hi
  refine ⟨hpre, fun size hz hr => ?_⟩
  obtain ⟨hfail, h0, heof⟩ := read_eof hz hr
  rcases hk.holds with ⟨hfd, _⟩ | ⟨b, a, hrep, ha, hfirst, _⟩
  · exact absurd hfail hfd.2
  obtain ⟨_, hfin, hend⟩ := ha.closed (hrep.eof ▸ heof)
  have hle := ha.first_le
  have hsize := hrep.size
  rw [hfin, hpre.eq_of_length (by omega)]

end

variable {a : Party capA σ} {b : Party capB τ}

lemma Joined.flows (hj : Joined a b) : ∃ iss iss', Flow iss a b ∧ Flow iss' b a := by
  induction hj with
  | opened hc hd ha hb =>
    obtain ⟨h1, h2⟩ := (activeOpen_move ha).starts rfl hc.sound hc.sender hc.receiver
    obtain ⟨h3, h4⟩ := (passiveOpen_move hb).starts rfl hd.sound hd.sender hd.receiver
    exact ⟨_, _, ⟨⟨h1, by simp, by simp⟩, h4⟩, ⟨⟨h3, by simp, by simp⟩, h2⟩⟩
  | left op ho _ ih =>
    obtain ⟨iss, iss', h1, h2⟩ := ih
    exact ⟨iss, iss', h1.sender (.inl ho), h2.receiver h1.transmits.sending.sound (.inl ho)⟩
  | right op ho _ ih =>
    obtain ⟨iss, iss', h1, h2⟩ := ih
    exact ⟨iss, iss', h1.receiver h2.transmits.sending.sound (.inl ho), h2.sender (.inl ho)⟩
  | toLeft d now hd _ ih =>
    obtain ⟨iss, iss', h1, h2⟩ := ih
    exact ⟨iss, iss', h1.sender (.inr ⟨d, now, rfl⟩), h2.receiver h1.transmits.sending.sound (.inr ⟨d, now, rfl, hd⟩)⟩
  | toRight d now hd _ ih =>
    obtain ⟨iss, iss', h1, h2⟩ := ih
    exact ⟨iss, iss', h1.receiver h2.transmits.sending.sound (.inr ⟨d, now, rfl, hd⟩), h2.sender (.inr ⟨d, now, rfl⟩)⟩

/-- Stream integrity: in every state a connected pair reaches, a direction that carries fewer than
2^31 bytes delivers them. -/
theorem stream_integrity (hj : Joined a b) :
    (a.history.written.length < 2 ^ 31 → Delivers a b) ∧ (b.history.written.length < 2 ^ 31 → Delivers b a) := by
  obtain ⟨_, _, h1, h2⟩ := hj.flows
  exact ⟨h1.delivers, h2.delivers⟩

inductive Choice
  | left (op : Op) | right (op : Op) | toLeft (i now : ℕ) | toRight (i now : ℕ)

def Choice.run : Choice → Party capA σ × Party capB τ → Party capA σ × Party capB τ
  | .left op, (a, b) => if op.isLocal then (a.act op, b) else (a, b)
  | .right op, (a, b) => if op.isLocal then (a, b.act op) else (a, b)
  | .toLeft i now, (a, b) => (b.sent[i]?.elim a fun d => a.act (.receive (.ok d) now), b)
  | .toRight i now, (a, b) => (a, a.sent[i]?.elim b fun d => b.act (.receive (.ok d) now))

lemma Joined.choose (hj : Joined a b) (x : Choice) : Joined (x.run (a, b)).1 (x.run (a, b)).2 := by
  cases x with
  | left op =>
    by_cases ho : op.isLocal = true
    · simpa only [Choice.run, if_pos ho] using hj.left op ho
    · simpa only [Choice.run, if_neg ho] using hj
  | right op =>
    by_cases ho : op.isLocal = true
    · simpa only [Choice.run, if_pos ho] using hj.right op ho
    · simpa only [Choice.run, if_neg ho] using hj
  | toLeft i now =>
    cases hd : b.sent[i]? with
    | none => simpa only [Choice.run, hd, Option.elim_none] using hj
    | some d => simpa only [Choice.run, hd, Option.elim_some] using hj.toLeft d now (mem_of_getElem? hd)
  | toRight i now =>
  cases hd : a.sent[i]? with
  | none => simpa only [Choice.run, hd, Option.elim_none] using hj
  | some d => simpa only [Choice.run, hd, Option.elim_some] using hj.toRight d now (mem_of_getElem? hd)

lemma Joined.schedule (hj : Joined a b) (xs : List Choice) :
    Joined (xs.foldl (fun s x => x.run s) (a, b)).1 (xs.foldl (fun s x => x.run s) (a, b)).2 := by
  induction xs generalizing a b with
  | nil => exact hj
  | cons x xs ih => exact ih (hj.choose x)

def talk : List Choice :=
  let send (f : Op → Choice) (token now : ℕ) : List Choice :=
    [f (.prepare 1500 now), f (.completeTransmit token true now)]
  [send .left 1 0, [.toRight 0 1], send .right 1 1, [.toLeft 0 2, .left (.write [1, 2, 3, 4, 5])],
    send .left 2 3, send .left 3 3, [.toRight 0 4, .toRight 0 4, .toRight 1 4, .left .shutdownWrite, .right (.read 3)],
    send .left 4 5, [.toRight 0 6, .right (.read 8)]].flatten

def talkers : Party dialCapacities NewReno × Party dialCapacities NewReno :=
  let here : Endpoint := ⟨.v4 10 0 0 1, 1000⟩
  let there : Endpoint := ⟨.v4 10 0 0 2, 80⟩
  ({ conn := (Connection.fresh.activeOpen here there 4294967290 0).2 },
    { conn := (Connection.fresh.passiveOpen there 500 0).2 })

def talked : Party dialCapacities NewReno × Party dialCapacities NewReno :=
  talk.foldl (fun s x => x.run s) talkers

theorem stream_integrity_talked : talked.2.history.returned = [1, 2, 3, 4, 5] ∧ (talked.2.conn.read 8).1 = .ok [] ∧
      talked.1.history.finished = some talked.2.history.returned := by
  have hj : Joined talked.1 talked.2 :=
    (Joined.opened (.fresh) (.fresh) (by decide +kernel) (by decide +kernel)).schedule talk
  have hr : (talked.2.conn.read 8).1 = .ok [] := by decide +kernel
  exact ⟨by decide +kernel, hr, ((stream_integrity hj).1 (by decide +kernel)).2 8 (by decide) hr⟩

end ObfuscationKernel.Net.Tcp
