import ObfuscationKernel.Net.Operations

/-! The sender against an arbitrary peer: its sequence numbers as distances from the
initial one, and the stream bytes its ring keeps. -/

namespace ObfuscationKernel.Net.Tcp

open ObfuscationKernel.Core Library Library.Serial Wire Tcp.Block Sender State

/-- What a sender in `state` may have acknowledged (`u`) and sent (`m`) of the sequence space in which
the SYN is number 0, stream byte `p` is number `p + 1` and the FIN follows the last byte. -/
def Phase (state : State) (len size u m : ℕ) (shut acked : Bool) : Prop :=
  match state with
  | .closed => False
  | .listen => u = 0 ∧ m = 0 ∧ len = 0 ∧ shut = false ∧ acked = false
  | .synSent | .synReceived => u = 0 ∧ m ≤ 1 ∧ len = 0 ∧ shut = false ∧ acked = false
  | .established | .closeWait => 0 < u ∧ u + size = len + 1 ∧ m ≤ len + 1 ∧ acked = false
  | .finWait1 | .closing | .lastAck => 0 < u ∧ u + size = len + 1 ∧ m = len + 2 ∧ shut = true ∧ acked = false
  | .finWait2 | .timeWait => u = len + 2 ∧ m = len + 2 ∧ size = 0 ∧ shut = true ∧ acked = true

structure Sends {n : ℕ} (w : List UInt8) (state : State) (s : Sender n) (u v m : ℕ) : Prop where
  una_eq : s.sndUna = offset s.iss u
  nxt_eq : s.sndNxt = offset s.iss v
  max_eq : s.sndMax = offset s.iss m
  una_le : u ≤ v
  nxt_le : v ≤ m
  timer : s.rtx.active = true ↔ u ≠ m
  keeps : s.tx.Keeps w s.txHead s.txSize
  phase : Phase state w.length s.txSize u m s.writeShutdown s.finAcknowledged

variable {cap : Capacities}

def Block.SenderOk (w : List UInt8) (k : Block cap) : Prop :=
  k.state = .closed ∧ k.snd.rtx.active = false ∨ ∃ u v m, Sends w k.state k.snd u v m

namespace Sends

variable {n : ℕ} {w : List UInt8} {state : State} {s : Sender n} {u v m : ℕ}

lemma sent_le (h : Sends w state s u v m) : m ≤ u + s.txSize + 1 := by
  have hp := h.phase
  cases state <;> simp only [Phase] at hp <;> omega

lemma state_ne (h : Sends w state s u v m) : state ≠ .closed := by
  rintro rfl
  exact h.phase

lemma una_add (h : Sends w state s u v m) (i : ℕ) : s.sndUna + BitVec.ofNat 32 i = offset s.iss (u + i) := by
  rw [h.una_eq, add_ofNat]

lemma finSequence_eq (h : Sends w state s u v m) : s.finSequence = offset s.iss (u + s.txSize) :=
  h.una_add s.txSize

lemma idle (h : Sends w state s u v m) (hu : u = m) : Sends w state { s with rtx := {} } u v m :=
  { h with timer := by simp [hu] }

lemma retime (h : Sends w state s u v m) (deadline retries : ℕ) :
    Sends w state { s with rtx := ⟨s.rtx.active, deadline, retries⟩ } u v m :=
  { h with }

lemma rewind (h : Sends w state s u v m) {i : ℕ} (hu : u ≤ i) (hm : i ≤ m) :
    Sends w state { s with sndNxt := offset s.iss i } u i m :=
  { h with nxt_eq := rfl, una_le := hu, nxt_le := hm }

lemma start {s : Sender n} (hk : s.tx.Keeps [] s.txHead s.txSize) (hr : s.rtx.active = false)
    (hp : Phase state 0 s.txSize 0 0 s.writeShutdown s.finAcknowledged) (iss : U32) :
    Sends [] state (s.startSequence iss) 0 0 0 :=
  ⟨(offset_zero iss).symm, (offset_zero iss).symm, (offset_zero iss).symm, le_rfl, le_rfl,
    by simp [startSequence, hr], hk, hp⟩

lemma launch (h : Sends w state s u v m) (hs : state.opening = true) (due : ℕ) :
    Sends w state ((s.launch (offset s.iss 1)).arm due) 0 1 1 := by
  have hp := h.phase
  have hu : u = 0 ∧ Phase state w.length s.txSize 0 1 s.writeShutdown s.finAcknowledged := by
    cases state <;> simp_all [opening, Phase]
  have ha := arm_active (s.launch (offset s.iss 1)) due
  rw [arm_eq]
  refine ⟨?_, rfl, rfl, by omega, le_rfl, by simp [ha], h.keeps, hu.2⟩
  rw [← hu.1]
  exact h.una_eq

variable (hn : n ≤ 65535)
include hn

lemma bounds (h : Sends w state s u v m) : u ≤ v ∧ v ≤ m ∧ m ≤ u + s.txSize + 1 ∧ s.txSize ≤ 65535 :=
  ⟨h.una_le, h.nxt_le, h.sent_le, h.keeps.size_le.trans hn⟩

lemma finSent_iff (h : Sends w state s u v m) : s.finSent = true ↔ s.writeShutdown = true ∧ u + s.txSize < m := by
  obtain ⟨hu, hv, hm, hs⟩ := h.bounds hn
  rw [finSent, h.finSequence_eq, h.max_eq, after_offset _ (by omega) (by omega)]
  simp

lemma finInFlight_iff (h : Sends w state s u v m) :
    s.finInFlight = true ↔ s.writeShutdown = true ∧ v = u + s.txSize + 1 := by
  obtain ⟨hu, hv, hm, hs⟩ := h.bounds hn
  rw [finInFlight, h.finSequence_eq, add_one, h.nxt_eq, Bool.and_eq_true, beq_iff_eq,
    offset_inj _ (by omega) (by omega)]

lemma sentData_eq (h : Sends w state s u v m) : s.sentData = v - u - (if s.finInFlight then 1 else 0) := by
  obtain ⟨hu, hv, hm, hs⟩ := h.bounds hn
  have ho : s.outstanding = BitVec.ofNat 32 (v - u) := by
    rw [outstanding, h.nxt_eq, h.una_eq, offset_sub _ hu]
  rw [sentData, ho]
  split
  · next hf =>
    have hf := (h.finInFlight_iff hn).mp hf
    obtain ⟨d, hd⟩ := Nat.exists_eq_add_of_lt (show 0 < v - u by omega)
    simp
    omega
  · have hz : BitVec.ofNat 32 (v - u) - 0 = BitVec.ofNat 32 (v - u) := BitVec.sub_zero _
    rw [hz, BitVec.toNat_ofNat, Nat.mod_eq_of_lt (by omega), Nat.sub_zero]

lemma acked (h : Sends w state s u v m) {ack : U32} (h1 : after ack s.sndUna = true)
    (h2 : after ack s.sndMax = false) : ∃ y, ack = offset s.iss y ∧ u < y ∧ y ≤ m := by
  obtain ⟨hu, hv, hm, hs⟩ := h.bounds hn
  obtain ⟨hd, hd'⟩ := (after_iff _ _).mp h1
  have he : ack = offset s.iss (u + (ack - s.sndUna).toNat) := by
    rw [← offset_add, ← h.una_eq, offset_distance]
  refine ⟨_, he, by omega, ?_⟩
  rw [he, h.max_eq, after_offset _ (by omega) (by omega)] at h2
  simpa using h2

lemma release (h : Sends w state s u v m) {y r : ℕ} (hu : u < y) (hy : y ≤ m) (hr : r ≤ s.txSize)
    {next : State} {fin : Bool} (due : ℕ)
    (hp : Phase next w.length (s.txSize - r) y m s.writeShutdown (s.finAcknowledged || fin)) :
    Sends w next (s.release (offset s.iss y) r fin due) y (max v y) m := by
  obtain ⟨hu', hv, hm, hs⟩ := h.bounds hn
  refine ⟨rfl, ?_, h.max_eq, le_max_right _ _, max_le hv hy, ?_, h.keeps.release hr, hp⟩
  · simp only [Sender.release, h.nxt_eq]
    rw [before_offset _ (by omega) (by omega)]
    by_cases hc : v < y
    · simp [hc, max_eq_right hc.le]
    · simp [hc, max_eq_left (Nat.le_of_not_lt hc)]
  simp only [Sender.release, h.max_eq, beq_iff_eq, offset_inj s.iss hy (show m - y < 2 ^ 32 by omega)]
  by_cases hc : y = m
  · simp [hc]
  rw [if_neg hc]
  simp only [h.timer, hc, ne_eq, not_false_eq_true, iff_true]
  omega

lemma advance (h : Sends w state s u v m) {i : ℕ} {next : State} (due : ℕ) (hu : u < i)
    (hi : i ≤ u + s.txSize + 1)
    (hp : Phase next w.length s.txSize u (max m i) s.writeShutdown s.finAcknowledged) :
    Sends w next ((s.advance (offset s.iss i)).arm due) u i (max m i) := by
  obtain ⟨hu', hv, hm, hs⟩ := h.bounds hn
  have ha := Sender.arm_active (s.advance (offset s.iss i)) due
  rw [Sender.arm_eq]
  refine ⟨h.una_eq, rfl, ?_, hu.le, le_max_right _ _, ?_, h.keeps, hp⟩
  · simp only [Sender.advance, h.max_eq]
    rw [after_offset _ (by omega) (by omega)]
    by_cases hc : m < i
    · simp [hc, max_eq_right hc.le]
    · simp [hc, max_eq_left (Nat.le_of_not_lt hc)]
  · simp only [ha, true_iff]
    omega

end Sends

namespace Block

variable {w : List UInt8} {k : Block cap} {u v m y : ℕ}

lemma ackClosesFin_iff (h : Sends w k.state k.snd u v m) (hu : u < y) (hy : y ≤ m) :
    k.ackClosesFin (offset k.snd.iss y) = true ↔ k.snd.writeShutdown = true ∧ y = u + k.snd.txSize + 1 := by
  obtain ⟨hu', hv, hm, hs⟩ := h.bounds cap.send_le
  rw [ackClosesFin, Bool.and_eq_true, h.finSent_iff cap.send_le, beq_iff_eq, h.finSequence_eq, add_one,
    offset_inj _ (show y ≤ u + k.snd.txSize + 1 by omega) (by omega)]
  constructor
  · exact fun h => ⟨h.1.1, h.2⟩
  · rintro ⟨h1, rfl⟩
    exact ⟨⟨h1, by omega⟩, rfl⟩

lemma acknowledge_eq (h : k.ackIgnored (offset k.snd.iss y) = false) (due : ℕ) : k.acknowledge (offset k.snd.iss y) due =
      if k.ackClosesFin (offset k.snd.iss y) then
        ({ k with snd := k.snd.release (offset k.snd.iss y) (k.ackReleases (offset k.snd.iss y)) true due }
          : Block cap).enter k.state.finAcked
      else
        { k with snd := k.snd.release (offset k.snd.iss y) (k.ackReleases (offset k.snd.iss y)) false due } := by
  simp only [acknowledge, h, Bool.false_eq_true, if_false]
  split <;> simp_all

lemma ackReleases_eq (h : Sends w k.state k.snd u v m) (hs : k.state.opening = false) (hu : u < y) (hy : y ≤ m) :
    k.ackReleases (offset k.snd.iss y) = min (y - u) k.snd.txSize := by
  obtain ⟨hu', hv, hm, hz⟩ := h.bounds cap.send_le
  have ho : (k.state == .synSent || k.state == .synReceived) = false := by
    cases hc : k.state <;> simp_all [opening]
  have hd : offset k.snd.iss y - k.snd.sndUna = BitVec.ofNat 32 (y - u) := by
    rw [h.una_eq, offset_sub _ hu.le]
  simp only [ackReleases, ho, hd]
  by_cases hf : k.ackClosesFin (offset k.snd.iss y) = true
  · have he := (ackClosesFin_iff h hu hy).mp hf
    have hb : BitVec.ofNat 32 (y - u) = BitVec.ofNat 32 k.snd.txSize + 1#32 := by
      rw [show y - u = k.snd.txSize + 1 by omega, BitVec.ofNat_add]
    simp [hf, hb]
    omega
  · simp [hf]
    omega

lemma SenderOk.acknowledge (h : Sends w k.state k.snd u v m) (hs : k.state.streaming = true ∨ k.state = .timeWait)
    {ack : U32} (ha : k.ackIgnored ack = false) (due : ℕ) : (k.acknowledge ack due).SenderOk w := by
  have ha' : after ack k.snd.sndUna = true ∧ after ack k.snd.sndMax = false := by
    simpa [ackIgnored] using ha
  obtain ⟨y, rfl, hu, hy⟩ := h.acked cap.send_le ha'.1 ha'.2
  have ho := opening_eq_false hs
  have hm := h.sent_le
  have hp := h.phase
  rw [acknowledge_eq ha]
  by_cases hf : k.ackClosesFin (offset k.snd.iss y) = true
  · obtain ⟨hw, he⟩ := (ackClosesFin_iff h hu hy).mp hf
    have hym : y = m := by omega
    have hr : k.ackReleases (offset k.snd.iss y) = k.snd.txSize := by
      rw [ackReleases_eq h ho hu hy]
      omega
    have hrel (next : State) (hq : Phase next w.length 0 y m true true) :
        Sends w next (k.snd.release (offset k.snd.iss y) k.snd.txSize true due) y (max v y) m :=
      h.release cap.send_le hu hy le_rfl due (by simpa [hw] using hq)
    have hst : k.state = .finWait1 ∨ k.state = .closing ∨ k.state = .lastAck := by
      cases hc : k.state <;> simp only [hc, Phase, opening] at hp ho <;> grind
    rw [if_pos hf, hr]
    rcases hst with hc | hc | hc <;> simp only [hc, Phase] at hp ⊢
    · exact .inr ⟨_, _, _, hrel .finWait2 ⟨by omega, by omega, rfl, rfl, rfl⟩⟩
    · exact .inr ⟨_, _, _, (hrel .timeWait ⟨by omega, by omega, rfl, rfl, rfl⟩).idle hym⟩
    · refine .inl ⟨rfl, ?_⟩
      simp [enter, finAcked, release, h.max_eq, hym]
  have hn := fun hw he => hf ((ackClosesFin_iff h hu hy).mpr ⟨hw, he⟩)
  have hr := ackReleases_eq h ho hu hy
  rw [if_neg hf, hr]
  refine .inr ⟨_, _, _, h.release cap.send_le hu hy (Nat.min_le_right _ _) due ?_⟩
  cases hc : k.state <;> simp only [hc, Phase, opening] at hp ho ⊢ <;> grind

lemma SenderOk.establish (h : Sends w k.state k.snd u v m) (ho : k.state.opening = true)
    (ha : k.snd.sndMax = k.snd.iss + 1) (due : ℕ) : (k.establish (k.snd.iss + 1) due).SenderOk w := by
  have h1 : k.snd.iss + 1 = offset k.snd.iss 1 := by rw [← add_one, offset_zero]
  have hp : u = 0 ∧ m ≤ 1 ∧ w.length = 0 ∧ k.snd.writeShutdown = false ∧ k.snd.finAcknowledged = false := by
    have hp := h.phase
    cases hc : k.state <;> simp_all [Phase, opening]
  obtain ⟨rfl, hm, hl, hw, hf⟩ := hp
  have hz := h.keeps.size_le_length
  obtain rfl : m = 1 := by
    rw [h.max_eq, h1, offset_inj _ hm (by omega)] at ha
    exact ha
  rw [h1]
  have hi : k.ackIgnored (offset k.snd.iss 1) = false := by
    rw [ackIgnored, h.una_eq, h.max_eq, after_offset _ (by omega) (by omega), after_offset _ (by omega) (by omega)]
    rfl
  have hc : k.ackClosesFin (offset k.snd.iss 1) = false := by simp [ackClosesFin, finSent, hw]
  rw [establish, acknowledge_eq hi, if_neg (by simp [hc])]
  refine .inr ⟨_, _, _, h.release cap.send_le one_pos le_rfl (Nat.min_le_right _ _) due ?_⟩
  refine ⟨one_pos, ?_, by omega, by simp [hf]⟩
  omega

variable {p : Plan}

lemma stop_data (hf : p.fields.flags = tcpAck ||| tcpPsh) : stop p = p.fields.sequence + BitVec.ofNat 32 p.payload := by
  have hb : p.fields.has (tcpSyn ||| tcpFin) = false := by rw [TcpFields.has, hf]; decide
  rw [stop, hb]
  exact BitVec.add_zero _

lemma stop_mark (hf : p.fields.has (tcpSyn ||| tcpFin) = true) (hp : p.payload = 0) : stop p = p.fields.sequence + 1 := by
  rw [stop, hf, hp]
  simp

lemma has_syn (hf : p.fields.flags = tcpSyn ∨ p.fields.flags = tcpSyn ||| tcpAck) :
    p.fields.has tcpSyn = true ∧ p.fields.has (tcpSyn ||| tcpFin) = true ∧ p.fields.has tcpFin = false := by
  rcases hf with hf | hf <;> simp only [TcpFields.has, hf] <;> decide

lemma has_fin (hf : p.fields.flags = tcpFin ||| tcpAck) :
    p.fields.has tcpSyn = false ∧ p.fields.has (tcpSyn ||| tcpFin) = true ∧ p.fields.has tcpFin = true := by
  simp only [TcpFields.has, hf]
  decide

lemma has_data (hf : p.fields.flags = tcpAck ||| tcpPsh) : p.fields.has tcpSyn = false ∧ p.fields.has tcpFin = false := by
  simp only [TcpFields.has, hf]
  decide

section

variable {p : Plan} (h : Sends w k.state k.snd u v m) (due : ℕ)
include h

lemma completeSyn_ok (hs : k.state.opening = true)
    (hq : p.fields.sequence = k.snd.iss ∨ p.fields.sequence = k.snd.sndUna)
    (hf : p.fields.flags = tcpSyn ∨ p.fields.flags = tcpSyn ||| tcpAck) (hp : p.payload = 0) :
    (k.completeSyn p due).SenderOk w := by
  have hu : u = 0 := by
    have hp := h.phase
    cases hc : k.state <;> simp_all [Phase, opening]
  have hstop : stop p = offset k.snd.iss 1 := by
    have hq : p.fields.sequence = offset k.snd.iss 0 := by
      rcases hq with hq | hq
      · rw [hq, offset_zero]
      · rw [hq, h.una_eq, hu]
    rw [stop_mark (has_syn hf).2.1 hp, hq, add_one]
  simp only [completeSyn, hstop]
  split
  · exact .inr ⟨_, _, _, h.launch hs due⟩
  · exact .inr ⟨_, _, _, h.retime due _⟩

lemma completeRetry_ok {i : ℕ} (hy : p.fields.has tcpSyn = false) (hs : stop p = offset k.snd.iss i)
    (hu : u ≤ i) (hm : i ≤ m) : (k.completeRetry p due).SenderOk w := by
  simp only [completeRetry, hy, hs]
  exact .inr ⟨_, _, _, (h.retime due _).rewind hu hm⟩

lemma sentData_of_room (hp : 0 < p.payload) (hn : k.snd.sentData + p.payload ≤ k.snd.txSize) :
    k.snd.sentData = v - u ∧ v + p.payload ≤ u + k.snd.txSize := by
  have hd := h.sentData_eq cap.send_le
  have hu := h.una_le
  have hf : k.snd.finInFlight = false := by
    by_contra hc
    have hc : k.snd.finInFlight = true := by simpa using hc
    have hv := (h.finInFlight_iff cap.send_le).mp hc
    simp only [hc, if_true] at hd
    omega
  simp only [hf, Bool.false_eq_true, if_false] at hd
  omega

lemma completeData_ok (hk : p.kind = .data ∨ p.kind = .probe) (hs : k.state.streaming = true)
    (hq : p.fields.sequence = k.snd.sndNxt) (hf : p.fields.flags = tcpAck ||| tcpPsh)
    (hp : 0 < p.payload) (hn : k.snd.sentData + p.payload ≤ k.snd.txSize) :
    (k.completeNew p due).SenderOk w := by
  obtain ⟨_, hr⟩ := sentData_of_room h hp hn
  have hu := h.una_le
  have hph := h.phase
  have hstop : stop p = offset k.snd.iss (v + p.payload) := by
    rw [stop_data hf, hq, h.nxt_eq, add_ofNat]
  have hk : (p.kind == .fin) = false := by rcases hk with hk | hk <;> rw [hk] <;> rfl
  simp only [completeNew, hstop, hk, Bool.false_and, Bool.false_eq_true, if_false]
  refine .inr ⟨_, _, _, h.advance cap.send_le due (by omega) (by omega) ?_⟩
  cases hc : k.state <;> simp only [hc, Phase, streaming] at hph hs ⊢ <;> grind

lemma completeFin_ok (hk : p.kind = .fin) (hq : p.fields.sequence = k.snd.sndNxt)
    (hf : p.fields.flags = tcpFin ||| tcpAck) (hp : p.payload = 0)
    (hw : k.snd.writeShutdown = true) (ha : k.snd.finAcknowledged = false)
    (he : k.snd.sndNxt = k.snd.finSequence) : (k.completeNew p due).SenderOk w := by
  obtain ⟨hu, hv, hm, hz⟩ := h.bounds cap.send_le
  have hph := h.phase
  have hvu : v = u + k.snd.txSize := by
    rw [h.nxt_eq, h.finSequence_eq] at he
    rcases le_total v (u + k.snd.txSize) with hl | hl
    · exact (offset_inj _ hl (by omega)).mp he
    · exact ((offset_inj _ hl (by omega)).mp he.symm).symm
  have hstop : stop p = offset k.snd.iss (u + k.snd.txSize + 1) := by
    rw [stop_mark (has_fin hf).2.1 hp, hq, h.nxt_eq, hvu, add_one]
  have hfresh : k.freshlySent p = !decide (v < m) := by
    rw [freshlySent, hq, h.nxt_eq, h.max_eq, before_offset _ (by omega) (by omega)]
  have hadv (next : State) (hq : Phase next w.length k.snd.txSize u
      (max m (u + k.snd.txSize + 1)) k.snd.writeShutdown k.snd.finAcknowledged) :=
    h.advance cap.send_le due (by omega) le_rfl hq
  simp only [completeNew, hstop, hk, hfresh, BEq.rfl, Bool.true_and]
  refine .inr ⟨_, _, _, hadv _ ?_⟩
  by_cases hlt : v < m
  all_goals cases hc : k.state <;> simp only [hc, Phase, hlt] at hph ⊢ <;> grind

end

lemma SenderOk.complete (hp : Planned k.state k.snd p) (h : k.SenderOk w) (due : ℕ) : (k.complete p due).SenderOk w := by
  rcases h with ⟨hc, ht⟩ | ⟨u, v, m, h⟩
  · cases hp with
    | other hk => rcases hk with hk | hk <;> simp only [Block.complete, hk] <;> exact .inl ⟨hc, ht⟩
    | syn _ hs | data _ hs | fin _ hs => simp [hc, opening, streaming] at hs
    | head hk | headFin hk => simp [hc, ht, streaming] at hk
  cases hp with
  | other hk => rcases hk with hk | hk <;> simp only [Block.complete, hk] <;> exact .inr ⟨_, _, _, h⟩
  | syn hk hs hq hf hp =>
    rcases hk with hk | hk <;> simp only [Block.complete, hk]
    · exact completeSyn_ok h due hs hq hf hp
    · simp only [completeRetry, (has_syn hf).1]
      exact .inr ⟨_, _, _, h.retime due _⟩
  | head hk hs hq hf _ _ hp =>
    rcases hk with hk | hk <;> simp only [Block.complete, hk.1]
    · refine completeRetry_ok (i := u + p.payload) h due (has_data hf).1 ?_ (by omega) ?_
      · rw [stop_data hf, hq, h.una_add]
      have hd := hp.2
      obtain ⟨hu, hv, hm, hz⟩ := h.bounds cap.send_le
      rw [h.max_eq, h.una_eq, distance _ (hu.trans hv) (by omega)] at hd
      omega
    · exact .inr ⟨_, _, _, h⟩
  | headFin hk hs hq hf hp hd h0 =>
    rcases hk with hk | hk <;> simp only [Block.complete, hk.1]
    · obtain ⟨hw, hlt⟩ := (h.finSent_iff cap.send_le).mp hd
      refine completeRetry_ok (i := u + 1) h due (has_fin hf).1 ?_ (by omega) (by omega)
      rw [stop_mark (has_fin hf).2.1 hp, hq, h.una_eq, add_one]
    · exact .inr ⟨_, _, _, h⟩
  | data hk hs hq hf _ hp hn =>
    rcases hk with hk | hk <;> simp only [Block.complete, hk]
    · exact completeData_ok h due (.inl hk) hs hq hf hp hn
    · exact completeData_ok h due (.inr hk) hs hq hf hp hn
  | fin hk _ hq hf hp hw ha he =>
    simp only [Block.complete, hk]
    exact completeFin_ok h due hk hq hf hp hw ha he

lemma SenderOk.sends (h : k.SenderOk w) (hs : k.state ≠ .closed) : ∃ u v m, Sends w k.state k.snd u v m := by
  rcases h with h | h
  · exact absurd h.1 hs
  · exact h

lemma SenderOk.consume (h : Sends w k.state k.snd u v m) (seg : Wire.Tcp) : (k.consume seg).SenderOk w := by
  rcases k.consume_snd seg with ⟨hs, hn⟩ | ⟨hs, hn⟩
  · exact .inr ⟨u, v, m, by rw [hs, hn]; exact h⟩
  refine .inr ⟨u, v, m, ?_⟩
  have hp := h.phase
  rw [hs, hn]
  cases hc : k.state <;> simp only [hc, finReceived] at h ⊢ <;> simp only [Phase, hc] at hp
  case established => exact { h with phase := hp }
  case finWait1 => exact { h with phase := hp }
  case finWait2 =>
    have h' := h.idle (hp.1.trans hp.2.1.symm)
    exact { h' with phase := hp }
  case timeWait => exact h.idle (hp.1.trans hp.2.1.symm)
  all_goals exact h

end Block

variable {e : Event} {k k' : Block cap} {t : History} {w : List UInt8} {u v m p : ℕ}

lemma Move.sender (hm : Move e k k') (hs : k.Sound)
    (h : k.SenderOk t.written) : k'.SenderOk (t.note e).written := by
  cases hm with
  | repeatSyn | read | plan | refuse => exact h
  | activeOpen | passiveOpen =>
    exact .inr ⟨0, 0, 0, .start (Ring.Keeps.none _) rfl (by simp [Phase, resetFields]) _⟩
  | rearm iss _ hl =>
    obtain ⟨u, v, m, h⟩ := h.sends (by simp [hl])
    have hp := h.phase
    simp only [hl, Phase] at hp
    have hw := List.length_eq_zero_iff.mp hp.2.2.1
    have hk := h.keeps
    rw [hw] at hk
    exact .inr ⟨0, 0, 0, .start hk (by simpa [hp.1, hp.2.1] using h.timer) (by simp [hl, Phase, hp]) iss⟩
  | terminate => exact .inl ⟨rfl, rfl⟩
  | relisten _ hl =>
    obtain ⟨u, v, m, h⟩ := h.sends (by simp [hl])
    have hp := h.phase
    simp only [hl, Phase] at hp
    have hw := List.length_eq_zero_iff.mp hp.2.2.1
    refine .inr ⟨0, 0, 0, ?_⟩
    simp only [History.note, hw]
    exact .start (Ring.Keeps.none _) rfl (by simp [Phase, returnToListen, resetFields]) _
  | expire _ hl =>
    obtain ⟨u, v, m, h⟩ := h.sends (by simp [hl])
    have hp := h.phase
    simp only [hl, Phase] at hp
    exact .inl ⟨rfl, by simpa [hp.1, hp.2.1] using h.timer⟩
  | write xs _ hw hst hx =>
    obtain ⟨u, v, m, h⟩ := h.sends (by rcases hst with hst | hst <;> simp [hst])
    have hp := h.phase
    have hk := h.keeps.append cap.send_pos xs hx
    refine .inr ⟨u, v, m, { h with keeps := hk, phase := ?_ }⟩
    rcases hst with hst | hst <;> simp only [hst, Phase, History.note, Sender.write, List.length_append] at hp ⊢ <;>
      exact ⟨hp.1, by omega, by omega, hp.2.2.2⟩
  | shutdown _ hst =>
    obtain ⟨u, v, m, h⟩ := h.sends (by rcases hst with hst | hst <;> simp [hst])
    have hp := h.phase
    refine .inr ⟨u, v, m, { h with phase := ?_ }⟩
    rcases hst with hst | hst <;> simp only [hst, Phase] at hp ⊢ <;> exact hp
  | greet source seq mss _ hl =>
    obtain ⟨u, v, m, h⟩ := h.sends (by simp [hl])
    have hp := h.phase
    simp only [hl, Phase] at hp
    exact .inr ⟨u, v, m, { h with phase := ⟨hp.1, by omega, hp.2.2⟩ }⟩
  | cross seq mss _ hl =>
    obtain ⟨u, v, m, h⟩ := h.sends (by simp [hl])
    have hp := h.phase
    rw [hl] at hp
    exact .inr ⟨u, v, m, { h with phase := hp }⟩
  | connect seq mss due _ hl _ ha =>
    obtain ⟨u, v, m, h⟩ := h.sends (by simp [hl])
    exact Block.SenderOk.establish (k := { k.synchronize seq with peerMss := mss }) h
      (by simp [synchronize, hl, opening]) ha due
  | handshake due _ hl ha =>
    obtain ⟨u, v, m, h⟩ := h.sends (by simp [hl])
    exact .establish h (by simp [hl, opening]) ha due
  | acknowledge ack due _ hst ha =>
    obtain ⟨u, v, m, h⟩ := h.sends (by rintro hc; simp [hc, streaming] at hst)
    exact .acknowledge h hst ha due
  | consume seg _ hst =>
    obtain ⟨u, v, m, h⟩ := h.sends (by rintro hc; simp [hc, streaming] at hst)
    exact .consume h seg
  | transmit due hp =>
    exact Block.SenderOk.complete (k := { k with plan := {} }) (hs.plan hp) h due

lemma Moves.sender {es : List Event} (hm : Moves es k k') (hs : k.Sound)
    (h : k.SenderOk t.written) : k'.SenderOk (es.foldl History.note t).written := by
  induction hm generalizing t with
  | nil => exact h
  | cons hm _ ih => exact ih (hm.sound hs) (hm.sender hs h)

lemma offset_iss (iss : U32) (p : ℕ) : offset (iss + 1) p = offset iss (p + 1) := by
  rw [show iss + 1 = offset iss 1 by rw [← add_one, offset_zero], offset_add, Nat.add_comm]

structure Block.Repeats (k : Block cap) (w : List UInt8) (seq : U32) (payload : List UInt8) (pos : ℕ) : Prop where
  sequence : seq = offset (k.snd.iss + 1) pos
  bytes : payload = (w.drop pos).take payload.length
  first : w.length - k.snd.txSize ≤ pos
  last : pos + payload.length ≤ w.length
  inside : (seq - k.snd.sndUna).toNat + payload.length ≤ k.snd.txSize

lemma Sends.repeats {i size : ℕ} (h : Sends w k.state k.snd u v m)
    (hs : 0 < size) (hi : i + size ≤ k.snd.txSize) :
    k.Repeats w (offset k.snd.iss (u + i)) (k.snd.tx.slice (k.snd.txHead + i) size)
      (w.length - k.snd.txSize + i) := by
  have hl := h.keeps.size_le_length
  have hz := h.keeps.size_le
  have hn := cap.send_le
  have hu : u + k.snd.txSize = w.length + 1 := by
    have hp := h.phase
    cases hc : k.state <;> simp only [hc, Phase] at hp <;> omega
  refine ⟨?_, ?_, by omega, ?_, ?_⟩
  · rw [offset_iss]
    congr 1
    omega
  · rw [Ring.length_slice, h.keeps.slice_eq hi]
  · rw [Ring.length_slice]
    omega
  · rw [Ring.length_slice, h.una_eq, distance _ (by omega) (by omega)]
    omega

lemma Block.SenderOk.repeats {p : PreparedPacket} (h : k.SenderOk w)
    (hs : k.Sound) (hd : Connection.Describes k p) (hp : p.packet.tcp.payload ≠ []) :
    ∃ pos, k.Repeats w p.packet.tcp.fields.sequence p.packet.tcp.payload pos := by
  obtain ⟨ha, hf, hx⟩ := hd
  have hz : k.plan.payload ≠ 0 := by
    intro hz
    rw [hx, hz] at hp
    exact hp rfl
  have hpl := hs.plan ha
  have hst : k.state ≠ .closed := by
    rintro hc
    rcases h with ⟨_, ht⟩ | ⟨u, v, m, h⟩
    · rcases hpl with _ | ⟨_, hs⟩ | hk | _ | ⟨_, hs⟩ | ⟨_, hs⟩ <;> simp_all [streaming]
    · exact h.state_ne hc
  obtain ⟨u, v, m, h⟩ := h.sends hst
  rw [hf, hx]
  cases hpl with
  | other _ _ h0 | syn _ _ _ _ h0 | headFin _ _ _ _ h0 | fin _ _ _ _ h0 => exact absurd h0 hz
  | head _ _ hq _ _ ho hn =>
    rw [hq, h.una_eq, ho]
    exact ⟨_, h.repeats (i := 0) (Nat.pos_of_ne_zero hz) (by omega)⟩
  | data _ _ hq _ ho h0 hn =>
  obtain ⟨hd, hr⟩ := sentData_of_room h h0 hn
  have hv : v = u + (v - u) := by have := h.una_le; omega
  rw [hq, h.nxt_eq, ho, hd, hv, Nat.add_sub_cancel_left]
  exact ⟨_, h.repeats (Nat.pos_of_ne_zero hz) (by omega)⟩

namespace Block

def Buffered (k : Block cap) (w : List UInt8) (p : ℕ) : Prop := w.length - k.snd.txSize ≤ p ∧ p < w.length

def Failed (k : Block cap) : Prop := k.state = .closed ∧ k.failure ≠ .none

variable {k : Block cap} {w : List UInt8} {p : ℕ}

lemma consume_txSize (seg : Wire.Tcp) : (k.consume seg).snd.txSize = k.snd.txSize := by
  rcases k.consume_snd seg with ⟨_, hn⟩ | ⟨_, hn⟩ <;> rw [hn]
  split <;> rfl

lemma not_buffered_of_opening (h : k.SenderOk w) (hs : k.state.opening = true) : ¬ k.Buffered w p := by
  obtain ⟨u, v, m, h⟩ := h.sends (by rintro hc; simp [hc, opening] at hs)
  have hp := h.phase
  have hl : w.length = 0 := by cases hc : k.state <;> simp_all [Phase, opening]
  rintro ⟨_, hb⟩
  omega

lemma acknowledge_buffered (h : k.SenderOk w) (hs : k.state.streaming = true ∨ k.state = .timeWait)
    {ack : U32} (ha : k.ackIgnored ack = false) (due : ℕ) (hb : k.Buffered w p)
    (hn : ¬ (k.acknowledge ack due).Buffered w p) :
    after ack k.snd.sndUna = true ∧ after ack k.snd.sndMax = false ∧ after ack (offset (k.snd.iss + 1) p) = true := by
  have ha' : after ack k.snd.sndUna = true ∧ after ack k.snd.sndMax = false := by
    simpa [ackIgnored] using ha
  refine ⟨ha'.1, ha'.2, ?_⟩
  obtain ⟨u, v, m, h⟩ := h.sends (by rintro hc; simp [hc, streaming] at hs)
  obtain ⟨y, rfl, hu, hy⟩ := h.acked cap.send_le ha'.1 ha'.2
  have hr := ackReleases_eq h (opening_eq_false hs) hu hy
  have hz : (k.acknowledge (offset k.snd.iss y) due).snd.txSize = k.snd.txSize - min (y - u) k.snd.txSize := by
    rw [acknowledge_eq ha, hr]
    split
    · simp only [enter]
      split <;> rfl
    · rfl
  obtain ⟨-, -, hm, hz'⟩ := h.bounds cap.send_le
  have hl := h.keeps.size_le_length
  have hp : u + k.snd.txSize = w.length + 1 := by
    have hp := h.phase
    obtain ⟨hb, hb'⟩ := hb
    cases hc : k.state <;> simp only [hc, Phase] at hp <;> omega
  simp only [Buffered, hz] at hb hn
  rw [offset_iss, after_offset _ (by omega) (by omega)]
  simp only [decide_eq_true_eq]
  omega

end Block

lemma Move.buffered (hm : Move e k k') (he : e ≠ .opened)
    (h : k.SenderOk t.written) (hb : k.Buffered t.written p) :
    k'.Failed ∨ k'.Buffered (t.note e).written p ∨
      ∃ ack una top, e = .acked ack una top ∧ after ack una = true ∧ after ack top = false ∧
        after ack (offset (k.snd.iss + 1) p) = true := by
  cases hm with
  | activeOpen | passiveOpen | rearm => exact absurd rfl he
  | repeatSyn | read | plan | refuse | expire | shutdown | greet | cross => exact .inr (.inl hb)
  | terminate reason _ hr => exact .inl ⟨rfl, hr⟩
  | relisten _ hl | connect _ _ _ _ hl | handshake _ _ hl => exact absurd hb (not_buffered_of_opening h (by simp [hl, opening]))
  | write xs =>
    refine .inr (.inl ?_)
    simp only [Block.Buffered, History.note, Sender.write, List.length_append] at hb ⊢
    omega
  | consume seg =>
    refine .inr (.inl ?_)
    simp only [Block.Buffered, History.note, consume_txSize] at hb ⊢
    exact hb
  | acknowledge ack due _ hs ha =>
    by_cases hn : (k.acknowledge ack due).Buffered t.written p
    · exact .inr (.inl hn)
    · exact .inr (.inr ⟨_, _, _, rfl, acknowledge_buffered h hs ha due hb hn⟩)
  | transmit due =>
  refine .inr (.inl ?_)
  simp only [Block.Buffered, History.note, (complete_snd _ k.plan due).1] at hb ⊢
  exact hb

lemma Move.iss_eq (hm : Move e k k') (he : e ≠ .opened) : k'.snd.iss = k.snd.iss := by
  cases hm with
  | activeOpen | passiveOpen | rearm => exact absurd rfl he
  | connect seq mss due | handshake due | acknowledge ack due => exact (Block.acknowledge_fixed _ _ due).2
  | consume seg =>
    rcases k.consume_snd seg with ⟨_, hn⟩ | ⟨_, hn⟩ <;> rw [hn]
    split <;> rfl
  | transmit due => exact (complete_snd _ k.plan due).2.1
  | _ => rfl

lemma Move.failed (hm : Move e k k') (he : e ≠ .opened) (hs : k.Sound)
    (hf : k.Failed) : k'.Failed := by
  obtain ⟨hc, hf⟩ := hf
  refine ⟨hm.closed he hs hc, ?_⟩
  cases hm with
  | activeOpen | passiveOpen | rearm => exact absurd rfl he
  | terminate reason _ hr => exact hr
  | read | plan | refuse => exact hf
  | transmit due => rwa [(complete_snd _ k.plan due).2.2.2]
  | _ => simp_all [streaming]

lemma Moves.buffered {es : List Event} (hm : Moves es k k')
    (he : .opened ∉ es) (hs : k.Sound) (h : k.SenderOk t.written) (hb : k.Failed ∨ k.Buffered t.written p) :
    k'.Failed ∨ k'.Buffered (es.foldl History.note t).written p ∨
      ∃ ack una top, .acked ack una top ∈ es ∧ after ack una = true ∧ after ack top = false ∧
        after ack (offset (k.snd.iss + 1) p) = true := by
  induction hm generalizing t with
  | nil => exact hb.imp_right .inl
  | cons hm _ ih =>
  simp only [List.mem_cons, not_or] at he
  have hk := hm.iss_eq (Ne.symm he.1)
  have hn := hb.elim (fun hf => .inl (hm.failed (Ne.symm he.1) hs hf)) fun hb =>
    hm.buffered (Ne.symm he.1) h hb
  rcases hn with hf | hb | ⟨ack, una, top, rfl, ha⟩
  · exact (ih he.2 (hm.sound hs) (hm.sender hs h) (.inl hf)).imp_right (.imp_right fun ⟨a, u, m, hm, ha⟩ =>
      ⟨a, u, m, .tail _ hm, hk ▸ ha⟩)
  · exact (ih he.2 (hm.sound hs) (hm.sender hs h) (.inr hb)).imp_right (.imp_right fun ⟨a, u, m, hm, ha⟩ =>
      ⟨a, u, m, .tail _ hm, hk ▸ ha⟩)
  · exact .inr (.inr ⟨ack, una, top, .head _, ha⟩)

def Block.SequenceOk (k : Block cap) : Prop :=
  (k.snd.sndNxt - k.snd.sndUna).toNat ≤ (k.snd.sndMax - k.snd.sndUna).toNat ∧
    (k.snd.sndMax - k.snd.sndUna).toNat ≤ k.snd.txSize + 1 ∧ k.snd.txSize ≤ cap.send ∧
    (k.snd.rtx.active = true ↔ k.snd.sndUna ≠ k.snd.sndMax)

lemma Sends.sequenceOk (h : Sends w k.state k.snd u v m) : k.SequenceOk := by
  obtain ⟨hu, hv, hm, hz⟩ := h.bounds cap.send_le
  refine ⟨?_, ?_, h.keeps.size_le, ?_⟩
  · rw [h.nxt_eq, h.max_eq, h.una_eq, distance _ hu (by omega), distance _ (hu.trans hv) (by omega)]
    omega
  · rw [h.max_eq, h.una_eq, distance _ (hu.trans hv) (by omega)]
    omega
  · rw [h.timer, h.una_eq, h.max_eq, Ne, Ne, offset_inj _ (hu.trans hv) (by omega)]

section

variable {σ : Type} [CongestionControl σ] {c : Connection cap σ} {h : History}

lemma Reachable.sender (hr : Reachable c h) : c.SenderOk h.written := by
  induction hr with
  | fresh => exact .inl ⟨rfl, rfl⟩
  | step op hr ih =>
  obtain ⟨es, hm, _, ht⟩ := run_performs hr.sound op
  have hk := hm.sender hr.sound ih
  rwa [(ht _).written] at hk

lemma run_not_opened {op : Op} (hs : c.state ≠ .closed) (hl : c.state ≠ .listen)
    (h : Allowed c.toBlock op (op.run c).1 .opened) : False := by
  obtain ⟨s, hr, rfl, hop⟩ := h
  rcases hop with ⟨here, peer, iss, now, rfl⟩ | ⟨here, iss, now, rfl⟩ | ⟨iss, now, rfl⟩
  · have hb : (c.plan.active || c.state != .closed || c.rcv.rxSize != 0) = true := by simp [hs]
    simp [Op.run, Connection.activeOpen, hb] at hr
  · have hb : (c.plan.active || c.state != .closed || c.rcv.rxSize != 0) = true := by simp [hs]
    simp [Op.run, Connection.passiveOpen, hb] at hr
  · have hb : (c.plan.active || c.state != .listen || c.listenerArmed || c.resetPending) = true := by simp [hl]
    simp [Op.run, Connection.rearmListener, hb] at hr

/-- Against any peer the sender keeps its sequence space in order, repeats only bytes that were
written at the position it claims, and forgets a byte only when an acknowledgment covers it. -/
theorem sender_invariant (hr : Reachable c h) : (c.state ≠ .closed → c.state ≠ .listen → c.SequenceOk) ∧
    (∀ size now p, (c.prepare size now).1 = .ok (some p) → p.packet.tcp.payload ≠ [] →
      ∃ pos, (c.prepare size now).2.Repeats h.written p.packet.tcp.fields.sequence p.packet.tcp.payload pos) ∧
    (∀ (op : Op) (p : ℕ), c.state ≠ .closed → c.state ≠ .listen → (op.run c).2.failure = .none → c.Buffered h.written p →
      ¬ (op.run c).2.Buffered (h.after c.toBlock op (op.run c).1).written p →
      ∃ d now, op = .receive (.ok d) now ∧ d.tcp.fields.has tcpAck = true ∧
        ((op.run c).1 = .ingress (.ok .accepted) ∨ c.state = .closing) ∧
        after d.tcp.fields.acknowledgment c.snd.sndUna = true ∧
        after d.tcp.fields.acknowledgment c.snd.sndMax = false ∧
        after d.tcp.fields.acknowledgment (offset (c.snd.iss + 1) p) = true) := by
  have hs := hr.sound
  have hok := hr.sender
  refine ⟨fun hc _ => ?_, fun size now p hp hx => ?_, fun op p hc hl hf hb hn => ?_⟩
  · obtain ⟨u, v, m, hk⟩ := hok.sends hc
    exact hk.sequenceOk
  · obtain ⟨es, hm, he, hd⟩ := Connection.prepare_refines hs size now
    have hk := hm.sender (t := h) hs hok
    rw [note_fold fun e h t => by rcases he e h with rfl | rfl <;> rfl] at hk
    exact hk.repeats (hm.sound hs) (hd p hp) hx
  obtain ⟨es, hm, ha, ht⟩ := run_performs hs op
  have ho : .opened ∉ es := fun h => run_not_opened hc hl (ha _ h)
  rcases hm.buffered (t := h) ho hs hok (.inr hb) with hf' | hb' | ⟨ack, una, top, hmem, h1, h2, h3⟩
  · exact absurd hf hf'.2
  · rw [(ht h).written] at hb'
    exact absurd hb' hn
  obtain ⟨d, now, rfl, rfl, hack, rfl, rfl, hst⟩ := ha _ hmem
  refine ⟨d, now, rfl, hack, ?_, h1, h2, h3⟩
  rcases hst with h | h | h
  · exact .inl h
  · exact .inr h
  obtain ⟨u, v, m, hk⟩ := hok.sends hc
  have hp := hk.phase
  have hz := hb.1
  have hz' := hb.2
  simp only [h, Phase] at hp
  omega

def dialOps : List Op :=
  let here : Endpoint := ⟨.v4 10 0 0 1, 1000⟩
  let peer : Endpoint := ⟨.v4 10 0 0 2, 80⟩
  let fields : TcpFields :=
    { sourcePort := 80, destinationPort := 1000, sequence := 500, acknowledgment := 101
      flags := tcpSyn ||| tcpAck, window := 8 }
  [.activeOpen here peer 100 0, .prepare 1500 0, .completeTransmit 1 true 0,
    .receive (.ok ⟨peer.address, here.address, ⟨fields, [], []⟩⟩) 1, .write [1, 2, 3]]

def dialCapacities : Capacities := ⟨8, 8, 4, by decide, by decide, by decide, by decide, by decide, by decide⟩

def dialed : Connection dialCapacities NewReno × History := Op.runs .fresh {} dialOps

theorem sender_invariant_dialed : dialed.1.state = .established ∧ dialed.2.written = [1, 2, 3] ∧ dialed.1.SequenceOk :=
  ⟨by decide +kernel, by decide +kernel,
    (sender_invariant (Reachable.fresh.runs dialOps)).1 (by decide +kernel) (by decide +kernel)⟩

end

end ObfuscationKernel.Net.Tcp
