import ObfuscationKernel.Net.Transmission

/-! A peer that keeps its window closed: which steps of an established connection time it out, however the
probes and their retransmissions are answered. -/

namespace ObfuscationKernel.Net.Tcp

open ObfuscationKernel.Core Library Library.Serial Wire Op

variable {cap : Capacities} {σ : Type} [CongestionControl σ]

def Op.everyState (p : Connection cap σ → Bool) : Connection cap σ → List Op → Bool
  | c, [] => p c
  | c, op :: ops => p c && everyState p (op.run c).2 ops

def Op.everyStep (p : Connection cap σ → Op → Bool) : Connection cap σ → List Op → Bool
  | _, [] => true
  | c, op :: ops => p c op && everyStep p (op.run c).2 ops

def Op.clock : Op → Option ℕ
  | .activeOpen _ _ _ now | .passiveOpen _ _ now | .rearmListener _ now | .receive _ now | .tick now
  | .prepare _ now | .completeTransmit _ _ now => some now
  | _ => none

namespace Connection

def streams (c : Connection cap σ) : Bool := c.state == .established || c.state == .closeWait

def transmits (c : Connection cap σ) (kind : Kind) : Op → Bool
  | .completeTransmit token true now =>
    c.plan.active && c.plan.token == token && decide (c.lastNow ≤ now) && c.plan.kind == kind
  | _ => false

def answeredBy (c : Connection cap σ) : Op → Bool
  | .receive (.ok d) now =>
    let f := d.tcp.fields
    !c.plan.active && decide (c.lastNow ≤ now) && d.destination == c.localEndpoint.address &&
      f.destinationPort == c.localEndpoint.port && c.peer == ⟨d.source, f.sourcePort⟩ && c.peer.valid &&
      f.has tcpAck && !f.has (tcpUrg ||| tcpRst ||| tcpSyn) && f.acknowledgment == c.snd.sndUna && f.window == 0 &&
      c.rcv.acceptable f.sequence (segmentLength d.tcp)
  | _ => false

/-- Each probe of a closed window and each retransmission of it is answered before the retransmission deadline
that follows; `owed` tells that the last one has not been answered yet. -/
def answered : Connection cap σ → Bool → List Op → Bool
  | _, _, [] => true
  | c, owed, op :: ops =>
    !(owed && op.clock.any (c.snd.rtx.deadline ≤ ·)) &&
      answered (op.run c).2
        (c.peerWindow == 0 && (c.transmits .probe op || c.transmits .retry op) || owed && !c.answeredBy op) ops

def exhaustedBy (c : Connection cap σ) : Op → Bool
  | .tick now | .prepare _ now =>
    !c.plan.active && decide (c.lastNow ≤ now) && c.snd.rtx.active && decide (c.snd.rtx.deadline ≤ now) &&
      decide (maxRetransmissions ≤ c.snd.rtx.retries)
  | _ => false

def resends : Connection cap σ → List Op → ℕ
  | _, [] => 0
  | c, op :: ops => (if c.transmits .retry op then 1 else 0) + resends (op.run c).2 ops

variable {c : Connection cap σ}

variable {d : Connection cap σ}

lemma Deeds.snd_cases (h : c.Deeds d) (hs : c.streams = true) :
    d.snd = c.snd ∨ d.snd.sndUna ≠ c.snd.sndUna ∨ d.snd.rtx.active = false := by
  have hs : c.state = .established ∨ c.state = .closeWait := by simpa [streams] using hs
  induction h with
  | refl => exact .inl rfl
  | @touch a b _ ht ih => rwa [show b.snd = a.snd from congrArg Timing.snd ht]
  | @acknowledge a ack now _ ha ih =>
    rcases a.acknowledge_cases ack now with he | ⟨hn, r, snd, he, -, hu, -⟩
    · rwa [he]
    · right; left
      rwa [show (a.acknowledge ack now).snd = snd from congrArg Timing.snd he, hu,
        ← show a.snd = c.snd from congrArg Timing.snd ha]
  | @duplicateAck a r _ _ ih =>
    unfold Connection.duplicateAck
    dsimp only
    split_ifs <;> exact ih
  | rest _ h1 h2 => exact absurd hs (by simp [h1, h2])
  | terminate reason => exact .inr (.inr rfl)
  | _ => assumption

lemma tick_streams (hs : c.streams = true) (now : ℕ) : (c.tick now).2.timing =
      if c.exhaustedBy (.tick now) then (c.terminate .timedOut).timing else c.timing := by
  have hs : c.state = .established ∨ c.state = .closeWait := by simpa [streams] using hs
  unfold exhaustedBy
  rcases c.tick_cases now with ⟨hb, _, h⟩ | ⟨hp, hn, t, h, hf⟩ <;> rw [h]
  · rw [if_neg]
    rcases hb with hb | hb <;> simp [hb, not_le.mpr]
  cases hf with
  | rest hset =>
    have hx := hset.retransmission
    rw [if_neg]
    · rfl
    · simp only [hp, hn, Bool.not_false, decide_true, Bool.true_and]
      exact Bool.eq_false_iff.mp hx
  | expire hst | relisten hst =>
    have hst : c.state = _ := hst
    simp [hst] at hs
  | timeout hx =>
    have hx : c.spent now = true := hx.resolve_right fun hst => by
      have hst : c.state = _ := hst
      simp [hst] at hs
    rw [if_pos]
    · rfl
    · simp only [hp, hn, Bool.not_false, decide_true, Bool.true_and]
      exact hx

omit [CongestionControl σ] in
lemma busy_of_streams (hs : c.streams = true) : (c.plan.active || c.state != .closed || c.rcv.rxSize != 0) = true ∧
      (c.plan.active || c.state != .listen || c.listenerArmed || c.resetPending) = true := by
  have hs : c.state = .established ∨ c.state = .closeWait := by simpa [streams] using hs
  rcases hs with h | h <;> simp [h]

lemma run_streams (hs : c.streams = true) (op : Op) :
    (c.failure ≠ .timedOut → ((op.run c).2.failure = .timedOut ↔ c.exhaustedBy op = true)) ∧
    ((∀ token accepted now, op ≠ .completeTransmit token accepted now) →
      (op.run c).2.snd.rtx = c.snd.rtx ∨ (op.run c).2.snd.sndUna ≠ c.snd.sndUna ∨ (op.run c).2.snd.rtx.active = false) := by
  obtain ⟨hb, hl⟩ := busy_of_streams hs
  have ht (now : ℕ) : (c.failure ≠ .timedOut → ((c.tick now).2.failure = .timedOut ↔ c.exhaustedBy (.tick now) = true)) ∧
      ((c.tick now).2.snd.rtx = c.snd.rtx ∨ (c.tick now).2.snd.rtx.active = false) := by
    have h := tick_streams hs now
    rw [show (c.tick now).2.failure = _ from congrArg Timing.failure h, show (c.tick now).2.snd = _ from congrArg Timing.snd h]
    split_ifs with hx
    · exact ⟨fun _ => iff_of_true rfl hx, .inr rfl⟩
    · exact ⟨fun hf => iff_of_false hf hx, .inl rfl⟩
  cases op with
  | activeOpen here peer iss now => simp [run, activeOpen, hb, exhaustedBy]
  | passiveOpen here iss now => simp [run, passiveOpen, hb, exhaustedBy]
  | rearmListener iss now => simp [run, rearmListener, hl, exhaustedBy]
  | abort =>
    simp only [run, abort, exhaustedBy]
    split_ifs
    · simp
    · exact ⟨by simp [terminate, Block.terminate], fun _ => .inr (.inr rfl)⟩
  | write input =>
    simp only [run, write, exhaustedBy]
    split_ifs <;> simp [Sender.write]
  | peek size => simp [run, exhaustedBy]
  | read size =>
    simp only [run, read, exhaustedBy]
    split_ifs <;> simp
  | shutdownWrite =>
    simp only [run, shutdownWrite, exhaustedBy]
    split_ifs <;> simp
  | receive packet now =>
    rcases c.receive_deeds packet now with h | ⟨h, -⟩
    · exact ⟨fun hf => by simpa [run, exhaustedBy] using h.frame.2.1 hf, fun _ => (h.snd_cases hs).imp_left (congrArg Sender.rtx)⟩
    · simp [streams, h] at hs
  | tick now => exact ⟨(ht now).1, fun _ => (ht now).2.imp_right .inr⟩
  | prepare size now =>
    obtain ⟨q, head, n, he, -⟩ := c.prepare_timing size now
    simp only [timing, Timing.mk.injEq] at he
    simp only [run, Prod.map_snd, id, he]
    exact ⟨(ht now).1, fun _ => (ht now).2.imp_right .inr⟩
  | completeTransmit token accepted now =>
  refine ⟨fun hf => ?_, fun ho => absurd rfl (ho token accepted now)⟩
  have hq : (c.completeTransmit token accepted now).2.failure = c.failure := by
    rcases c.completeTransmit_effect token accepted now with ⟨h, -⟩ | ⟨-, -, -, h⟩
    · rw [h]
    generalize he : (c.completeTransmit token accepted now).2.timing = t at h
    rw [show (c.completeTransmit token accepted now).2.failure = t.failure from congrArg Timing.failure he]
    cases h <;> rfl
  simpa [run, exhaustedBy, hq] using hf

omit [CongestionControl σ] in
lemma transmits_eq_false {kind : Kind} {token : ℕ} {accepted : Bool} {now : ℕ}
    (h : ¬ (c.plan.active = true ∧ c.plan.token = token ∧ c.lastNow ≤ now) ∨ accepted = false ∨ c.plan.kind ≠ kind) :
    c.transmits kind (.completeTransmit token accepted now) = false := by
  cases accepted with
  | false => rfl
  | true =>
  simp only [transmits]
  by_contra hx
  simp only [Bool.not_eq_false, Bool.and_eq_true, beq_iff_eq, decide_eq_true_eq] at hx
  rcases h with h | h | h
  · exact h ⟨hx.1.1.1, hx.1.1.2, hx.1.2⟩
  · cases h
  · exact h hx.2

lemma completeTransmit_retries (ha : c.snd.rtx.active = true) (token : ℕ) (accepted : Bool) (now : ℕ) :
    (c.completeTransmit token accepted now).2.snd.rtx.retries =
      c.snd.rtx.retries + (if c.transmits .retry (.completeTransmit token accepted now) then 1 else 0) := by
  have harm : ∀ (s : Sender cap.send) (due : ℕ), s.rtx = c.snd.rtx → (s.arm due).rtx.retries = c.snd.rtx.retries := by
    intro s due h
    unfold Sender.arm
    rw [if_pos (by rw [h, ha]), h]
  rcases c.completeTransmit_effect token accepted now with ⟨h, -, hn⟩ | ⟨hp, ht, hl, h⟩
  · rw [h, transmits_eq_false (.inl hn)]
    rfl
  generalize he : (c.completeTransmit token accepted now).2.timing = t at h
  rw [show (c.completeTransmit token accepted now).2.snd = t.snd from congrArg Timing.snd he]
  cases h with
  | retrySyn due hr hacc hf | retry due hr hacc hf =>
    subst hacc
    rw [if_pos (by simp [transmits, hp, ht, hl, hr])]
  | refused hacc =>
    rw [transmits_eq_false (.inr (.inl hacc))]
    rfl
  | reset hr | ack hr | fast hr =>
    rw [transmits_eq_false (.inr (.inr (by simp [hr])))]
    rfl
  | syn due hr =>
    rw [transmits_eq_false (.inr (.inr (by simp [hr])))]
    unfold Block.completeSyn
    by_cases hm : (c.snd.sndMax == c.snd.iss) = true
    · rw [if_pos hm]
      exact harm _ due rfl
    · rw [if_neg hm]
      rfl
  | new due hr =>
    rw [transmits_eq_false (.inr (.inr (by rcases hr with h | h | h <;> simp [h])))]
    exact harm _ due rfl

lemma run_retries (hs : c.streams = true) (ha : c.snd.rtx.active = true) (op : Op) :
    (op.run c).2.snd.rtx.retries = c.snd.rtx.retries + (if c.transmits .retry op then 1 else 0) ∨
      (op.run c).2.snd.sndUna ≠ c.snd.sndUna ∨ (op.run c).2.snd.rtx.active = false := by
  by_cases ho : ∀ token accepted now, op ≠ .completeTransmit token accepted now
  · refine ((run_streams hs op).2 ho).imp_left fun h => ?_
    have ht : c.transmits .retry op = false := by
      cases op <;> first | rfl | exact absurd rfl (ho _ _ _)
    rw [h, ht]
    rfl
  push Not at ho
  obtain ⟨token, accepted, now, rfl⟩ := ho
  exact .inl (completeTransmit_retries ha token accepted now)

end Connection

variable {c : Connection cap σ}

lemma Op.everyState_iff (hf : c.failure ≠ .timedOut) (ops : List Op)
    (hs : everyStep (fun d _ => d.streams) c ops = true) :
    everyState (fun d => d.failure != .timedOut) c ops = true ↔ everyStep (fun d op => !d.exhaustedBy op) c ops = true := by
  induction ops generalizing c with
  | nil => simpa [everyState, everyStep] using hf
  | cons op ops ih =>
  simp only [everyStep, everyState, Bool.and_eq_true, bne_iff_ne, Bool.not_eq_true'] at hs ⊢
  have ht := (Connection.run_streams hs.1 op).1 hf
  constructor
  · rintro ⟨-, h⟩
    have hn : (op.run c).2.failure ≠ .timedOut := by
      cases ops <;> simp_all [everyState]
    exact ⟨by simpa [ht] using hn, (ih hn hs.2).mp h⟩
  rintro ⟨hx, h⟩
  have hn : (op.run c).2.failure ≠ .timedOut := by simp [ht, hx]
  exact ⟨hf, (ih hn hs.2).mpr h⟩

lemma Op.runs_retries {una : U32} (h : History) (ops : List Op)
    (hs : everyStep (fun d _ => d.streams) c ops = true)
    (ha : everyState (fun d => d.snd.rtx.active && d.snd.sndUna == una) c ops = true) :
    (runs c h ops).1.snd.rtx.retries = c.snd.rtx.retries + c.resends ops := by
  induction ops generalizing c h with
  | nil => rfl
  | cons op ops ih =>
  simp only [everyStep, everyState, Bool.and_eq_true, beq_iff_eq] at hs ha
  have hn : (op.run c).2.snd.rtx.active = true ∧ (op.run c).2.snd.sndUna = una := by
    cases ops <;> simp_all [everyState]
  have hr := Connection.run_retries hs.1 ha.1.1 op
  simp only [ha.1.2, hn.1, hn.2, ne_eq, not_true_eq_false, Bool.true_eq_false, or_false] at hr
  simp only [runs, Connection.resends, ih (h.after c.toBlock op (op.run c).1) hs.2 ha.2, hr]
  omega

/-- An established connection is timed out in the run exactly when timer work comes at or after a retransmission
deadline with eight retransmissions made; the count is one for each retransmission since SND.UNA last moved,
whether the peer answered it or not. -/
theorem zero_window_timeout (c : Connection cap σ) (h : History) (ops : List Op) (hf : c.failure ≠ .timedOut)
    (hs : Op.everyStep (fun d _ => d.streams) c ops = true) :
    (Op.everyState (fun d => d.failure != .timedOut) c ops = true ↔
      Op.everyStep (fun d op => !d.exhaustedBy op) c ops = true) ∧
    (Op.everyState (fun d => d.snd.rtx.active && d.snd.sndUna == c.snd.sndUna) c ops = true →
      (Op.runs c h ops).1.snd.rtx.retries = c.snd.rtx.retries + c.resends ops) :=
  ⟨Op.everyState_iff hf ops hs, Op.runs_retries h ops hs⟩

def closedWindowAck (now : ℕ) : Op :=
  .receive (.ok ⟨.v4 10 0 0 2, .v4 10 0 0 1,
    ⟨{ sourcePort := 80, destinationPort := 1000, sequence := 501, acknowledgment := 101, flags := tcpAck }, [], []⟩⟩) now

def probeRound (token now : ℕ) : List Op :=
  [.prepare 1500 now, .completeTransmit token true now, closedWindowAck (now + 1)]

def probedOps : List Op :=
  [.prepare 1500 5, .completeTransmit 2 true 5] ++ probeRound 3 1005 ++
    probeRound 4 2005 ++ probeRound 5 4005 ++ probeRound 6 8005 ++
    probeRound 7 16005 ++ probeRound 8 32005 ++ probeRound 9 64005 ++
    probeRound 10 124005 ++ probeRound 11 184005

theorem zero_window_timeout_probed :
    stalled.1.failure ≠ .timedOut ∧ Op.everyStep (fun d _ => d.streams) stalled.1 probedOps = true ∧
      Op.everyState (fun d => d.failure != .timedOut) stalled.1 probedOps = true :=
  ⟨by decide +kernel, by decide +kernel,
    (zero_window_timeout stalled.1 stalled.2 probedOps (by decide +kernel) (by decide +kernel)).1.mpr
      (by decide +kernel)⟩

/-- Every probe and retransmission was answered in time, and the next deadline times the connection out. -/
theorem answered_probes_time_out : Reachable stalled.1 stalled.2 ∧
    Op.everyStep (fun d _ => d.streams) stalled.1 (probedOps ++ [.tick 244005]) = true ∧
    stalled.1.answered false (probedOps ++ [.tick 244005]) = true ∧
    (Op.runs stalled.1 stalled.2 (probedOps ++ [.tick 244005])).1.failure = .timedOut :=
  ⟨Reachable.fresh.runs stalledOps, by decide +kernel, by decide +kernel, by decide +kernel⟩

end ObfuscationKernel.Net.Tcp
