import ObfuscationKernel.Net.Sender

/-! What a received segment can do to the timers and to loss recovery, one deed after another, and the
retransmission timeout that stays positive in every run. -/

namespace ObfuscationKernel.Net.Tcp

open ObfuscationKernel.Core Library Library.Serial Wire Connection Tcp.Block

variable {cap : Capacities} {σ : Type}

structure Timing (cap : Capacities) where
  snd : Sender cap.send
  plan : Plan
  failure : Failure
  recover : U32
  recovery : Bool
  dupacks : ℕ
  retransmitHead : Bool
  resetPending : Bool
  rto : ℕ
  nextToken : ℕ

namespace Connection

def timing (c : Connection cap σ) : Timing cap :=
  ⟨c.snd, c.plan, c.failure, c.recover, c.recovery, c.dupacks, c.retransmitHead, c.resetPending, c.rto, c.nextToken⟩

section

variable {c : Connection cap σ}

lemma challenge_timing {now : ℕ} : (c.challenge now).2.timing = c.timing := by
  unfold challenge
  split <;> rfl

lemma updateWindow_timing (f : TcpFields) : (c.updateWindow f).timing = c.timing := by
  unfold updateWindow
  dsimp only
  split_ifs <;> rfl

end

variable [CongestionControl σ]

inductive Deeds (c₀ : Connection cap σ) : Connection cap σ → Prop
  | refl : Deeds c₀ c₀
  | touch {c c' : Connection cap σ} : Deeds c₀ c → c'.timing = c.timing → Deeds c₀ c'
  | acknowledge {c : Connection cap σ} (ack : U32) (now : ℕ) : Deeds c₀ c → c.timing = c₀.timing →
      Deeds c₀ (c.acknowledge ack now)
  | duplicateAck {c : Connection cap σ} (r : ℕ) : Deeds c₀ c → c.timing = { c₀.timing with rto := r } →
      Deeds c₀ c.duplicateAck
  | slow {c : Connection cap σ} : Deeds c₀ c → Deeds c₀ { c with rto := 3000 }
  | rest {c : Connection cap σ} : Deeds c₀ c → c₀.state ≠ .established → c₀.state ≠ .closeWait →
      Deeds c₀ { c with snd := { c.snd with rtx := {} } }
  | terminate {c : Connection cap σ} (reason : Failure) : Deeds c₀ c → reason ≠ .timedOut →
      Deeds c₀ (c.terminate reason)
  | queueReset {c : Connection cap σ} (destination : Endpoint) (seq : U32) : Deeds c₀ c → c.snd = c₀.snd →
      c₀.state.opening = true ∨ c₀.state = .listen → Deeds c₀ (c.queueReset destination seq)

section

variable {c₀ c : Connection cap σ} {seg : Wire.Tcp} {now : ℕ}

lemma acknowledge_state_streaming {ack : U32} (h : c.state = .established ∨ c.state = .closeWait) :
    (c.acknowledge ack now).state = c.state := by
  obtain ⟨due, hb⟩ := acknowledge_toBlock c ack now
  rw [hb]
  unfold Block.acknowledge
  split_ifs
  · rfl
  · rcases h with h | h <;> simp [enter, State.finAcked, h]
  · rfl

def Unmoved (c₀ c : Connection cap σ) (una : U32) : Prop :=
  (∃ r, c.timing = { c₀.timing with rto := r }) ∨ c.snd.sndUna ≠ una

lemma Deeds.noteDuplicate (h : Deeds c₀ c) {una : U32} (hu : Unmoved c₀ c una) (window : ℕ) :
    Deeds c₀ (c.noteDuplicate una window seg) := by
  unfold Connection.noteDuplicate
  dsimp only
  split
  · next hd =>
    simp only [Bool.and_eq_true, beq_iff_eq] at hd
    obtain ⟨r, hr⟩ := hu.resolve_right (not_not.mpr hd.1.1.1.1.1.2)
    exact h.duplicateAck r hr
  · exact h

lemma Deeds.consume (h : Deeds c₀ c)
    (hs : c₀.state = .established ∨ c₀.state = .closeWait → c.state = .established ∨ c.state = .closeWait) :
    Deeds c₀ (c.consume seg now) := by
  have hf : (c.consume seg now).timing = { c.timing with snd := (c.toBlock.consume seg).snd } := by
    unfold Connection.consume timing Block.consume
    dsimp only
    split_ifs <;> rfl
  rcases consume_snd c.toBlock seg with ⟨-, he⟩ | ⟨-, he⟩
  · exact h.touch (by rw [hf, he]; rfl)
  by_cases ht : c.state.finReceived = .timeWait
  · have hn : ¬ (c₀.state = .established ∨ c₀.state = .closeWait) := by
      intro hc
      rcases hs hc with hc | hc <;> simp [hc, State.finReceived] at ht
    refine (h.rest (fun hc => hn (.inl hc)) (fun hc => hn (.inr hc))).touch ?_
    rw [hf, he, ht]
    rfl
  · exact h.touch (by rw [hf, he, if_neg (by simpa using ht)]; rfl)

lemma Deeds.ingressData (h : Deeds c₀ c) {una : U32} (hu : Unmoved c₀ c una) (window : ℕ)
    (hs : c₀.state = .established ∨ c₀.state = .closeWait → c.state = .established ∨ c.state = .closeWait) :
    Deeds c₀ (c.ingressData una window seg now).2 := by
  have hw := c.updateWindow_timing seg.fields
  have hu : Unmoved c₀ (c.updateWindow seg.fields) una := by
    unfold Unmoved
    rw [hw, show (c.updateWindow seg.fields).snd = c.snd from congrArg Timing.snd hw]
    exact hu
  have hd : Deeds c₀ (Connection.noteDuplicate _ una window seg) := (h.touch hw).noteDuplicate hu window
  have hb : ((c.updateWindow seg.fields).noteDuplicate una window seg).state = c.state := by
    rw [show state _ = ((c.updateWindow seg.fields).noteDuplicate una window seg).toBlock.state from rfl,
      noteDuplicate_toBlock, updateWindow_toBlock]
  unfold Connection.ingressData
  split_ifs
  · exact h
  · exact hd
  · refine hd.consume ?_
    rwa [hb]

omit [CongestionControl σ] in
lemma sampleAcked_timing (ack : U32) (now : ℕ) :
    ∃ r, (c.sampleAcked ack now).timing = { c.timing with rto := r } ∧ (0 < c.rto → 0 < r) := by
  have hm : ∀ x : ℕ, 0 < min (if x < 1000 then 1000 else x) maxRtoMs := by
    intro x
    unfold maxRtoMs
    split_ifs <;> omega
  unfold sampleAcked
  split_ifs
  · refine ⟨(c.sampleRtt (now - c.rttSentAt)).rto, ?_, fun _ => hm _⟩
    unfold sampleRtt timing
    split_ifs <;> rfl
  · exact ⟨c.rto, rfl, id⟩

lemma noteAcked_timing (ack : U32) (released : ℕ) : (c.noteAcked ack released).timing = { c.timing with
      recovery := c.recovery && before ack c.recover
      retransmitHead := c.retransmitHead || (c.recovery && before ack c.recover) } := by
  unfold noteAcked timing
  split_ifs with h1 h2 <;> simp_all

omit [CongestionControl σ] in
lemma noteFin_timing (ack : U32) (now : ℕ) : (c.noteFin ack now).timing = c.timing := by
  unfold noteFin
  split_ifs
  · rfl
  · split <;> rfl

lemma acknowledge_timing (ack : U32) (now : ℕ) (hi : c.ackIgnored ack = false) : ∃ r due, (c.acknowledge ack now).timing =
      { c.timing with
        dupacks := 0, rto := r, snd := (c.toBlock.acknowledge ack due).snd
        recovery := c.recovery && before ack c.recover
        retransmitHead := c.retransmitHead || (c.recovery && before ack c.recover) } ∧ (0 < c.rto → 0 < r) := by
  obtain ⟨r, hs, hr⟩ := c.sampleAcked_timing ack now
  have hn := (c.sampleAcked ack now).noteAcked_timing ack (c.ackReleases ack)
  have hf := ((c.sampleAcked ack now).noteAcked ack (c.ackReleases ack)).noteFin_timing ack now
  unfold acknowledge
  generalize ((c.sampleAcked ack now).noteAcked ack (c.ackReleases ack)).noteFin ack now = d at hf ⊢
  rw [hn, hs] at hf
  simp only [timing, Timing.mk.injEq] at hf hs ⊢
  refine ⟨r, deadline now d.rto, ?_, hr⟩
  have hk : (c.toBlock.acknowledge ack (deadline now d.rto)).failure = c.failure := by
    unfold Block.acknowledge
    split_ifs <;> rfl
  simp_all

lemma acknowledge_cases (ack : U32) (now : ℕ) : c.acknowledge ack now = c ∨ ack ≠ c.snd.sndUna ∧
    ∃ r snd, (c.acknowledge ack now).timing = { c.timing with
      dupacks := 0, rto := r, snd := snd, recovery := c.recovery && before ack c.recover
      retransmitHead := c.retransmitHead || (c.recovery && before ack c.recover) } ∧ (0 < c.rto → 0 < r) ∧
      snd.sndUna = ack ∧ snd.iss = c.snd.iss ∧ snd.sndMax = c.snd.sndMax := by
  cases hi : c.ackIgnored ack with
  | true =>
    left
    unfold acknowledge
    rw [if_pos hi]
  | false =>
  obtain ⟨r, due, ht, hr⟩ := c.acknowledge_timing ack now hi
  refine .inr ⟨?_, r, _, ht, hr, ?_⟩
  · rintro rfl
    simp [ackIgnored, after, before] at hi
  · unfold Block.acknowledge Block.enter
    rw [if_neg (by simp [hi])]
    split_ifs <;> exact ⟨rfl, rfl, rfl⟩

lemma Unmoved.acknowledge (ht : c.timing = c₀.timing) (ack : U32) (now : ℕ) :
    Unmoved c₀ (c.acknowledge ack now) c.snd.sndUna := by
  rcases c.acknowledge_cases ack now with h | ⟨hn, r, snd, h, -, hu, -⟩
  · exact .inl ⟨c₀.rto, by rw [h, ht]; rfl⟩
  · exact .inr (by rwa [show (c.acknowledge ack now).snd = snd from congrArg Timing.snd h, hu])

lemma Unmoved.establish (ht : c.timing = c₀.timing) (ack : U32) : Unmoved c₀ (c.establish ack now) c.snd.sndUna := by
  rcases Unmoved.acknowledge ht ack now with ⟨r, h⟩ | h
  · refine .inl ⟨(c.establish ack now).rto, ?_⟩
    simp only [timing, Timing.mk.injEq] at h ⊢
    unfold Connection.establish
    simp [h]
  · exact .inr h

lemma Deeds.establish (h : Deeds c₀ c) (hb : c.timing = c₀.timing) (ack : U32) : Deeds c₀ (c.establish ack now) := by
  have ha := h.acknowledge ack now hb
  unfold Connection.establish
  dsimp only
  split_ifs
  · exact ha.slow.touch rfl
  · exact ha.touch rfl

lemma Deeds.receiveSyn (h : Deeds c₀ c) (hb : c.timing = c₀.timing) : Deeds c₀ (c.receiveSyn seg now).2 := by
  unfold Connection.receiveSyn
  dsimp only
  split_ifs
  · exact (h.establish hb seg.fields.acknowledgment).touch rfl
  · exact h.touch challenge_timing

lemma Deeds.ingressAck (h : Deeds c₀ c) (hb : c.toBlock = c₀.toBlock) (ht : c.timing = c₀.timing) :
    Deeds c₀ (c.ingressAck seg now).2 := by
  have hs := congrArg state hb
  unfold Connection.ingressAck
  dsimp only
  split_ifs with _ _ hr
  · exact h
  · exact h.touch challenge_timing
  · refine h.queueReset _ _ (congrArg snd hb) (.inl ?_)
    rw [← hs, eq_of_beq hr]
    rfl
  · refine (h.establish ht _).ingressData (.establish ht _) _ fun hc => ?_
    rw [← hs, eq_of_beq hr] at hc
    simp at hc
  · refine (h.acknowledge _ _ ht).ingressData (.acknowledge ht _ _) _ fun hc => ?_
    rw [← hs] at hc
    rwa [acknowledge_state_streaming hc]
  · exact h.ingressData (.inl ⟨c₀.rto, ht⟩) _ fun hc => hs ▸ hc

lemma Deeds.ingressSynchronized (h : Deeds c₀ c) (hb : c.toBlock = c₀.toBlock) (ht : c.timing = c₀.timing) :
    Deeds c₀ (c.ingressSynchronized seg now).2 ∨
      c₀.state = .synReceived ∧ (c.ingressSynchronized seg now).2 = c.returnToListen := by
  unfold Connection.ingressSynchronized
  dsimp only
  split_ifs with _ _ _ _ hr
  · exact .inl (h.touch rfl)
  · exact .inl h
  · exact .inl (h.touch challenge_timing)
  · simp only [Bool.and_eq_true, beq_iff_eq] at hr
    exact .inr ⟨(congrArg state hb).symm.trans hr.1, rfl⟩
  · exact .inl (h.terminate .reset (by decide))
  · exact .inl (h.receiveSyn ht)
  · exact .inl (h.ingressAck hb ht)

lemma Deeds.ingressListen (h : Deeds c₀ c) (hb : c.toBlock = c₀.toBlock) (hl : c.state = .listen)
    (source : Endpoint) : Deeds c₀ (c.ingressListen source seg).2 := by
  unfold Connection.ingressListen
  dsimp only
  split_ifs
  · exact h
  · exact h.queueReset _ _ (congrArg snd hb) (.inr ((congrArg state hb).symm.trans hl))
  · exact h
  · exact h
  · exact h.touch rfl

lemma Deeds.ingressSynSent (h : Deeds c₀ c) (hb : c.toBlock = c₀.toBlock) (ht : c.timing = c₀.timing)
    (hl : c.state = .synSent) :
    Deeds c₀ (c.ingressSynSent seg now).2 := by
  have ho : c₀.state.opening = true := by
    rw [← hb, hl]
    rfl
  unfold Connection.ingressSynSent
  dsimp only
  generalize hz : (negotiateMss _ seg : Connection cap σ) = z
  have hzt : z.timing = c.timing := by
    rw [← hz]
    rfl
  have hd := h.touch hzt
  split_ifs
  · exact h.queueReset _ _ (congrArg snd hb) (.inl ho)
  · exact h
  · exact h.terminate .refused (by decide)
  · exact h
  · exact h
  · exact (hd.establish (hzt.trans ht) _).touch rfl
  · exact hd.touch rfl

lemma ingressState_deeds (h : Deeds c₀ c) (hb : c.toBlock = c₀.toBlock) (ht : c.timing = c₀.timing)
    (source : Endpoint) :
    Deeds c₀ (c.ingressState source seg now).2 ∨
      c₀.state = .synReceived ∧ (c.ingressState source seg now).2 = c.returnToListen := by
  unfold ingressState
  dsimp only
  split_ifs with _ _ _ hl hs
  iterate 3 exact .inl h
  · exact .inl (h.ingressListen hb (eq_of_beq hl) source)
  · exact .inl (h.ingressSynSent hb ht (eq_of_beq hs))
  · exact .inl (h.touch challenge_timing)
  · exact .inl (h.touch rfl)
  · exact .inl (h.touch rfl)
  · exact .inl h
  · exact .inl (h.receiveSyn ht)
  · exact h.ingressSynchronized hb ht

lemma receive_deeds (c : Connection cap σ) (packet : Result Datagram) (now : ℕ) : Deeds c (c.receive packet now).2 ∨
      c.state = .synReceived ∧ (c.receive packet now).2 = ({ c with lastNow := now }).returnToListen := by
  unfold receive
  split_ifs
  · exact .inl .refl
  · exact .inl .refl
  cases packet with
  | error status => exact .inl .refl
  | ok d =>
  unfold ingress
  dsimp only
  split_ifs
  · exact .inl .refl
  · exact .inl .refl
  · have hd : Deeds c { c with lastNow := now } := Deeds.refl.touch rfl
    exact ingressState_deeds hd rfl rfl _

/-- What no deed touches, or only towards what it should be. -/
lemma Deeds.frame (h : Deeds c₀ c) : (0 < c₀.rto → 0 < c.rto) ∧ (c₀.failure ≠ .timedOut → c.failure ≠ .timedOut) ∧
    c.plan = c₀.plan ∧ c.nextToken = c₀.nextToken ∧ c.snd.sndMax = c₀.snd.sndMax ∧ c.snd.iss = c₀.snd.iss := by
  induction h with
  | refl => exact ⟨id, id, rfl, rfl, rfl, rfl⟩
  | touch _ ht ih =>
    simp only [timing, Timing.mk.injEq] at ht
    simpa only [ht] using ih
  | @acknowledge c ack now _ _ ih =>
    rcases c.acknowledge_cases ack now with h | ⟨-, r, snd, h, hr, -, hi, hm⟩
    · rwa [h]
    simp only [timing, Timing.mk.injEq] at h
    simp only [h, hi, hm]
    exact ⟨fun h => hr (ih.1 h), ih.2⟩
  | @duplicateAck c r _ _ ih =>
    unfold Connection.duplicateAck
    dsimp only
    split_ifs <;> exact ih
  | slow _ ih => exact ⟨fun _ => Nat.succ_pos _, ih.2⟩
  | terminate reason _ hr ih => exact ⟨ih.1, fun _ => hr, ih.2.2⟩
  | _ => assumption

end

end Connection

end ObfuscationKernel.Net.Tcp
