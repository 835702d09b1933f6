import ObfuscationKernel.Net.Reactions

/-! A prepared packet that the device refuses: what `prepare` has touched before the packet is sent, and
tokens that are spent. -/

namespace ObfuscationKernel.Net.Tcp

open ObfuscationKernel.Core Library Library.Serial Wire Connection Timing Op

variable {cap : Capacities} {σ : Type} [CongestionControl σ]

namespace Connection

variable {c : Connection cap σ} {now size : ℕ}

variable {t c' : Connection cap σ} {delay token : ℕ}

lemma deadline_pos (h : 0 < delay) : deadline now delay ≠ 0 := by
  unfold deadline u64Max
  split_ifs <;> omega

lemma lt_deadline (h : 0 < delay) (hn : now < u64Max) : now < deadline now delay := by
  unfold deadline
  split_ifs <;> omega

lemma sendNext_again {next : Plan} {o : Option Plan} (h : c.sendNext next now = (o, c'))
    (hr : 0 < c.rto) (hd : now < u64Max ∨ c'.persistDeadline = c.persistDeadline) (token : ℕ) (q : Plan) :
    ({ c' with nextToken := token, plan := q } : Connection cap σ).sendNext next now =
      (o, { c' with nextToken := token, plan := q }) := by
  unfold sendNext at h
  by_cases h1 : ((c.snd.txSize - c.snd.sentData ≠ 0 && c.usable ≠ 0) : Bool) = true
  · rw [if_pos h1] at h
    obtain ⟨rfl, rfl⟩ := Prod.mk.inj h
    exact if_pos h1
  rw [if_neg h1] at h
  by_cases h2 : ((c.snd.txSize - c.snd.sentData ≠ 0 && c.peerWindow = 0 && c.snd.outstanding.toNat = 0) : Bool) = true
  · rw [if_pos h2] at h
    by_cases h3 : c.persistDeadline = 0
    · rw [if_pos h3] at h
      obtain ⟨rfl, rfl⟩ := Prod.mk.inj h
      have hn := hd.resolve_right fun he => deadline_pos hr (he.trans h3)
      refine (if_neg h1).trans ((if_pos h2).trans ((if_neg (deadline_pos hr)).trans (if_pos (lt_deadline hr hn))))
    rw [if_neg h3] at h
    split_ifs at h with h4 <;> obtain ⟨rfl, rfl⟩ := Prod.mk.inj h <;> unfold sendNext
    · exact (if_neg h1).trans ((if_pos h2).trans ((if_neg h3).trans (if_pos h4)))
    · exact (if_neg h1).trans ((if_pos h2).trans ((if_neg h3).trans (if_neg h4)))
  rw [if_neg h2] at h
  split_ifs at h with h3 <;> obtain ⟨rfl, rfl⟩ := Prod.mk.inj h <;> unfold sendNext
  · exact (if_neg h1).trans ((if_neg h2).trans (if_pos h3))
  · exact (if_neg h1).trans ((if_neg h2).trans (if_neg h3))

/-- What `prepare` owes before new data: a reset, a SYN, the segment of an expired timer, or the segment that
duplicate ACKs ask for; the inner `none` stands for an owed segment that turned out to be empty. -/
def urgent (c : Connection cap σ) (now : ℕ) : Option (Option Plan) :=
  let next : Plan := { active := true, destination := c.peer }
  if c.resetPending then
    some (some { next with
      kind := .reset, destination := c.resetPeer
      fields := { sequence := c.resetSeq, flags := tcpRst } })
  else if c.pendingSyn then
    some (some { next with
      kind := if c.snd.rtx.active && c.passive then .retry else .syn
      fields := { sequence := c.snd.iss, flags := c.synFlags } })
  else if c.snd.rtx.active && decide (now ≥ c.snd.rtx.deadline) then
    let next := { next with kind := .retry, fields := { sequence := c.snd.sndUna } }
    some (if c.state == .synSent || c.state == .synReceived then
      some { next with fields := { next.fields with flags := c.synFlags } } else c.head next)
  else if c.retransmitHead && c.sending then
    some (c.head { next with kind := .fast, fields := { sequence := c.snd.sndUna } })
  else none

def sendNew (c : Connection cap σ) (now : ℕ) : Option Plan × Connection cap σ :=
  if c.sending then c.sendNext { active := true, destination := c.peer } now else (none, c)

def bareAck (c : Connection cap σ) : Plan :=
  { active := true, destination := c.peer, kind := .ack, fields := { sequence := c.snd.sndNxt, flags := tcpAck } }

lemma sendNew_eq (c : Connection cap σ) (now : ℕ) :
    (c.sendNew now).2 = { c with persistDeadline := (c.sendNew now).2.persistDeadline } := by
  unfold sendNew
  split_ifs
  · obtain ⟨due, he⟩ := c.sendNext_eq { active := true, destination := c.peer } now
    rw [he]
  · rfl

lemma select_of_urgent {o : Option Plan} (h : c.urgent now = some o) :
    (c.select now).1 = o ∧ (o ≠ none → (c.select now).2 = c) := by
  unfold urgent at h
  unfold select
  by_cases h1 : c.resetPending = true
  · rw [if_pos h1] at h ⊢
    exact ⟨Option.some.inj h, fun _ => rfl⟩
  rw [if_neg h1] at h ⊢
  by_cases h2 : c.pendingSyn = true
  · rw [if_pos h2] at h ⊢
    exact ⟨Option.some.inj h, fun _ => rfl⟩
  split_ifs at h ⊢
  iterate 2 exact ⟨Option.some.inj h, fun _ => rfl⟩
  obtain rfl := Option.some.inj h
  cases c.head { active := true, kind := .fast, destination := c.peer, fields := { sequence := c.snd.sndUna } } <;>
    simp

lemma select_of_idle (h : c.urgent now = none) : c.select now = (match (c.sendNew now).1 with
      | some plan => some plan
      | none => if c.pendingAck then some c.bareAck else none, (c.sendNew now).2) := by
  have he := c.sendNew_eq now
  unfold urgent at h
  unfold select
  split_ifs at h with h1 h2 h3 h4
  rw [if_neg h1, if_neg h2, if_neg h3, if_neg h4,
    show (if c.sending = true then c.sendNext { active := true, destination := c.peer } now else (none, c)) =
      c.sendNew now from rfl]
  generalize c.sendNew now = r at he ⊢
  obtain ⟨o, d⟩ := r
  simp only at he
  cases o with
  | some plan => rfl
  | none =>
    rw [he]
    by_cases ha : c.pendingAck = true <;> simp [ha, bareAck]

lemma select_again {plan : Plan} (h : c.select now = (some plan, c')) :
    c' = { c with persistDeadline := c'.persistDeadline } ∧
      (0 < c.rto → now < u64Max ∨ c'.persistDeadline = c.persistDeadline → ∀ (token : ℕ) (q : Plan),
        ({ c' with nextToken := token, plan := q } : Connection cap σ).select now =
          (some plan, { c' with nextToken := token, plan := q })) := by
  cases hu : c.urgent now with
  | some o =>
    obtain ⟨ho, hc⟩ := select_of_urgent hu
    rw [h] at ho hc
    obtain rfl := ho
    have hc := hc (by simp)
    subst hc
    refine ⟨rfl, fun _ _ token q => ?_⟩
    obtain ⟨ho, hc⟩ := select_of_urgent
      (show ({ c' with nextToken := token, plan := q } : Connection cap σ).urgent now = some (some plan) from hu)
    exact Prod.ext ho (hc (by simp))
  | none =>
  have he := select_of_idle hu
  rcases hn : c.sendNew now with ⟨o, d⟩
  rw [h, hn] at he
  obtain ⟨hp, rfl⟩ := Prod.mk.inj he
  obtain ⟨due, rfl⟩ : ∃ due, c' = { c with persistDeadline := due } := by
    have hd := c.sendNew_eq now
    rw [hn] at hd
    exact ⟨_, hd⟩
  refine ⟨rfl, fun hr hw token q => ?_⟩
  have hn' : ({ c with persistDeadline := due, nextToken := token, plan := q } : Connection cap σ).sendNew now =
      (o, { c with persistDeadline := due, nextToken := token, plan := q }) := by
    unfold sendNew at hn ⊢
    split_ifs at hn with hs
    · exact (if_pos hs).trans (sendNext_again hn hr hw token q)
    · rw [← (Prod.mk.inj hn).1]
      exact if_neg hs
  have hu' : ({ c with persistDeadline := due, nextToken := token, plan := q } : Connection cap σ).urgent now = none := hu
  rw [select_of_idle hu', hn', hp]
  rfl

lemma prepare_timing (c : Connection cap σ) (size now : ℕ) : ∃ q head n, (c.prepare size now).2.timing =
      { (c.tick now).2.timing with plan := q, retransmitHead := head, nextToken := n } ∧
      (c.prepare size now).2.state = (c.tick now).2.state ∧
      (q = (c.tick now).2.plan ∧ n = (c.tick now).2.nextToken ∨ (q.token = n ∧ n = (c.tick now).2.nextToken + 1) ∧
          ∃ plan, ((c.tick now).2.select now).1 = some plan ∧ q.kind = plan.kind) := by
  rcases c.prepare_cases size now with ⟨⟨due, head, h⟩, -⟩ | ⟨t, t', plan, length, packet, ht, -, hs, -, h⟩
  · rw [h]
    exact ⟨_, head, _, rfl, rfl, .inl ⟨rfl, rfl⟩⟩
  obtain ⟨due, head, he⟩ := t.select_eq now
  rw [hs] at he
  obtain rfl := he
  rw [h, ht]
  exact ⟨_, head, t.nextToken + 1, rfl, rfl, .inr ⟨⟨rfl, rfl⟩, plan, by rw [hs], rfl⟩⟩

lemma tick_timing (c : Connection cap σ) (now : ℕ) : (∃ r, (c.tick now).2.timing = { c.timing with resetPending := r } ∧
        (r = true → c.resetPending = true ∧ (c.tick now).2.state = c.state)) ∨
      c.state = .synReceived ∧ (c.tick now).2 = ({ c with lastNow := now }).returnToListen ∨
      (c.tick now).2.timing = (c.terminate .timedOut).timing := by
  rcases c.tick_cases now with ⟨-, _, h⟩ | ⟨-, -, t, h, hf⟩ <;> rw [h]
  · exact .inl ⟨c.resetPending, rfl, fun h => ⟨h, rfl⟩⟩
  cases hf with
  | rest => exact .inl ⟨c.resetPending, rfl, fun h => ⟨h, rfl⟩⟩
  | expire => exact .inl ⟨false, rfl, by simp⟩
  | relisten hs => exact .inr (.inl ⟨hs, rfl⟩)
  | timeout => exact .inr (.inr rfl)

inductive Settles (c : Connection cap σ) (accepted : Bool) : Timing cap → Prop
  | refused : accepted = false → Settles c accepted { c.timing with plan := {} }
  | reset : c.plan.kind = .reset → accepted = true →
      Settles c accepted { c.timing with plan := {}, resetPending := false }
  | ack : c.plan.kind = .ack → accepted = true → Settles c accepted { c.timing with plan := {} }
  | fast : c.plan.kind = .fast → accepted = true →
      Settles c accepted { c.timing with plan := {}, retransmitHead := false }
  | syn (due : ℕ) : c.plan.kind = .syn → accepted = true →
      Settles c accepted { c.timing with plan := {}, snd := (c.toBlock.completeSyn c.plan due).snd }
  | retrySyn (due : ℕ) : c.plan.kind = .retry → accepted = true → c.plan.fields.has tcpSyn = true →
      Settles c accepted { c.timing with
        plan := {}, rto := min (c.rto * 2) maxRtoMs
        snd := { c.snd with rtx := { c.snd.rtx with retries := c.snd.rtx.retries + 1, deadline := due } } }
  | retry (due : ℕ) : c.plan.kind = .retry → accepted = true → c.plan.fields.has tcpSyn = false →
      Settles c accepted { c.timing with
        plan := {}, rto := min (c.rto * 2) maxRtoMs
        snd := { c.snd with
          rtx := { c.snd.rtx with retries := c.snd.rtx.retries + 1, deadline := due }, sndNxt := Block.stop c.plan }
        recover := c.snd.sndMax, recovery := false, retransmitHead := false, dupacks := 0 }
  | new (due : ℕ) : c.plan.kind = .data ∨ c.plan.kind = .probe ∨ c.plan.kind = .fin → accepted = true →
      Settles c accepted { c.timing with plan := {}, snd := (c.toBlock.completeNew c.plan due).snd }

section

omit [CongestionControl σ]

lemma Settles.idle {accepted : Bool} {t : Timing cap} (h : c.Settles accepted t) :
    t.plan = {} ∧ t.nextToken = c.nextToken := by
  cases h <;> exact ⟨rfl, rfl⟩

lemma time_timing (stop : U32) (now : ℕ) : (c.time stop now).timing = c.timing := by
  unfold time
  split_ifs <;> rfl

lemma complete_timing (sent : Plan) :
    (c.completeSyn sent now).timing = { c.timing with snd := (c.toBlock.complete sent (deadline now c.rto)).snd } ∧
    (c.completeNew sent now).timing = { c.timing with snd := (c.toBlock.complete sent (deadline now c.rto)).snd } := by
  obtain ⟨hp, -, -, -⟩ := Block.complete_frame c.toBlock sent (deadline now c.rto)
  obtain ⟨-, -, -, hf⟩ := Block.complete_snd c.toBlock sent (deadline now c.rto)
  have ht := c.time_timing (Block.stop sent) now
  simp only [timing, Timing.mk.injEq] at ht
  unfold completeSyn completeNew timing
  constructor <;> split_ifs <;> simp [hp, hf, ht]

end

lemma completeRetry_timing (sent : Plan) (now : ℕ) : ∃ due, (c.completeRetry sent now).timing =
    if sent.fields.has tcpSyn then
      { c.timing with rto := min (c.rto * 2) maxRtoMs, snd := (c.toBlock.complete sent due).snd }
    else
      { c.timing with
        rto := min (c.rto * 2) maxRtoMs, snd := (c.toBlock.complete sent due).snd
        recover := c.snd.sndMax, recovery := false, retransmitHead := false, dupacks := 0 } := by
  refine ⟨deadline now (min (c.rto * 2) maxRtoMs), ?_⟩
  obtain ⟨hp, -, -, -⟩ := Block.complete_frame c.toBlock sent (deadline now (min (c.rto * 2) maxRtoMs))
  obtain ⟨-, -, -, hf⟩ := Block.complete_snd c.toBlock sent (deadline now (min (c.rto * 2) maxRtoMs))
  unfold completeRetry timing
  split_ifs <;> simp [hp, hf]

lemma completeTransmit_settles {accepted : Bool} (hp : c.plan.active = true)
    (ht : c.plan.token = token) (hn : c.lastNow ≤ now) :
    (c.completeTransmit token accepted now).1 = .ok () ∧
      Settles c accepted (c.completeTransmit token accepted now).2.timing := by
  have hb : ¬ (!c.plan.active || c.plan.token != token) = true := by simp [hp, ht]
  unfold completeTransmit
  rw [if_neg hb, if_neg (not_lt.mpr hn)]
  cases accepted with
  | false => exact ⟨rfl, .refused rfl⟩
  | true =>
  rw [if_neg (by simp)]
  cases hk : c.plan.kind with
  | reset => exact ⟨rfl, .reset hk rfl⟩
  | ack => exact ⟨rfl, .ack hk rfl⟩
  | fast => exact ⟨rfl, .fast hk rfl⟩
  | syn =>
    refine ⟨rfl, ?_⟩
    rw [if_neg (by decide), (complete_timing _).1]
    simp only [Block.complete, hk]
    exact .syn _ hk rfl
  | retry =>
    refine ⟨rfl, ?_⟩
    rw [if_neg (by decide)]
    obtain ⟨due, he⟩ := completeRetry_timing (c := { c with
      plan := {}, lastNow := now, pendingAck := c.pendingAck && !c.plan.fields.has tcpAck }) c.plan now
    rw [he]
    simp only [Block.complete, hk, Block.completeRetry]
    split_ifs with hf
    · exact .retrySyn due hk rfl hf
    · exact .retry due hk rfl (by simpa using hf)
  | data | probe | fin =>
  refine ⟨rfl, ?_⟩
  rw [if_neg (by decide), (complete_timing _).2]
  simp only [Block.complete, hk]
  exact .new _ (by simp [hk]) rfl

lemma completeTransmit_stale (accepted : Bool) (h : c.plan.active = false ∨ c.plan.token ≠ token) :
    c.completeTransmit token accepted now = (.error (.invalidArgument "stale TCP packet token"), c) := by
  unfold completeTransmit
  rw [if_pos (by rcases h with h | h <;> simp [h])]

lemma completeTransmit_effect (c : Connection cap σ) (token : ℕ) (accepted : Bool) (now : ℕ) :
    ((c.completeTransmit token accepted now).2 = c ∧ (c.completeTransmit token accepted now).1 ≠ .ok () ∧
      ¬ (c.plan.active = true ∧ c.plan.token = token ∧ c.lastNow ≤ now)) ∨
      c.plan.active = true ∧ c.plan.token = token ∧ c.lastNow ≤ now ∧
        Settles c accepted (c.completeTransmit token accepted now).2.timing := by
  by_cases h : c.plan.active = false ∨ c.plan.token ≠ token
  · rw [completeTransmit_stale accepted h]
    refine .inl ⟨rfl, by simp, ?_⟩
    rintro ⟨ha, ht, -⟩
    simp [ha, ht] at h
  push Not at h
  have ha : c.plan.active = true := by simpa using h.1
  by_cases hn : now < c.lastNow
  · left
    unfold completeTransmit
    rw [if_neg (by simp [ha, h.2]), if_pos hn]
    exact ⟨rfl, by simp, fun hx => absurd hn (not_lt.mpr hx.2.2)⟩
  · exact .inr ⟨ha, h.2, not_lt.mp hn, (completeTransmit_settles ha h.2 (not_lt.mp hn)).2⟩

end Connection

variable {c : Connection cap σ} {h : History}

def Op.Frames (c d : Connection cap σ) : Prop :=
  (0 < c.rto → 0 < d.rto) ∧ ((d.plan = c.plan ∨ d.plan.active = false) ∧ d.nextToken = c.nextToken ∨
    d.plan.token = c.nextToken + 1 ∧ d.nextToken = c.nextToken + 1)

lemma Op.run_frames (op : Op) : Frames c (op.run c).2 := by
  have hsame : Frames c c := ⟨id, .inl ⟨.inl rfl, rfl⟩⟩
  have hopen {d : Connection cap σ} (hr : 0 < d.rto) (hp : d.plan.active = false) (hn : d.nextToken = c.nextToken) : Frames c d :=
    ⟨fun _ => hr, .inl ⟨.inr hp, hn⟩⟩
  have ht (now : ℕ) : (0 < c.rto → 0 < (c.tick now).2.rto) ∧
      ((c.tick now).2.plan = c.plan ∨ (c.tick now).2.plan.active = false) ∧ (c.tick now).2.nextToken = c.nextToken := by
    rcases c.tick_timing now with ⟨r, h, -⟩ | ⟨-, h⟩ | h
    · exact ⟨(lt_of_lt_of_eq · (congrArg Timing.rto h).symm), .inl (congrArg Timing.plan h), congrArg Timing.nextToken h⟩
    · rw [h]
      exact ⟨fun _ => Nat.succ_pos _, .inr rfl, rfl⟩
    · exact ⟨(lt_of_lt_of_eq · (congrArg Timing.rto h).symm), .inl (congrArg Timing.plan h), congrArg Timing.nextToken h⟩
  cases op with
  | activeOpen here peer iss now =>
    simp only [run, Connection.activeOpen]
    split_ifs <;> first | exact hsame | exact hopen (Nat.succ_pos _) rfl rfl
  | passiveOpen here iss now =>
    simp only [run, Connection.passiveOpen]
    split_ifs <;> first | exact hsame | exact hopen (Nat.succ_pos _) rfl rfl
  | rearmListener iss now =>
    simp only [run, Connection.rearmListener]
    split_ifs <;> exact hsame
  | abort =>
    simp only [run, Connection.abort]
    split_ifs <;> exact hsame
  | write input =>
    simp only [run, Connection.write]
    split_ifs <;> exact hsame
  | peek size => exact hsame
  | read size =>
    simp only [run, Connection.read]
    split_ifs <;> exact hsame
  | shutdownWrite =>
    simp only [run, Connection.shutdownWrite]
    split_ifs <;> exact hsame
  | receive packet now =>
    rcases c.receive_deeds packet now with h | ⟨-, h⟩
    · obtain ⟨hr, -, hp, hn, -⟩ := h.frame
      exact ⟨hr, .inl ⟨.inl hp, hn⟩⟩
    · rw [show (run c (.receive packet now)).2 = _ from h]
      exact hopen (Nat.succ_pos _) rfl rfl
  | tick now => exact ⟨(ht now).1, .inl (ht now).2⟩
  | prepare size now =>
    obtain ⟨q, head, n, he, -, hq⟩ := c.prepare_timing size now
    simp only [timing, Timing.mk.injEq] at he
    simp only [Frames, run, Prod.map_snd, id, he]
    refine ⟨(ht now).1, ?_⟩
    rcases hq with ⟨rfl, rfl⟩ | ⟨⟨rfl, hq⟩, -⟩
    · exact .inl (ht now).2
    · rw [(ht now).2.2] at hq
      exact .inr ⟨hq, hq⟩
  | completeTransmit token accepted now =>
  simp only [run, Prod.map_snd, id]
  rcases c.completeTransmit_effect token accepted now with ⟨h, -⟩ | ⟨-, -, -, h⟩
  · rw [h]
    exact hsame
  obtain ⟨hq, hn⟩ := h.idle
  have hp : (c.completeTransmit token accepted now).2.plan = {} := hq
  refine ⟨fun hr => ?_, .inl ⟨.inr (by rw [hp]), hn⟩⟩
  have hm : 0 < min (c.rto * 2) maxRtoMs := by
    unfold maxRtoMs
    omega
  generalize he : (c.completeTransmit token accepted now).2.timing = t at h
  rw [show (c.completeTransmit token accepted now).2.rto = t.rto from congrArg Timing.rto he]
  cases h with
  | retrySyn | retry => exact hm
  | _ => exact hr

lemma Reachable.rto_pos (hr : Reachable c h) : 0 < c.rto := by
  induction hr with
  | fresh => exact Nat.succ_pos _
  | step op _ ih => exact op.run_frames.1 ih

lemma Reachable.token_le (hr : Reachable c h) : c.plan.active = true → c.plan.token ≤ c.nextToken := by
  induction hr with
  | fresh => simp [Connection.fresh]
  | @step c h op _ ih =>
  intro ha
  rcases (op.run_frames (c := c)).2 with ⟨hp | hp, hn⟩ | ⟨hp, hn⟩
  · rw [hp] at ha ⊢
    exact (ih ha).trans_eq hn.symm
  · rw [hp] at ha
    cases ha
  · rw [hp, hn]

lemma Op.runs_spent {token : ℕ} (hn : token ≤ c.nextToken) (hp : c.plan.active = true → c.plan.token ≠ token)
    (ops : List Op) : (runs c h ops).1.plan.active = false ∨ (runs c h ops).1.plan.token ≠ token := by
  induction ops generalizing c h with
  | nil =>
    by_cases ha : c.plan.active = true
    · exact .inr (hp ha)
    · exact .inl (Bool.eq_false_of_not_eq_true ha)
  | cons op ops ih =>
  refine ih ?_ ?_
  · rcases (op.run_frames (c := c)).2 with ⟨-, he⟩ | ⟨-, he⟩ <;> omega
  intro ha
  rcases (op.run_frames (c := c)).2 with ⟨he | he, -⟩ | ⟨he, -⟩
  · rw [he] at ha ⊢
    exact hp ha
  · rw [he] at ha
    cases ha
  · omega

/-- A refused packet leaves the block as the timer work alone would, and is built again byte for byte while
tokens last and the clock is not at its end; a token completes one packet once. -/
theorem refused_transmission (hr : Reachable c h) : (∀ size now p, (c.prepare size now).1 = .ok (some p) →
      let ticked := (c.tick now).2
      let refused := (c.prepare size now).2.completeTransmit p.token false now
      refused.1 = .ok () ∧
      (∃ due, refused.2 = { ticked with plan := {}, nextToken := ticked.nextToken + 1, persistDeadline := due }) ∧
      (p.token < u64Max → now < u64Max ∨ refused.2.persistDeadline = ticked.persistDeadline →
        ∃ p', (refused.2.prepare size now).1 = .ok (some p') ∧ p'.length = p.length ∧ p'.packet = p.packet) ∧
      (p.token = u64Max → (refused.2.prepare size now).1 = .error (.overflow "TCP packet token exhausted"))) ∧
    (∀ token accepted now, c.plan.active = false ∨ c.plan.token ≠ token →
      c.completeTransmit token accepted now = (.error (.invalidArgument "stale TCP packet token"), c)) ∧
    (∀ token accepted now, (c.completeTransmit token accepted now).1 = .ok () → ∀ (ops : List Op) (again : Bool) later,
      let d := (Op.runs (c.completeTransmit token accepted now).2 h ops).1
      d.completeTransmit token again later = (.error (.invalidArgument "stale TCP packet token"), d)) := by
  refine ⟨fun size now p hp => ?_, fun token accepted now hs => Connection.completeTransmit_stale accepted hs,
    fun token accepted now hk ops again later => ?_⟩
  · obtain ⟨t, t', plan, length, packet, ht, -, hs, hb, he⟩ := (c.prepare_cases size now).resolve_left fun h => h.2 p hp
    obtain ⟨hk, hl⟩ : p.token = t'.nextToken + 1 ∧ (length, packet) = (p.length, p.packet) := by
      rw [he] at hp
      cases hp
      exact ⟨rfl, rfl⟩
    rw [hl] at hb
    rw [← hk] at he
    obtain ⟨hset, hidle⟩ := Connection.tick_settled ht
    obtain ⟨hsel, hagain⟩ := Connection.select_again hs
    have hpos : 0 < t.rto := by
      have := (Op.run_frames (.tick now)).1 hr.rto_pos
      rwa [Op.run, ht] at this
    have hact : plan.active = true := by
      have hsound := (hr.step (.tick now)).sound
      have : (t.select now).1 = some plan := by rw [hs]
      refine (Connection.select_planned this ?_).1
      rwa [show ((Op.tick now).run c).2 = t from congrArg Prod.snd ht] at hsound
    obtain ⟨due, rfl⟩ : ∃ due, t' = { t with persistDeadline := due } := ⟨_, hsel⟩
    have href : (c.prepare size now).2.completeTransmit p.token false now =
        (.ok (), { t with plan := {}, nextToken := p.token, persistDeadline := due }) := by
      have hl : ({ t with plan := {}, lastNow := now, nextToken := p.token, persistDeadline := due } :
          Connection cap σ) = { t with plan := {}, nextToken := p.token, persistDeadline := due } := by
        rw [← hset.last]
      rw [he, ← hl]
      exact (if_neg (by simp [hact])).trans ((if_neg (by simp [hset.last])).trans (if_pos rfl))
    rw [ht]
    rw [href]
    have htick : ({ t with plan := {}, nextToken := p.token, persistDeadline := due } : Connection cap σ).tick now =
        (.ok (), { t with plan := {}, nextToken := p.token, persistDeadline := due }) :=
      Connection.Settled.tick { hset with } rfl
    refine ⟨rfl, ⟨due, by rw [hk]⟩, fun hmax hu => ⟨⟨p.length, p.token + 1, p.packet⟩, ?_, rfl, rfl⟩, fun hmax => ?_⟩ <;>
      unfold Connection.prepare <;> rw [if_neg (by simp), htick] <;> dsimp only
    · rw [if_neg hmax.ne, hagain hpos hu p.token {}]
      dsimp only
      have hb' : ({ t with plan := {}, nextToken := p.token, persistDeadline := due } : Connection cap σ).buildPacket
          plan size = .ok (p.length, p.packet) := hb
      rw [hb']
    · rw [if_pos hmax]
  have hc := c.completeTransmit_effect token accepted now
  rcases hc with ⟨-, hne, -⟩ | ⟨ha, rfl, -, hs⟩
  · exact absurd hk hne
  obtain ⟨hq, hn⟩ := hs.idle
  refine Connection.completeTransmit_stale again (Op.runs_spent ?_ ?_ ops)
  · exact (hr.token_le ha).trans_eq hn.symm
  intro hx
  have hq : (c.completeTransmit c.plan.token accepted now).2.plan = {} := hq
  rw [hq] at hx
  cases hx

def stalledOps : List Op :=
  let here : Endpoint := ⟨.v4 10 0 0 1, 1000⟩
  let peer : Endpoint := ⟨.v4 10 0 0 2, 80⟩
  let fields : TcpFields :=
    { sourcePort := 80, destinationPort := 1000, sequence := 500, acknowledgment := 101
      flags := tcpSyn ||| tcpAck, window := 0 }
  [.activeOpen here peer 100 0, .prepare 1500 0, .completeTransmit 1 true 0,
    .receive (.ok ⟨peer.address, here.address, ⟨fields, [], []⟩⟩) 1, .write [1, 2, 3]]

def stalled : Connection dialCapacities NewReno × History := Op.runs .fresh {} stalledOps

theorem refused_transmission_stalled : ∃ p, (stalled.1.prepare 1500 5).1 = .ok (some p) ∧
      ∃ p', (((stalled.1.prepare 1500 5).2.completeTransmit p.token false 5).2.prepare 1500 5).1 = .ok (some p') ∧
        p'.length = p.length ∧ p'.packet = p.packet :=
  ⟨_, rfl, ((refused_transmission (Reachable.fresh.runs stalledOps)).1 1500 5 _ rfl).2.2.1 (by decide +kernel)
    (.inl (by decide +kernel))⟩

/-- At the last clock value the refused ACK is followed by a probe: the persist timer started by the first
choice is due at once. -/
theorem refused_packet_replaced :
    ∃ (c : Connection dialCapacities NewReno) (h : History) (p p' : PreparedPacket), Reachable c h ∧
      (c.prepare 1500 u64Max).1 = .ok (some p) ∧ p.token < u64Max ∧
      (((c.prepare 1500 u64Max).2.completeTransmit p.token false u64Max).2.prepare 1500 u64Max).1 = .ok (some p') ∧
      p'.packet ≠ p.packet :=
  ⟨stalled.1, stalled.2, _, _, Reachable.fresh.runs stalledOps, rfl, by decide +kernel, rfl, by decide +kernel⟩

end ObfuscationKernel.Net.Tcp
