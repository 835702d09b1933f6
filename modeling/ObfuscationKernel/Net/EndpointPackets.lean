import ObfuscationKernel.Net.EndpointOps

/-! The stream, packet and timer operations of the endpoint table lead from a settled table
to a settled table. -/

namespace ObfuscationKernel.Net.Tcp

open ObfuscationKernel.Core Library Wire Function List ConnectionSlot Connection

variable {p : Pools} {cap : Capacities} {σ : Type}

namespace Connection

lemma write_shape (c : Connection cap σ) (input : List UInt8) : c.SameShape (c.write input).2.toBlock := by
  unfold write
  dsimp only
  split_ifs <;> exact ⟨rfl, rfl, rfl⟩

def due (c : Connection cap σ) (now : ℕ) : Bool :=
  c.state == .timeWait && decide (now ≥ c.timeWaitDeadline) ||
    c.snd.rtx.active && decide (now ≥ c.snd.rtx.deadline) && decide (c.snd.rtx.retries ≥ maxRetransmissions) ||
    c.state == .finWait2 && decide (now ≥ c.finWaitDeadline)

def Rested (now : ℕ) (c : Connection cap σ) : Prop := now < c.lastNow ∨ c.due now = false

variable {now : ℕ} {c : Connection cap σ}

lemma terminate_due (c : Connection cap σ) (reason : Failure) (now : ℕ) : (c.terminate reason).due now = false := by
  simp [due, terminate, Block.terminate]

lemma Settled.due (h : c.Settled now) : c.due now = false := by
  simp only [Connection.due, h.timeWait, h.retransmission, h.finWait, Bool.or_self]

variable [CongestionControl σ]

lemma tick_rested (c : Connection cap σ) (now : ℕ) (hp : c.plan.active = false) : (c.tick now).2.Rested now := by
  rcases c.tick_cases now with ⟨hb, _, h⟩ | ⟨-, -, t, h, -⟩ <;> rw [h]
  · exact .inl (hb.resolve_left (by simp [hp]))
  · exact .inr (tick_settled h).1.due

lemma tick_of_rested (h : c.Rested now) : (c.tick now).2.toBlock = c.toBlock ∧ (c.tick now).2.Rested now := by
  rcases c.tick_cases now with ⟨-, _, he⟩ | ⟨hp, hn, -⟩
  · rw [he]
    exact ⟨rfl, h⟩
  have hd := h.resolve_left hn.not_gt
  have hr := hd
  simp only [due, Bool.or_eq_false_iff] at hd
  rw [tick_of_settled ⟨rfl, hd.1.1, hd.1.2, hd.2⟩ hp hn]
  exact ⟨rfl, .inr hr⟩

lemma prepare_of_rested (size : ℕ) (hs : c.Sound) (h : c.Rested now) :
    (c.prepare size now).2.toBlock = c.toBlock ∧ (c.prepare size now).2.Rested now ∧
        (∀ q, (c.prepare size now).1 ≠ .ok (some q)) ∨
      ∃ q plan, (c.prepare size now).1 = .ok (some q) ∧ plan.active = true ∧
        (c.prepare size now).2.toBlock = { c.toBlock with plan := plan } := by
  obtain ⟨hb, hr⟩ := tick_of_rested h
  rcases c.prepare_cases size now with ⟨⟨due, head, hq⟩, hne⟩ | ⟨t, t', plan, length, packet, ht, -, hc, -, hq⟩
  · rw [hq]
    exact .inl ⟨hb, hr, hne⟩
  have hd := t.select_toBlock now
  rw [hc] at hd
  rw [ht] at hb
  dsimp only at hb hd
  rw [hq]
  refine .inr ⟨_, { plan with token := t'.nextToken + 1, fields := t'.finishFields plan }, rfl,
    (select_planned (congrArg Prod.fst hc) (hb ▸ hs)).1, ?_⟩
  rw [hd, hb]

end Connection

namespace Connection

variable (c : Connection cap σ) (source : Endpoint) (seg : Wire.Tcp) (now : ℕ)

def Answered (o : Outcome cap σ Ingress) : Prop := ∃ answer c', o = (.ok answer, c')

lemma challenge_answered : Answered (c.challenge now) := ⟨_, _, rfl⟩

def Kept (c : Connection cap σ) (o : Outcome cap σ Ingress) : Prop := ∀ status, o.1 = .error status → o.2 = c

lemma Answered.kept {c : Connection cap σ} {o : Outcome cap σ Ingress} (h : Answered o) : Kept c o := by
  obtain ⟨_, _, rfl⟩ := h
  intro _ he
  cases he

lemma Kept.ite {c : Connection cap σ} {q : Prop} [Decidable q] {o o' : Outcome cap σ Ingress} (h : Kept c o) (h' : Kept c o') :
    Kept c (if q then o else o') := by
  split
  · exact h
  · exact h'

variable [CongestionControl σ]

lemma receiveSyn_answered : Answered (c.receiveSyn seg now) := by
  unfold receiveSyn
  dsimp only
  split
  · exact ⟨_, _, rfl⟩
  · exact c.challenge_answered now

lemma ingressSynSent_answered : Answered (c.ingressSynSent seg now) := by
  unfold ingressSynSent
  dsimp only
  split_ifs <;> exact ⟨_, _, rfl⟩

lemma ingressData_answered (previousUna : U32) (previousWindow : ℕ) :
    Answered (c.ingressData previousUna previousWindow seg now) := by
  unfold ingressData
  split_ifs <;> exact ⟨_, _, rfl⟩

lemma ingressSynchronized_answered : Answered (c.ingressSynchronized seg now) := by
  unfold ingressSynchronized ingressAck
  dsimp only
  split_ifs
  all_goals first
    | exact ⟨_, _, rfl⟩
    | exact c.challenge_answered now
    | exact c.receiveSyn_answered seg now
    | exact ingressData_answered _ seg now _ _

lemma ingressListen_kept : Kept c (c.ingressListen source seg) := by
  have hs (r : Result Ingress) : Kept c (r, c) := fun _ _ => rfl
  exact .ite (hs _) (.ite (Answered.kept ⟨_, _, rfl⟩) (.ite (hs _) (.ite (hs _) (Answered.kept ⟨_, _, rfl⟩))))

lemma ingressState_kept : Kept c (c.ingressState source seg now) := by
  have hs (r : Result Ingress) : Kept c (r, c) := fun _ _ => rfl
  refine .ite (hs _) (.ite (hs _) (.ite (hs _) (.ite (c.ingressListen_kept source seg) ?_)))
  refine .ite (c.ingressSynSent_answered seg now).kept (.ite (.ite (c.challenge_answered now).kept ?_) ?_)
  · exact Answered.kept ⟨_, _, rfl⟩
  · exact .ite (Answered.kept ⟨_, _, rfl⟩)
      (.ite (c.receiveSyn_answered seg now).kept (c.ingressSynchronized_answered seg now).kept)

lemma receive_cases (packet : Result Datagram) : (c.receive packet now).2 = c ∨ ∃ d, packet = .ok d ∧ c.receive packet now =
      { c with lastNow := now }.ingressState ⟨d.source, d.tcp.fields.sourcePort⟩ d.tcp now := by
  unfold receive
  by_cases h1 : c.plan.active = true
  · exact .inl (by rw [if_pos h1])
  rw [if_neg h1]
  by_cases h2 : now < c.lastNow
  · exact .inl (by rw [if_pos h2])
  rw [if_neg h2]
  cases packet with
  | error => exact .inl rfl
  | ok d =>
  dsimp only [ingress]
  split
  · exact .inl rfl
  split
  · exact .inl rfl
  · exact .inr ⟨d, rfl, rfl⟩

lemma receive_error {packet : Result Datagram} {status : Status} (h : (c.receive packet now).1 = .error status) :
    (c.receive packet now).2.toBlock = c.toBlock := by
  rcases c.receive_cases now packet with he | ⟨d, rfl, he⟩
  · rw [he]
  · rw [he] at h ⊢
    rw [ingressState_kept _ _ _ _ _ h]

variable {c}

lemma ingressListen_adopted (h : (c.ingressListen source seg).2.state = .synReceived) (hl : c.state = .listen) :
    (c.ingressListen source seg).2.peer = source ∧ (c.ingressListen source seg).2.localEndpoint = c.localEndpoint ∧
      (c.ingressListen source seg).2.snd.writeShutdown = c.snd.writeShutdown := by
  generalize ho : c.ingressListen source seg = o at h ⊢
  unfold ingressListen at ho
  dsimp only at ho
  split_ifs at ho <;> subst ho
  case neg => exact ⟨rfl, rfl, rfl⟩
  all_goals
    replace h : c.state = .synReceived := h
    rw [hl] at h
    cases h

lemma ingressState_listen (hl : c.state = .listen) :
    (c.ingressState source seg now).2 = c ∨ c.ingressState source seg now = c.ingressListen source seg := by
  unfold ingressState
  rw [hl, if_neg (by simp), if_neg (by simp)]
  split
  · exact .inl rfl
  · exact .inr (if_pos rfl)

lemma receive_adopted {d : Datagram} (hl : c.state = .listen) (h : (c.receive (.ok d) now).2.state = .synReceived) :
    (c.receive (.ok d) now).2.peer = ⟨d.source, d.tcp.fields.sourcePort⟩ ∧
      (c.receive (.ok d) now).2.localEndpoint = c.localEndpoint ∧
      (c.receive (.ok d) now).2.snd.writeShutdown = c.snd.writeShutdown := by
  rcases c.receive_cases now (.ok d) with he | ⟨_, hd, he⟩
  · rw [he, hl] at h
    cases h
  cases hd
  rw [he] at h ⊢
  rcases ingressState_listen (c := { c with lastNow := now }) _ d.tcp now hl with hs | hs <;> rw [hs] at h ⊢
  · simp [hl] at h
  · exact ingressListen_adopted _ _ h hl

lemma completeTransmit_cases (c : Connection cap σ) (token : ℕ) (accepted : Bool) (now : ℕ) :
    (∃ s, c.completeTransmit token accepted now = (.error s, c)) ∨
      ∃ c', c.completeTransmit token accepted now = (.ok (), c') ∧ c'.plan.active = false := by
  unfold completeTransmit
  dsimp only
  split_ifs
  · exact .inl ⟨_, rfl⟩
  · exact .inl ⟨_, rfl⟩
  · exact .inr ⟨_, rfl, rfl⟩
  · exact .inr ⟨_, rfl, rfl⟩
  refine .inr ⟨_, rfl, ?_⟩
  split
  · rfl
  · rfl
  iterate 2 exact congrArg Plan.active (Block.complete_frame _ _ _).1
  · rfl
  all_goals exact congrArg Plan.active (Block.complete_frame _ _ _).1

lemma passiveOpen_cases (c : Connection cap σ) (here : Endpoint) (iss : U32) (now : ℕ) :
    (∃ s, c.passiveOpen here iss now = (.error s, c)) ∨
      ∃ c', c.passiveOpen here iss now = (.ok (), c') ∧ c.plan.active = false ∧ c'.plan.active = false ∧
        c'.state = .listen ∧ c'.localEndpoint = here ∧ c'.snd.writeShutdown = false := by
  unfold passiveOpen
  split_ifs with h
  iterate 3 exact .inl ⟨_, rfl⟩
  · simp only [Bool.or_eq_true, not_or, Bool.not_eq_true] at h
    exact .inr ⟨_, rfl, h.1.1, rfl, rfl, rfl, rfl⟩

end Connection

namespace ConnectionSlot

lemma update_flagged (limits : EndpointLimits) (s : ConnectionSlot p cap σ) (core : Connection cap σ) :
    ({ s with core := core } : ConnectionSlot p cap σ).Flagged (s.update limits core) := by
  unfold update
  split
  · exact EndpointTable.bump_flagged _ _
  · exact EndpointTable.flagged_refl _

def Rested (now : ℕ) (s : ConnectionSlot p cap σ) : Prop := s.used = true → s.terminal = false → s.core.Rested now

lemma reclaim_rested (s : ConnectionSlot p cap σ) (now : ℕ) : s.reclaim.Rested now := by
  unfold reclaim
  split
  · intro _ ht
    cases ht
  · intro hu
    cases hu

variable {s : ConnectionSlot p cap σ}

lemma discard_rested {now : ℕ} (h : s.core.Rested now) : s.discard.core.Rested now := by
  have hw (c : Connection cap σ) (hc : c.Rested now) : c.shutdownWrite.2.Rested now := by
    unfold shutdownWrite
    split_ifs <;> exact hc
  have hr (c : Connection cap σ) (hc : c.Rested now) : (c.read cap.receive).2.Rested now := by
    unfold Connection.read
    split_ifs <;> exact hc
  unfold discard
  dsimp only
  split_ifs
  · exact hr _ (hw _ h)
  · exact hw _ h
  · exact hr _ h
  · exact h

lemma settle_rested {now : ℕ} (hp : s.core.plan.active = false) (h : s.Rested now) (now' : ℕ) :
    (s.settle now').Rested now := by
  have ha : s.aborted.Rested now := by
    intro hu ht
    unfold aborted
    split
    · rw [abort_of_idle hp]
      exact .inr (terminate_due _ _ _)
    · exact h hu ht
  unfold settle
  dsimp only
  split_ifs
  · exact ha
  · exact reclaim_rested _ _
  · exact fun hu ht => discard_rested (ha hu ht)

section

variable [CongestionControl σ] {s : ConnectionSlot p cap σ}

lemma tick_idle (hs : s.core.Sound) (h : s.core.plan.active = false) (limits : EndpointLimits) (now : ℕ) :
    (s.tick limits now).core.plan.active = false := by
  unfold tick
  rw [(update_flagged _ _ _).eq]
  split
  · exact h
  · obtain ⟨es, hm, _, hes, _⟩ := run_inner hs (.tick now) rfl
    exact hm.plan_idle hes h

lemma tick_rested (h : s.core.plan.active = false) (limits : EndpointLimits) (now : ℕ) : (s.tick limits now).Rested now := by
  intro _ ht
  have hf := update_flagged limits { s with abortPending := s.abortPending || s.closing && decide (now ≥ s.retireDeadline) &&
    s.core.state != .timeWait } (if s.terminal then s.core else (s.core.tick now).2)
  have hterm : s.terminal = false := by
    by_contra hx
    rw [show (s.tick limits now).terminal = true from hf.terminal (by simpa using hx)] at ht
    cases ht
  have hcore : (s.tick limits now).core = (s.core.tick now).2 := by
    refine (congrArg core hf.eq).trans ?_
    simp [hterm]
  rw [hcore]
  exact s.core.tick_rested now h

end

def retiring (s : ConnectionSlot p cap σ) : ConnectionSlot p cap σ :=
  { s with core := s.core.abort.2, terminal := true, changed := true }

lemma Ok.retireSlot_eq {serial : ℕ} (h : s.Ok serial) (hu : s.used = true) :
    EndpointTable.retireSlot s = if s.references = 0 then s.retiring.reclaim else s.retiring := by
  unfold EndpointTable.retireSlot
  rw [if_pos hu]
  dsimp only
  split
  · unfold reclaim retiring
    rfl
  next hr =>
  have hp : s.parent = false := by
    by_contra hp
    exact hr (h.young (by simpa using hp)).2.1
  have hq : s.queueOrder = 0 := by
    by_contra hq
    exact absurd (h.queued hq).1 (by simp [hp])
  unfold retiring
  rw [← hp, ← hq]

end ConnectionSlot

namespace EndpointTable

variable {t t' : EndpointTable p cap σ} {i : Fin p.connections} {j : Fin p.listeners}
  {s : ConnectionSlot p cap σ} {core : Connection cap σ}

lemma Quiet.update (h : t.Quiet (t.setConnection i { s with core := core })) (limits : EndpointLimits) :
    t.Quiet (t.setConnection i (s.update limits core)) := by
  refine h.then (flag_connection ?_)
  rw [setConnection_self]
  exact s.update_flagged limits core

lemma settle_slot_rested (hp : (t.connections i).core.plan.active = false) (hsel : t.selected i = false) {now : ℕ}
    (h : (t.connections i).Rested now) (now' : ℕ) : ((t.settle i now').connections i).Rested now := by
  by_cases hu : (t.connections i).used = true
  · rcases settle_cases now' hu hsel with he | ⟨q, he, _⟩ <;> rw [he]
    · exact reclaim_rested _ _
    · exact settle_rested (s := { t.connections i with queueOrder := q }) hp h now'
  have he : t.settle i now' = t := by simp [settle, hu]
  rw [he]
  exact h

lemma Settled.idle (h : t.Settled) (ht : t.ticket = none) (i : Fin p.connections) :
    t.selected i = false ∧ (t.connections i).core.plan.active = false := by
  have hs : t.selected i = false := by simp [selected, ht]
  exact ⟨hs, (h.paired i).trans hs⟩

lemma takeChanged_calm (h : t.Settled) : t.Calm t.takeChanged.2 := by
  refine ⟨Quiet.one (.flag (fun _ => ⟨rfl, id, .inl⟩) (fun _ => rfl) rfl rfl), ?_, h.paired, h.tidy⟩
  exact h.ok.of_flagged (fun _ => ⟨rfl, id, .inl⟩) (fun _ => rfl) rfl

lemma connections_quiet {f : ConnectionSlot p cap σ → ConnectionSlot p cap σ} (h : t.Ok)
    (hf : ∀ t' : EndpointTable p cap σ, t'.Ok → ∀ i, t'.connections i = t.connections i →
      t'.Quiet (t'.setConnection i (f (t.connections i)))) :
    t.Quiet { t with connections := fun i => f (t.connections i) } := by
  have hsome (slots : List (Fin p.connections)) (hn : slots.Nodup) :
      t.Quiet { t with connections := fun i => if i ∈ slots then f (t.connections i) else t.connections i } := by
    induction slots with
    | nil => exact .refl
    | cons i slots ih =>
    obtain ⟨hi, hn⟩ := nodup_cons.mp hn
    have hq := ih hn
    have hstep := hq.trans (hf _ (hq.ok h) i (if_neg hi))
    convert hstep using 1
    simp only [setConnection, EndpointTable.mk.injEq, true_and, and_true]
    funext k
    by_cases hk : k = i
    · subst hk
      simp
    · simp [hk]
  simpa using hsome (finRange p.connections) (nodup_finRange _)

lemma listeners_quiet (t : EndpointTable p cap σ) :
    t.Quiet { t with listeners := fun j => { t.listeners j with used := false, references := 0, changed := true } } := by
  have hsome (slots : List (Fin p.listeners)) (hn : slots.Nodup) : t.Quiet { t with listeners := fun j =>
        if j ∈ slots then { t.listeners j with used := false, references := 0, changed := true } else t.listeners j } := by
    induction slots with
    | nil => exact .refl
    | cons j slots ih =>
    obtain ⟨hj, hn⟩ := nodup_cons.mp hn
    have hstep := (ih hn).trans (Quiet.one (.close j true))
    convert hstep using 1
    simp only [setListener, EndpointTable.mk.injEq, true_and, and_true]
    funext k
    by_cases hk : k = j
    · subst hk
      simp [hj]
    · simp [hk]
  simpa using hsome (finRange p.listeners) (nodup_finRange _)

lemma retireSlot_tidy (h : t.Ok) (hp : (t.connections i).core.plan.active = false) :
    (retireSlot (t.connections i)).core.plan.active = false ∧ (retireSlot (t.connections i)).Tidy false := by
  have hi := h.slot i
  by_cases hu : (t.connections i).used = true
  · have hidle : (t.connections i).retiring.core.plan.active = false := by
      simpa [retiring, abort_of_idle hp, terminate, Block.terminate] using hp
    have hpeer : (t.connections i).retiring.core.peer = (t.connections i).core.peer := by
      simp [retiring, abort_of_idle hp, terminate, Block.terminate]
    rw [hi.retireSlot_eq hu]
    split
    · exact ⟨reclaim_idle hidle, reclaim_tidy (fun ha => hpeer ▸ (hi.held ha).2.2) hidle false⟩
    next hr =>
    obtain ⟨_, h1, _, h2⟩ := h.toOwned.used_of_references hr
    refine ⟨hidle, fun _ => ⟨?_, ?_, ?_⟩⟩
    · rw [hpeer]
      exact (hi.anchored hu).lost.resolve_right (by simp [h1, h2])
    · simp [retiring, abort_of_idle hp, terminate, Block.terminate]
    · simp [retiring, h1]
  · rw [retireSlot, if_neg hu]
    exact ⟨hp, fun hu' => absurd hu' hu⟩

lemma Settled.ticket (h : t.Settled) (ht : t.ticket = none) {core : Connection cap σ} {es : List Event}
    (hu : (t.connections i).used = true) (hm : Moves es (t.connections i).core.toBlock core.toBlock)
    (he : ∀ e ∈ es, e = .ended ∨ e = .planned) {plan : Plan} (hp : plan.active = true)
    (hb : core.toBlock = { (t.connections i).core.toBlock with plan := plan }) (ticket : TransmitTicket p)
    (hi : ticket.slot = i) (serial round : ℕ) :
    t.Calm { t.setConnection i ((t.connections i).update t.limits core) with
      ticket := some ticket, transmitSerial := serial, roundRobin := round } := by
  have hne : .opened ∉ es ∧ .shut ∉ es := ⟨fun h => by simpa using he _ h, fun h => by simpa using he _ h⟩
  have hq := (Quiet.one (.evolve i core es hu hm hne.1 fun _ => hne.2)).update t.limits
  generalize hs : (t.connections i).update t.limits core = s at hq ⊢
  have hf := hs ▸ update_flagged _ _ _
  have hclock : Change .quiet (t.setConnection i s) { t.setConnection i s with
    ticket := some ticket, transmitSerial := serial, roundRobin := round } := idle_change rfl rfl rfl rfl
  replace hq := hq.trans (Quiet.one hclock)
  have hold (k) := h.idle ht k
  refine ⟨hq, hq.ok h.ok, fun k => ?_, fun k => ?_⟩
  · change ((t.setConnection i s).connections k).core.plan.active = (ticket.slot == k)
    by_cases hk : k = i
    · rw [hk, setConnection_self, hf.eq, hi]
      simpa [hb] using hp
    · rw [setConnection_of_ne _ _ hk, (hold k).2, hi]
      simpa using Ne.symm hk
  change ((t.setConnection i s).connections k).Tidy (ticket.slot == k)
  have hk' := h.tidy k
  rw [(hold k).1] at hk'
  by_cases hk : k = i
  · subst hk
    rw [setConnection_self, hi, beq_self_eq_true]
    have htidy := hk'.mono
    refine htidy.congr ?_ ?_ ?_ fun hx => ⟨?_, ?_, fun _ => .inr rfl⟩
    · rw [hf.eq]; exact id
    · rw [hf.eq, hb]
    · rw [hf.eq, hb]
    · rw [hf.eq] at hx; exact hx
    · rw [hf.eq]
  · rw [setConnection_of_ne _ _ hk, hi, beq_eq_false_iff_ne.mpr (Ne.symm hk)]
    exact hk'

lemma ensureConnection_frame (t : EndpointTable p cap σ) (i : Fin p.connections) :
    (t.ensureConnection i).2.ticket = t.ticket ∧ ∀ k, k ≠ i → (t.ensureConnection i).2.connections k = t.connections k := by
  unfold ensureConnection
  dsimp only
  split
  · obtain ⟨h1, _, _, _, _, h2⟩ := settle_frame (t.setConnection i _) i t.now
    exact ⟨h1, fun k hk => (h2 k hk).trans (setConnection_of_ne _ _ hk)⟩
  · exact ⟨rfl, fun _ _ => rfl⟩

lemma ensureConnection_rested (h : t.Settled) (ht : t.ticket = none) (hf : (t.ensureConnection i).1 = false) (now : ℕ) :
    ((t.ensureConnection i).2.connections i).Rested now := by
  obtain ⟨hsel, hidle⟩ := h.idle ht i
  unfold ensureConnection at hf ⊢
  dsimp only at hf ⊢
  split
  · refine settle_slot_rested (t := t.setConnection i _) ?_ hsel ?_ _ <;> rw [setConnection_self]
    · exact hidle
    · intro _ hx
      cases hx
  next hn =>
  rw [if_neg hn] at hf
  cases hf

variable [CongestionControl σ]

lemma stream_calm {α : Type} (handle : Handle) (op : Op) (ho : op.inner = true)
    (operation : Connection cap σ → Connection.Outcome cap σ α) (hop : ∀ c, (operation c).2 = (op.run c).2)
    (hshape : ∀ c : Connection cap σ, c.SameShape (operation c).2.toBlock) (h : t.Settled) :
    t.Calm (t.stream handle operation).2 := by
  unfold stream
  split
  · exact .refl h
  split
  · exact .refl h
  next i hi =>
  have hens := ensureConnection_calm h i
  split
  · next t' he =>
    rwa [he] at hens
  next t' he =>
  obtain rfl := ensureConnection_same he
  obtain ⟨_, hu, hr⟩ := connection_iff.mp hi
  have hp := (h.ok.toOwned.used_of_references hr).2.1
  have hsh := hshape (t'.connections i).core
  have hev := evolve_quiet h.ok hu op ho (by simp [hp])
  rw [← hop] at hev
  have hset {s : ConnectionSlot p cap σ} (hq : t'.Quiet (t'.setConnection i s)) (hf : ({ t'.connections i with
      core := (operation (t'.connections i).core).2 } : ConnectionSlot p cap σ).Flagged s) : t'.Calm (t'.setConnection i s) := by
    refine h.put hq ?_ ((h.tidy i).congr ?_ ?_ ?_ ?_) <;> rw [hf.eq]
    · exact (congrArg Plan.active hsh.plan).trans (h.paired i)
    · exact id
    · exact hsh.state
    · exact hsh.peer
    · simp [hp]
  split
  · next hc =>
    rw [hc] at hset hev
    exact hset (.one hev) (flagged_refl _)
  next hc =>
  rw [hc] at hset hev
  exact hset ((Quiet.one hev).update _) (update_flagged _ _ _)

lemma Settled.operate (h : t.Settled) (hu : (t.connections i).used = true) (op : Op) (ho : op.inner = true)
    (hn : (t.connections i).parent = true → op ≠ .shutdownWrite) (hsel : t.selected i = false) (now : ℕ) :
    t.Calm ((t.setConnection i ((t.connections i).update t.limits (op.run (t.connections i).core).2)).settle i now) := by
  refine h.settle (update_quiet h.ok hu op ho hn) ?_ (by simp [hsel]) now
  obtain ⟨es, hm, _, hes, _⟩ := run_inner (h.ok.slot i).sound op ho
  rw [((t.connections i).update_flagged _ _).eq, hsel]
  exact hm.plan_idle hes ((h.paired i).trans hsel)

lemma ingestConnection_calm (d : Datagram) (now : ℕ) (h : t.Settled) (hu : (t.connections i).used = true) :
    t.Calm (t.ingestConnection i d now).2 := by
  have hens := ensureConnection_calm h i
  unfold ingestConnection
  split
  · next t' he =>
    rwa [he] at hens
  next t' he =>
  obtain rfl := ensureConnection_same he
  have hev := evolve_quiet h.ok hu (.receive (.ok d) now) rfl (by simp)
  split
  · next status core hc =>
    have hb := (t'.connections i).core.receive_error now (by rw [hc])
    simp only [Op.run, hc, Prod.map_snd, id] at hev hb
    have hs := h.put (X := (· = .quiet)) (Quiet.one hev) (by rw [hb]; exact h.paired i)
      ((h.tidy i).congr id (by rw [hb]) (by rw [hb]) fun hp => ⟨hp, rfl, .inl⟩)
    exact hs.clock rfl rfl rfl rfl rfl rfl
  next answer core hc =>
  have hsel : t'.selected i = false := by
    rw [← h.paired i]
    by_contra hp
    rw [receive, if_pos (by simpa using hp)] at hc
    cases hc
  have ho := (h.at now).settled.operate (i := i) hu (.receive (.ok d) now) rfl (by simp) hsel now
  simp only [Op.run, hc, Prod.map_snd, id] at ho
  exact (h.at now).trans ho

lemma openChild_calm {here : Endpoint} {d : Datagram} (iss : U32) (now : ℕ) (h : t.Settled)
    (hu : (t.connections i).used = false) (hv : Endpoint.valid ⟨d.source, d.tcp.fields.sourcePort⟩ = true)
    (hfree : ∀ c : Connection cap σ, c.localEndpoint = here → c.peer = ⟨d.source, d.tcp.fields.sourcePort⟩ → t.Free c)
    (hroom : t.children j < (t.listeners j).backlog) : t.Calm (t.openChild j i here iss d now).2 := by
  have hi := h.ok.slot i
  have hpassive := run_performs hi.sound (.passiveOpen here iss now)
  unfold openChild
  dsimp only
  rcases passiveOpen_cases (t.connections i).core here iss now with ⟨s, he⟩ | ⟨c, he, h2, h3, h4, h5, h6⟩
  · rw [he]
    dsimp only
    rw [setConnection_eq]
    exact .refl h
  rw [he]
  simp only [Op.run, he] at hpassive
  obtain ⟨_, hmoves, _⟩ := hpassive
  have hc1 := hmoves.sound hi.sound
  have hsel := (h.paired i).symm.trans h2
  -- Whatever the packet does, the block stays sound and has nothing planned.
  obtain ⟨es, hrecv, _, hes, _⟩ := run_inner hc1 (.receive (.ok d) now) rfl
  have hc2 := hrecv.sound hc1
  have hidle := hrecv.plan_idle hes h3
  have hadopt := receive_adopted (c := c) (d := d) now h4
  simp only [Op.run, Prod.map_snd, id] at hc2 hidle
  have hscratch {c : Connection cap σ} (hs : c.Sound) (hp : c.plan.active = false) :
      t.Calm (t.setConnection i { t.connections i with core := c.abort.2 }) := by
    obtain ⟨_, hma, _⟩ := abort_moves c
    refine h.put (Quiet.one (.scratch i _ hu (hma.sound hs))) ?_ fun hx => ?_
    · simpa [abort_of_idle hp, terminate, Block.terminate, hsel] using hp
    · simp [hu] at hx
  dsimp only
  generalize c.receive (.ok d) now = o at hc2 hidle hadopt ⊢
  obtain ⟨status | answer, c2⟩ := o
  · exact hscratch hc2 hidle
  dsimp only at hadopt ⊢
  split_ifs with hst
  · exact hscratch hc2 hidle
  simp only [bne_iff_ne, ne_eq, not_not] at hst
  obtain ⟨h7, h8, h9⟩ := hadopt hst
  have hnew := h.put (X := (· = .quiet)) (Quiet.one (.adopt i j c2 hu hc2 hst (h9.trans h6) (h7 ▸ hv)
    (hfree c2 (h8.trans h5) h7) hroom)) (by rw [hsel]; exact hidle) fun _ => by
      simp [allocate, h7, hv, hst, State.accepting]
  exact hnew.trans (hnew.settled.flagListener (bumpListener_flagged _ _))

lemma ingestRequest_calm {here : Endpoint} {d : Datagram} (iss : Result U32) (now : ℕ) (h : t.Settled)
    (hv : Endpoint.valid ⟨d.source, d.tcp.fields.sourcePort⟩ = true)
    (hf : t.tuple here ⟨d.source, d.tcp.fields.sourcePort⟩ = none) :
    t.Calm (t.ingestRequest j here iss d now).2 := by
  have hens := ensureListener_calm h j
  unfold ingestRequest
  split
  · next t' he =>
    rwa [he] at hens
  next t' he =>
  obtain rfl := ensureListener_same he
  split_ifs with hb
  · exact .refl h
  obtain ⟨hm, hvac⟩ := t'.vacant_marked
  have hc := hm.calm h
  generalize t'.vacant = v at hm hvac hc
  obtain ⟨_ | i, t⟩ := v
  · exact hc
  cases iss with
  | error => exact hc
  | ok iss =>
  have h1 := hc.trans (hc.settled.at now)
  obtain ⟨hl, hn⟩ := hm.children j
  refine h1.trans (openChild_calm iss now h1.settled ?_ hv (fun c hl hp => hm.free (free_of_tuple hf hl hp)) ?_)
  · exact (congrArg used (hm.slot i)).trans (hvac i rfl)
  change t.children j < (t.listeners j).backlog
  rw [hn, hl]
  exact not_le.mp hb

lemma ingest_calm (packet : Result Datagram) (now : ℕ) (source : Endpoint → Endpoint → Result U32) (h : t.Settled) :
    t.Calm (t.ingest packet now source).2 := by
  unfold ingest
  split
  · exact .refl h
  · exact .refl h
  next d _ =>
  dsimp only
  split
  · exact .refl h
  next hv =>
  simp only [Bool.or_eq_true, Bool.not_eq_true', not_or, Bool.not_eq_false] at hv
  split
  · next i hi =>
    have hu := find?_some hi
    simp only [Bool.and_eq_true] at hu
    exact ingestConnection_calm d now h hu.1.1
  next hn =>
  split
  · exact .refl h
  split_ifs
  · exact .refl h
  · exact ingestRequest_calm _ now h hv.2 hn

lemma tickSlot_calm (now : ℕ) (i : Fin p.connections) (h : t.Settled) : t.Calm (tickSlot now t i) := by
  unfold tickSlot
  split
  · exact .refl h
  next hstop =>
  simp only [Bool.or_eq_true, Bool.not_eq_true', not_or, Bool.not_eq_false, Bool.not_eq_true] at hstop
  obtain ⟨hu, hsel⟩ := hstop
  refine h.settle ?_ ?_ (by simp [hsel]) now
  · have hq (overdue : Bool) (ho : overdue = true → (t.connections i).closing = true) :=
      Quiet.one (flag_connection (t := t) (i := i) (s := { t.connections i with
        abortPending := (t.connections i).abortPending || overdue }) ⟨rfl, id, fun ha => by
          simp only [Bool.or_eq_true] at ha
          exact ha.imp id fun ha => .inr (ho ha)⟩)
    unfold ConnectionSlot.tick
    generalize hover : ((t.connections i).closing && decide (now ≥ (t.connections i).retireDeadline) &&
      (t.connections i).core.state != .timeWait) = overdue
    replace hq := hq overdue fun ho => by
      simp only [← hover, Bool.and_eq_true] at ho
      exact ho.1.1
    refine .update ?_ t.limits
    split
    · exact hq
    have hc := evolve_quiet (hq.ok h.ok) (i := i) (by rw [setConnection_self]; exact hu) (.tick now) rfl (by simp)
    rw [setConnection_self] at hc
    exact hq.then hc
  · rw [hsel]
    exact tick_idle (h.ok.slot i).sound ((h.paired i).trans hsel) _ _

lemma tickSlot_frame (now : ℕ) (t : EndpointTable p cap σ) (i : Fin p.connections) :
    (tickSlot now t i).ticket = t.ticket ∧ ∀ k, k ≠ i → (tickSlot now t i).connections k = t.connections k := by
  unfold tickSlot
  split
  · exact ⟨rfl, fun _ _ => rfl⟩
  · obtain ⟨h1, _, _, _, _, h2⟩ := settle_frame (t.setConnection i _) i now
    exact ⟨h1, fun k hk => (h2 k hk).trans (setConnection_of_ne _ _ hk)⟩

lemma tickSlot_rested (now : ℕ) (i : Fin p.connections) (h : t.Settled) (ht : t.ticket = none) :
    ((tickSlot now t i).connections i).Rested now := by
  obtain ⟨hsel, hidle⟩ := h.idle ht i
  unfold tickSlot
  split
  · next hstop =>
    intro hu
    simp [hu, hsel] at hstop
  refine settle_slot_rested (t := t.setConnection i _) ?_ hsel ?_ now <;> rw [setConnection_self]
  · exact tick_idle (h.ok.slot i).sound hidle _ _
  · exact tick_rested hidle _ _

lemma tick_calm (now : ℕ) (h : t.Settled) : t.Calm (t.tick now).2 := by
  have hfold (slots : List (Fin p.connections)) {t : EndpointTable p cap σ} (h : t.Settled) :
      t.Calm (slots.foldl (tickSlot now) t) := by
    induction slots generalizing t with
    | nil => exact .refl h
    | cons i slots ih =>
      have hc := tickSlot_calm now i h
      exact hc.trans (ih hc.settled)
  unfold tick
  split
  · exact .refl h
  · exact (h.at now).trans (hfold _ (h.at now).settled)

lemma core_quiet (h : t.Ok) (op : Op) (ho : op.inner = true) (hn : op ≠ .shutdownWrite) (i : Fin p.connections) :
    t.Quiet (t.setConnection i { t.connections i with core := (op.run (t.connections i).core).2 }) := by
  by_cases hu : (t.connections i).used = true
  · exact .one (evolve_quiet h hu op ho fun _ => hn)
  · obtain ⟨es, hm, _⟩ := run_inner (h.slot i).sound op ho
    exact .one (.scratch i _ (by simpa using hu) (hm.sound (h.slot i).sound))

lemma complete_calm (ticket : TransmitTicket p) (accepted : Bool) (now : ℕ) (h : t.Settled) :
    t.Calm (t.complete ticket accepted now).2 := by
  unfold complete
  split
  · exact .refl h
  next ht =>
  simp only [ne_eq, not_not] at ht
  split
  · exact .refl h
  have hq := core_quiet h.ok (.completeTransmit ticket.coreToken accepted now) rfl (by simp) ticket.slot
  simp only [Op.run, Prod.map_snd, id] at hq
  dsimp only
  rcases completeTransmit_cases (t.connections ticket.slot).core ticket.coreToken accepted now with
    ⟨s, he⟩ | ⟨c, he, hc⟩ <;> rw [he] at hq ⊢ <;> dsimp only at hq ⊢
  · rw [setConnection_eq]
    exact .refl h
  replace hq := hq.update t.limits
  generalize hs : (t.connections ticket.slot).update t.limits c = s at hq ⊢
  have hplan : s.core.plan.active = false := by
    rw [← hs, (update_flagged _ _ _).eq]
    exact hc
  have hclock : Change .quiet (t.setConnection ticket.slot s)
      { t.setConnection ticket.slot s with ticket := none, now := now } := idle_change rfl rfl rfl rfl
  replace hq := hq.trans (Quiet.one hclock)
  have hother {k : Fin p.connections} (hk : k ≠ ticket.slot) : t.selected k = false := by
    simp [selected, ht, Ne.symm hk]
  refine ⟨hq.trans (settle_quiet (hq.ok h.ok) _ now), settle_settled ⟨hq.ok h.ok, fun k => ?_, fun k hk => ?_⟩ now⟩
  · change ((t.setConnection ticket.slot s).connections k).core.plan.active = false
    by_cases hk : k = ticket.slot
    · rw [hk, setConnection_self]
      exact hplan
    · rw [setConnection_of_ne _ _ hk, h.paired k, hother hk]
  have hk := hk.resolve_right (by simp [selected])
  have htidy := h.tidy k
  rw [hother hk] at htidy
  rwa [setConnection_of_ne _ _ hk]

lemma retireSlot_quiet (h : t.Ok) (i : Fin p.connections) : t.Quiet (t.setConnection i (retireSlot (t.connections i))) := by
  by_cases hu : (t.connections i).used = true
  · have habort := Quiet.one (evolve_quiet h hu .abort rfl (by simp))
    have hflag : t.Quiet (t.setConnection i (t.connections i).retiring) := by
      refine habort.then (flag_connection ?_)
      rw [setConnection_self]
      exact ⟨rfl, fun _ => rfl, .inl⟩
    rw [(h.slot i).retireSlot_eq hu]
    split
    · exact reclaim_quiet hflag hu
    · exact hflag
  · rw [retireSlot, if_neg hu, setConnection_eq]
    exact .refl

lemma retireAll_calm (h : t.Ok) (hp : ∀ i, (t.connections i).core.plan.active = false) (ht : t.ticket = none) :
    t.Calm t.retireAll := by
  have hc := connections_quiet (f := retireSlot) h fun t' ht' i hi => hi ▸ retireSlot_quiet ht' i
  have hl := hc.trans (listeners_quiet _)
  have hr : t.Quiet t.retireAll := hl.trans (Quiet.one (idle_change rfl rfl rfl rfl))
  have hsel (i) : t.retireAll.selected i = false := by simp [selected, retireAll, ht]
  refine ⟨hr, hr.ok h, fun i => ?_, fun i => ?_⟩ <;> rw [hsel]
  · exact (retireSlot_tidy h (hp i)).1
  · exact (retireSlot_tidy h (hp i)).2

lemma retire_calm (h : t.Settled) : t.Calm t.retire.2 := by
  unfold retire
  split
  · next ht => exact retireAll_calm h.ok (fun i => by rw [h.paired i]; simp [selected, ht]) ht
  next ticket ht =>
  have hq := core_quiet h.ok (.completeTransmit ticket.coreToken false t.now) rfl (by simp) ticket.slot
  simp only [Op.run, Prod.map_snd, id] at hq
  rcases completeTransmit_cases (t.connections ticket.slot).core ticket.coreToken false t.now with
    ⟨s, he⟩ | ⟨c, he, hc⟩ <;> rw [he] at hq ⊢ <;> dsimp only at hq ⊢
  · rw [setConnection_eq]
    exact .refl h
  generalize hs : ({ t.connections ticket.slot with core := c } : ConnectionSlot p cap σ) = s at hq ⊢
  have hclock : Change .quiet (t.setConnection ticket.slot s) { t.setConnection ticket.slot s with ticket := none } :=
    idle_change rfl rfl rfl rfl
  replace hq := hq.trans (Quiet.one hclock)
  have hr := retireAll_calm (hq.ok h.ok) (fun i => ?_) rfl
  · exact ⟨hq.trans hr.steps, hr.settled⟩
  by_cases hi : i = ticket.slot
  · rw [hi, setConnection_self, ← hs]
    exact hc
  · rw [setConnection_of_ne _ _ hi, h.paired i]
    simp [selected, ht, Ne.symm hi]

lemma tickSlots_rested (now : ℕ) (slots : List (Fin p.connections)) (h : t.Settled) (ht : t.ticket = none) :
    (slots.foldl (tickSlot now) t).ticket = none ∧ ∀ i, i ∈ slots ∨ (t.connections i).Rested now →
      ((slots.foldl (tickSlot now) t).connections i).Rested now := by
  induction slots generalizing t with
  | nil => exact ⟨ht, fun i hi => hi.resolve_left (by simp)⟩
  | cons k slots ih =>
  obtain ⟨h1, h2⟩ := tickSlot_frame now t k
  obtain ⟨h3, h4⟩ := ih (tickSlot_calm now k h).settled (h1.trans ht)
  refine ⟨h3, fun i hi => h4 i ?_⟩
  by_cases hik : i = k
  · subst hik
    exact .inr (tickSlot_rested now i h ht)
  · rw [h2 i hik]
    exact hi.imp_left fun hi => (mem_cons.mp hi).resolve_left hik

lemma tick_rested (now : ℕ) (h : t.Settled) (ht : t.ticket = none) (hok : (t.tick now).1 = .ok ()) :
    (t.tick now).2.ticket = none ∧ ∀ i, ((t.tick now).2.connections i).Rested now := by
  unfold tick at hok ⊢
  split at hok
  · cases hok
  · obtain ⟨h1, h2⟩ := tickSlots_rested now (finRange p.connections) (h.at now).settled ht
    exact ⟨h1, fun i => h2 i (.inl (mem_finRange i))⟩

lemma prepareIn_calm (size now : ℕ) (slots : List (Fin p.connections)) (h : t.Settled) (ht : t.ticket = none)
    (hr : ∀ i, (t.connections i).Rested now) : t.Calm (t.prepareIn size now slots).2 := by
  induction slots generalizing t with
  | nil => exact .refl h
  | cons i slots ih =>
  unfold prepareIn
  split
  · exact ih h ht hr
  next hstop =>
  simp only [Bool.or_eq_true, Bool.not_eq_true', not_or, Bool.not_eq_false, Bool.not_eq_true] at hstop
  obtain ⟨hu, hterm⟩ := hstop
  have hens := ensureConnection_calm h i
  split
  · next t' he =>
    rw [he] at hens
    obtain ⟨h1, h2⟩ := t.ensureConnection_frame i
    have h3 := ensureConnection_rested h ht (by rw [he]) now
    rw [he] at h1 h2 h3
    refine hens.trans (ih hens.settled (h1.trans ht) fun k => ?_)
    by_cases hk : k = i
    · exact hk ▸ h3
    · exact (h2 k hk).symm ▸ hr k
  next t' he =>
  obtain rfl := ensureConnection_same he
  dsimp only
  have hs := (h.ok.slot i).sound
  obtain ⟨es, hm, hes, _⟩ := prepare_refines hs size now
  have hblock := prepare_of_rested size hs (hr i hu hterm)
  generalize (t'.connections i).core.prepare size now = o at hm hblock ⊢
  have hne : .opened ∉ es ∧ .shut ∉ es := ⟨fun h => by simpa using hes _ h, fun h => by simpa using hes _ h⟩
  have hkeep (hb : o.2.toBlock = (t'.connections i).core.toBlock) :
      t'.Calm (t'.setConnection i { t'.connections i with core := o.2 }) := by
    refine h.put (Quiet.one (.evolve i _ es hu hm hne.1 fun _ => hne.2)) ?_ ((h.tidy i).congr id ?_ ?_ ?_)
    · rw [hb]
      exact h.paired i
    · rw [hb]
    · rw [hb]
    · exact fun hp => ⟨hp, rfl, .inl⟩
  rcases hblock with ⟨hb, hrest, hq⟩ | ⟨q, plan, hq, hp, hb⟩
  · obtain ⟨_ | _ | q, core⟩ := o
    · exact hkeep hb
    · refine (hkeep hb).trans (ih (hkeep hb).settled ht fun k => ?_)
      by_cases hk : k = i
      · rw [hk, setConnection_self]
        exact fun _ _ => hrest
      · rw [setConnection_of_ne _ _ hk]
        exact hr k
    · exact absurd rfl (hq q)
  obtain ⟨r, core⟩ := o
  obtain rfl := hq
  exact h.ticket ht hu hm hes hp hb _ rfl _ _

lemma prepare_calm (size now : ℕ) (h : t.Settled) : t.Calm (t.prepare size now).2 := by
  unfold prepare
  split
  · exact .refl h
  split
  · exact .refl h
  next ht =>
  split
  · exact retire_calm h
  have hc := tick_calm now h
  split
  · next he =>
    rwa [he] at hc
  next t' he =>
  obtain ⟨h1, h2⟩ := tick_rested now h (by simpa using ht) (by rw [he])
  rw [he] at hc h1 h2
  exact hc.trans (prepareIn_calm size now _ hc.settled h1 h2)

end EndpointTable

end ObfuscationKernel.Net.Tcp
