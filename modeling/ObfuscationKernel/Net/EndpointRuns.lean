import ObfuscationKernel.Net.EndpointMoves

/-! Every operation of the endpoint table is made of changes and leaves a settled table:
prepared packets belong to the outstanding ticket and no slot waits for its own cleanup. -/

namespace ObfuscationKernel.Net.Tcp

open ObfuscationKernel.Core Library Wire Function ConnectionSlot

variable {p : Pools} {cap : Capacities} {σ : Type}

variable {k k' : Block cap}

lemma Move.plan_idle {e : Event} (hm : Move e k k') (he : e ≠ .planned) (hk : k.plan.active = false) :
    k'.plan.active = false := by
  cases hm with
  | plan => exact absurd rfl he
  | activeOpen | passiveOpen | relisten | refuse => rfl
  | connect | handshake => simpa [Block.establish, Block.synchronize] using hk
  | acknowledge => simpa using hk
  | consume seg => rwa [Block.consume_plan]
  | transmit due => rw [(Block.complete_frame { k with plan := {} } k.plan due).1]
  | _ => exact hk

lemma Moves.plan_idle {es : List Event} (hm : Moves es k k') (he : .planned ∉ es)
    (hk : k.plan.active = false) : k'.plan.active = false := by
  induction hm with
  | nil => exact hk
  | cons hm _ ih =>
    simp only [List.mem_cons, not_or] at he
    exact ih he.2 (hm.plan_idle (Ne.symm he.1) hk)

section

variable [CongestionControl σ] {c : Connection cap σ}

def Op.inner : Op → Bool
  | .abort | .write _ | .read _ | .shutdownWrite | .receive .. | .tick _ | .completeTransmit .. => true
  | _ => false

lemma run_inner (hs : c.Sound) (op : Op) (ho : op.inner = true) :
    ∃ es, Moves es c.toBlock (op.run c).2.toBlock ∧ .opened ∉ es ∧ .planned ∉ es ∧ (.shut ∈ es → op = .shutdownWrite) := by
  obtain ⟨es, hm, ha, _⟩ := run_performs hs op
  refine ⟨es, hm, fun h => ?_, fun h => ?_, fun h => (ha _ h).1⟩
  · obtain ⟨_, _, _, hop⟩ := ha _ h
    rcases hop with ⟨_, _, _, _, rfl⟩ | ⟨_, _, _, rfl⟩ | ⟨_, _, rfl⟩ <;> cases ho
  · obtain ⟨_, _, rfl⟩ := ha _ h
    cases ho

end

namespace EndpointTable

def Steps (X : Label p → Prop) : EndpointTable p cap σ → EndpointTable p cap σ → Prop :=
  Relation.ReflTransGen fun t t' => ∃ x, X x ∧ Change x t t'

abbrev Quiet : EndpointTable p cap σ → EndpointTable p cap σ → Prop := Steps (· = .quiet)

section

variable {X Y : Label p → Prop} {t t' t'' : EndpointTable p cap σ} {i : Fin p.connections} {j : Fin p.listeners}
  {s : ConnectionSlot p cap σ} {l : ListenerSlot}

lemma Steps.mono (h : Steps X t t') (hXY : ∀ x, X x → Y x) : Steps Y t t' :=
  Relation.ReflTransGen.mono (fun _ _ ⟨x, hx, hc⟩ => ⟨x, hXY x hx, hc⟩) _ _ h

lemma Steps.trans (h : Steps X t t') (h' : Steps X t' t'') : Steps X t t'' := Relation.ReflTransGen.trans h h'

lemma Steps.one {x : Label p} (hx : X x) (hc : Change x t t') : Steps X t t' := .single ⟨x, hx, hc⟩

lemma Quiet.one (hc : Change .quiet t t') : t.Quiet t' := .single ⟨_, rfl, hc⟩

lemma Steps.ok (h : Steps X t t') (ht : t.Ok) : t'.Ok := by
  induction h with
  | refl => exact ht
  | tail _ hc ih =>
    obtain ⟨_, _, hc⟩ := hc
    exact hc.ok ih

lemma flagged_refl (s : ConnectionSlot p cap σ) : s.Flagged s := ⟨rfl, id, .inl⟩

lemma flag_connection (hf : (t.connections i).Flagged s) : Change .quiet t (t.setConnection i s) := by
  refine .flag (fun k => ?_) (fun _ => rfl) rfl rfl
  by_cases hk : k = i
  · subst hk
    rw [setConnection_self]
    exact hf
  · rw [setConnection_of_ne t s hk]
    exact flagged_refl _

lemma flag_listener (hf : (t.listeners j).Flagged l) : Change .quiet t (t.setListener j l) := by
  refine .flag (fun k => flagged_refl _) (fun k => ?_) rfl rfl
  by_cases hk : k = j
  · subst hk
    rw [setListener_self]
    exact hf
  · rw [setListener_of_ne t l hk]
    rfl

lemma bump_flagged (limits : EndpointLimits) (s : ConnectionSlot p cap σ) : s.Flagged (s.bump limits) := by
  unfold bump
  split_ifs
  · exact ⟨rfl, id, .inl⟩
  · exact ⟨rfl, fun _ => rfl, fun _ => .inr (.inl rfl)⟩
  · exact ⟨rfl, id, .inl⟩

lemma bumpListener_flagged (limits : EndpointLimits) (l : ListenerSlot) : l.Flagged (l.bump limits) := by
  unfold ListenerSlot.bump
  split_ifs <;> rfl

lemma bumpListener_change (t : EndpointTable p cap σ) (j : Fin p.listeners) : Change .quiet t (t.bumpListener j) :=
  flag_listener (bumpListener_flagged _ _)

lemma setConnection_setConnection (t : EndpointTable p cap σ) (i : Fin p.connections) (s s' : ConnectionSlot p cap σ) :
    (t.setConnection i s).setConnection i s' = t.setConnection i s' := by
  simp [setConnection]

lemma setConnection_eq (t : EndpointTable p cap σ) (i : Fin p.connections) : t.setConnection i (t.connections i) = t := by
  simp [setConnection]

lemma idle_change (hc : t'.connections = t.connections) (hl : t'.listeners = t.listeners)
    (hs : t'.acceptSerial = t.acceptSerial) (hi : t'.identity = t.identity) : Change .quiet t t' :=
  .flag (fun i => by rw [hc]; exact flagged_refl _) (fun j => by rw [hl]; rfl) hs hi

lemma Quiet.then (h : t.Quiet (t.setConnection i s)) {s' : ConnectionSlot p cap σ}
    (hc : Change .quiet (t.setConnection i s) ((t.setConnection i s).setConnection i s')) :
    t.Quiet (t.setConnection i s') := by
  rw [setConnection_setConnection] at hc
  exact h.trans (Quiet.one hc)

end

variable {t t' : EndpointTable p cap σ} {i : Fin p.connections} {j : Fin p.listeners}
  {s : ConnectionSlot p cap σ}

lemma reclaim_quiet (h : t.Quiet (t.setConnection i s)) (hu : s.used = true) : t.Quiet (t.setConnection i s.reclaim) := by
  have hc := Change.reclaim (t := t.setConnection i s) i (by simpa using hu)
  rw [setConnection_self] at hc
  exact h.then hc

variable [CongestionControl σ]

lemma evolve_quiet (h : t.Ok) (hu : (t.connections i).used = true) (op : Op) (ho : op.inner = true)
    (hn : (t.connections i).parent = true → op ≠ .shutdownWrite) :
    Change .quiet t (t.setConnection i { t.connections i with core := (op.run (t.connections i).core).2 }) := by
  obtain ⟨es, hm, h1, _, h3⟩ := run_inner (h.slot i).sound op ho
  exact .evolve i _ es hu hm h1 fun hp hx => hn hp (h3 hx)

lemma update_quiet (h : t.Ok) (hu : (t.connections i).used = true) (op : Op) (ho : op.inner = true)
    (hn : (t.connections i).parent = true → op ≠ .shutdownWrite) :
    t.Quiet (t.setConnection i ((t.connections i).update t.limits (op.run (t.connections i).core).2)) := by
  have he := Quiet.one (evolve_quiet h hu op ho hn)
  unfold ConnectionSlot.update
  split
  · refine he.then (flag_connection ?_)
    rw [setConnection_self]
    exact bump_flagged _ _
  · exact he

lemma aborted_quiet (ht : t.Ok) (h : t.Quiet (t.setConnection i s)) (hu : s.used = true) :
    t.Quiet (t.setConnection i s.aborted) := by
  have hflag {s : ConnectionSlot p cap σ} (h : t.Quiet (t.setConnection i s)) :
      t.Quiet (t.setConnection i { s with abortPending := false }) := by
    refine h.then (flag_connection ?_)
    rw [setConnection_self]
    exact ⟨rfl, id, by simp⟩
  unfold aborted
  split
  · have hc := evolve_quiet (h.ok ht) (i := i) (by simpa using hu) .abort rfl (by simp)
    rw [setConnection_self] at hc
    exact hflag (h.then hc)
  · exact hflag h

lemma discard_quiet (ht : t.Ok) (h : t.Quiet (t.setConnection i s)) (hu : s.used = true) (hp : s.parent = false) :
    t.Quiet (t.setConnection i s.discard) := by
  have hrun {s : ConnectionSlot p cap σ} (h : t.Quiet (t.setConnection i s)) (hu : s.used = true) (hp : s.parent = false)
      (op : Op) (ho : op.inner = true) : t.Quiet (t.setConnection i { s with core := (op.run s.core).2 }) := by
    have hc := evolve_quiet (h.ok ht) (i := i) (by simpa using hu) op ho (by simp [hp])
    rw [setConnection_self] at hc
    exact h.then hc
  unfold ConnectionSlot.discard
  dsimp only
  split_ifs
  · exact hrun (hrun h hu hp .shutdownWrite rfl) hu hp (.read cap.receive) rfl
  · exact hrun h hu hp .shutdownWrite rfl
  · exact hrun h hu hp (.read cap.receive) rfl
  · exact h

lemma settleSlot_quiet (ht : t.Ok) (h : t.Quiet (t.setConnection i s)) (hu : s.used = true) (now : ℕ) :
    t.Quiet (t.setConnection i (s.settle now)) := by
  have ha := aborted_quiet ht h hu
  have hu' := hu
  unfold ConnectionSlot.settle
  dsimp only
  split_ifs with h1
  · exact ha
  · exact reclaim_quiet ha hu'
  refine discard_quiet ht ha hu' ?_
  by_contra hp
  have hy := (((ha.ok ht).slot i).young (by simpa using hp)).2.2
  rw [setConnection_self] at hy
  simp [hy] at h1

lemma settle_quiet (ht : t.Ok) (i : Fin p.connections) (now : ℕ) : t.Quiet (t.settle i now) := by
  have hself : t.Quiet (t.setConnection i (t.connections i)) := by rw [setConnection_eq]; exact .refl
  have hdrop (hu : (t.connections i).used = true) :
      t.Quiet ((t.bumpListener (t.connections i).parentSlot).setConnection i (t.connections i).reclaim) :=
    (Quiet.one (t.bumpListener_change _)).trans (Quiet.one (.reclaim i hu))
  unfold settle
  dsimp only
  split_ifs with h1 h2 h3 h4
  · exact .refl
  · exact hdrop (by simp_all)
  · exact hdrop (by simp_all)
  · simp only [Bool.and_eq_true, Bool.or_eq_true, Bool.not_eq_true', beq_iff_eq, not_or, Bool.not_eq_true,
      Bool.not_eq_false] at h1 h3
    have he := Quiet.one (Change.enqueue i h3.1.1 h3.2 h3.1.2 h4)
    have hs := settleSlot_quiet (he.ok ht) (i := i) (s := { t.connections i with queueOrder := t.acceptSerial + 1 })
      (by rw [setConnection_setConnection]; exact .refl) h1.1 now
    rw [setConnection_setConnection] at hs
    exact (he.trans hs).trans (Quiet.one (bumpListener_change _ (t.connections i).parentSlot))
  · refine settleSlot_quiet ht hself ?_ now
    simp_all

end EndpointTable

structure Block.SameShape (k k' : Block cap) : Prop where
  state : k'.state = k.state
  peer : k'.peer = k.peer
  plan : k'.plan = k.plan

lemma shutdownWrite_shape (c : Connection cap σ) : c.SameShape c.shutdownWrite.2.toBlock := by
  unfold Connection.shutdownWrite
  split_ifs <;> exact ⟨rfl, rfl, rfl⟩

lemma read_shape (c : Connection cap σ) (size : ℕ) : c.SameShape (c.read size).2.toBlock := by
  unfold Connection.read
  split_ifs <;> exact ⟨rfl, rfl, rfl⟩

lemma abort_of_idle {c : Connection cap σ} (h : c.plan.active = false) : c.abort.2 = c.terminate .aborted := by
  simp [Connection.abort, h]

namespace ConnectionSlot

def Tidy (selected : Bool) (s : ConnectionSlot p cap σ) : Prop :=
  s.used = true → s.core.peer.valid = true ∧ s.core.state ≠ .listen ∧
    (s.parent = true → s.core.state ≠ .closed ∧ (s.terminal = true → selected = true) ∧
      (s.core.state.accepting = true → s.queueOrder ≠ 0))

lemma discard_shape (s : ConnectionSlot p cap σ) : s.core.SameShape s.discard.core.toBlock := by
  have hw := shutdownWrite_shape s.core
  unfold discard
  dsimp only
  split_ifs
  · have hr := read_shape s.core.shutdownWrite.2 cap.receive
    exact ⟨hr.state.trans hw.state, hr.peer.trans hw.peer, hr.plan.trans hw.plan⟩
  · exact hw
  · exact read_shape s.core cap.receive
  · exact ⟨rfl, rfl, rfl⟩

variable {s : ConnectionSlot p cap σ}

lemma reclaim_idle (h : s.core.plan.active = false) : s.reclaim.core.plan.active = false := by
  unfold reclaim
  split <;> simpa [abort_of_idle h, Connection.terminate, Block.terminate] using h

lemma reclaim_tidy (hh : s.acceptOperation ≠ 0 → s.core.peer.valid = true)
    (h : s.core.plan.active = false) (selected : Bool) : s.reclaim.Tidy selected := by
  unfold reclaim
  split
  · next ha =>
    intro _
    rw [abort_of_idle h]
    exact ⟨hh ha, by simp [Connection.terminate, Block.terminate], by simp⟩
  · intro hu
    cases hu

lemma aborted_core (h : s.core.plan.active = false) :
    s.aborted.core.plan.active = false ∧ s.aborted.core.peer = s.core.peer ∧
      (s.aborted.core.state = s.core.state ∨ s.aborted.core.state = .closed) ∧
      (s.abortPending = false → s.aborted.core = s.core) := by
  unfold aborted
  split
  · next hp =>
    rw [abort_of_idle h]
    exact ⟨h, rfl, .inr rfl, by simp [hp]⟩
  · exact ⟨h, rfl, .inl rfl, fun _ => rfl⟩

lemma settle_idle (h : s.core.plan.active = false) (now : ℕ) : (s.settle now).core.plan.active = false := by
  have ha := (aborted_core h).1
  unfold settle
  dsimp only
  split_ifs
  · exact ha
  · exact reclaim_idle ha
  · rw [(discard_shape _).plan]
    exact ha

lemma Ok.settle_tidy {serial : ℕ} (hs : s.Ok serial) (h : s.core.plan.active = false)
    (hu : s.used = true)
    (hp : s.parent = true → s.core.state ≠ .closed ∧ s.core.state ≠ .listen ∧ s.terminal = false ∧
      (s.core.state.accepting = true → s.queueOrder ≠ 0)) (now : ℕ) : (s.settle now).Tidy false := by
  obtain ⟨ha, hpeer, hstate, hsame⟩ := aborted_core h
  have hanch := hs.anchored hu
  have hclosing : s.aborted.closing = s.closing := rfl
  unfold settle
  dsimp only
  split_ifs with h1 h2
  · have hc : s.closing = false := by simpa [hclosing] using h1
    intro _
    by_cases hpar : s.parent = true
    · obtain ⟨h3, h4, h5, h6⟩ := hp hpar
      have hab : s.abortPending = false := by
        by_contra hab
        simpa [h5, hc] using hs.aborting (by simpa using hab)
      rw [hsame hab]
      exact ⟨hanch.lost.resolve_right (by simp [h3, h4]), h4, fun _ => ⟨h3, fun ht => by simp [aborted, h5] at ht, h6⟩⟩
    have hno : ¬ (s.parent = true ∨ s.closing = true) := by simp [hpar, hc]
    refine ⟨hpeer ▸ hanch.lost.resolve_right fun h => hno h.2, fun hl => ?_, fun h => absurd h hpar⟩
    rcases hstate with h' | h' <;> rw [h'] at hl
    · exact hno (hanch.waiting (.inl hl))
    · cases hl
  · exact reclaim_tidy (fun hh => hpeer ▸ (hs.held hh).2.2) ha false
  have hc : s.closing = true := by simpa [hclosing] using h1
  have hpar : s.parent = false := by
    by_contra hpar
    simp [(hs.young (by simpa using hpar)).2.2] at hc
  have hd := discard_shape s.aborted
  simp only [Bool.or_eq_true, beq_iff_eq, not_or] at h2
  have hst := (hstate.resolve_right h2.1.1.1.2).symm
  intro _
  rw [hd.peer, hd.state, hpeer]
  refine ⟨hanch.lost.resolve_right fun h => ?_, h2.1.1.2, fun h => ?_⟩
  · rw [hst] at h
    exact h.1.elim h2.1.1.2 h2.1.1.1.2
  · simp [discard, aborted, hpar] at h

end ConnectionSlot

namespace EndpointTable

/-- A table between operations: its ownership is in order, exactly the outstanding ticket's slot has a
packet prepared, and no slot has cleanup outstanding. -/
structure Settled (t : EndpointTable p cap σ) : Prop where
  ok : t.Ok
  paired : ∀ i, (t.connections i).core.plan.active = t.selected i
  tidy : ∀ i, (t.connections i).Tidy (t.selected i)

structure SettledBut (i : Fin p.connections) (t : EndpointTable p cap σ) : Prop where
  ok : t.Ok
  paired : ∀ i, (t.connections i).core.plan.active = t.selected i
  tidy : ∀ k, k ≠ i ∨ t.selected k = true → (t.connections k).Tidy (t.selected k)

lemma Settled.but {t : EndpointTable p cap σ} (h : t.Settled) (i : Fin p.connections) : t.SettledBut i :=
  ⟨h.ok, h.paired, fun k _ => h.tidy k⟩

variable {t t' : EndpointTable p cap σ} {i : Fin p.connections} {j : Fin p.listeners}
  {s : ConnectionSlot p cap σ}

lemma SettledBut.set (h : t.SettledBut i) (ht : t'.Ok) (hc : ∀ k, k ≠ i → t'.connections k = t.connections k)
    (hs : t'.ticket = t.ticket) (hp : (t'.connections i).core.plan.active = t.selected i)
    (hi : (t'.connections i).Tidy (t.selected i)) : t'.Settled := by
  have hsel (k) : t'.selected k = t.selected k := by simp [selected, hs]
  refine ⟨ht, fun k => ?_, fun k => ?_⟩ <;> rw [hsel] <;> by_cases hk : k = i
  · subst hk
    exact hp
  · rw [hc k hk]
    exact h.paired k
  · subst hk
    exact hi
  · rw [hc k hk]
    exact h.tidy k (.inl hk)

lemma settle_frame (t : EndpointTable p cap σ) (i : Fin p.connections) (now : ℕ) :
    (t.settle i now).ticket = t.ticket ∧ (t.settle i now).identity = t.identity ∧
      (t.settle i now).limits = t.limits ∧ (t.settle i now).now = t.now ∧ (t.settle i now).retired = t.retired ∧
      ∀ k, k ≠ i → (t.settle i now).connections k = t.connections k := by
  unfold settle
  dsimp only
  split_ifs
  · exact ⟨rfl, rfl, rfl, rfl, rfl, fun _ _ => rfl⟩
  all_goals exact ⟨rfl, rfl, rfl, rfl, rfl, fun k hk => setConnection_of_ne _ _ hk⟩

lemma settle_cases (now : ℕ) (hu : (t.connections i).used = true) (hsel : t.selected i = false) :
    (t.settle i now).connections i = (t.connections i).reclaim ∨
      ∃ q, (t.settle i now).connections i = ({ t.connections i with queueOrder := q }).settle now ∧
        (q = (t.connections i).queueOrder ∨
          q = t.acceptSerial + 1 ∧ (t.connections i).parent = true ∧ (t.connections i).core.state.accepting = true) ∧
        ((t.connections i).parent = true → (t.connections i).core.state ≠ .closed ∧
          (t.connections i).core.state ≠ .listen ∧ (t.connections i).terminal = false ∧
          ((t.connections i).core.state.accepting = true → q ≠ 0)) := by
  have halive (h : ¬ ((t.connections i).parent && t.orphaned (t.connections i)) = true)
      (hp : (t.connections i).parent = true) : (t.connections i).core.state ≠ .closed ∧
        (t.connections i).core.state ≠ .listen ∧ (t.connections i).terminal = false := by
    simp only [hp, orphaned, Bool.true_and, Bool.or_eq_true, beq_iff_eq, not_or, Bool.not_eq_true] at h
    exact ⟨h.1.1.2, h.1.2, h.2⟩
  unfold settle
  rw [if_neg (by simp [hu, hsel])]
  split_ifs with h1 h2 h3
  · exact .inl (setConnection_self _ _ _)
  · exact .inl (setConnection_self _ _ _)
  · simp only [Bool.and_eq_true] at h2
    obtain ⟨h4, h5, h6⟩ := halive h1 h2.1.1
    exact .inr ⟨_, setConnection_self _ _ _, .inr ⟨rfl, h2.1.1, h2.2⟩, fun _ => ⟨h4, h5, h6, fun _ => Nat.succ_ne_zero _⟩⟩
  refine .inr ⟨_, setConnection_self _ _ _, .inl rfl, fun hp => ?_⟩
  obtain ⟨h4, h5, h6⟩ := halive h1 hp
  exact ⟨h4, h5, h6, fun hs hq => h2 (by simp [hp, hs, hq])⟩

variable [CongestionControl σ]

lemma settle_settled (h : t.SettledBut i) (now : ℕ) : (t.settle i now).Settled := by
  by_cases hstop : (!(t.connections i).used || t.selected i) = true
  · have he : t.settle i now = t := by simp only [settle, hstop, if_true]
    rw [he]
    refine ⟨h.ok, h.paired, fun k => ?_⟩
    by_cases hk : k ≠ i ∨ t.selected k = true
    · exact h.tidy k hk
    simp only [ne_eq, not_or, not_not, Bool.not_eq_true] at hk
    obtain ⟨rfl, hsel⟩ := hk
    intro hu
    simp [hu, hsel] at hstop
  obtain ⟨hticket, _, _, _, _, hframe⟩ := t.settle_frame i now
  simp only [Bool.or_eq_true, Bool.not_eq_true', not_or, Bool.not_eq_false, Bool.not_eq_true] at hstop
  obtain ⟨hu, hsel⟩ := hstop
  have hidle := (h.paired i).trans hsel
  have hi := h.ok.slot i
  refine h.set ((settle_quiet h.ok i now).ok h.ok) hframe hticket ?_ ?_ <;> rw [hsel] <;>
    rcases settle_cases now hu hsel with he | ⟨q, he, hq, hp⟩ <;> rw [he]
  · exact reclaim_idle hidle
  · exact settle_idle (s := { t.connections i with queueOrder := q }) hidle now
  · exact reclaim_tidy (fun hh => (hi.held hh).2.2) hidle false
  have hok : ({ t.connections i with queueOrder := q } : ConnectionSlot p cap σ).Ok (t.acceptSerial + 1) := by
    refine { hi with queued := fun hz => ?_ }
    rcases hq with rfl | ⟨rfl, h1, h2⟩
    · obtain ⟨h1, h2, h3⟩ := hi.queued hz
      exact ⟨h1, h2, h3.trans (Nat.le_succ _)⟩
    · exact ⟨h1, State.later_of_accepting h2, le_rfl⟩
  exact hok.settle_tidy hidle hu hp now

end EndpointTable

end ObfuscationKernel.Net.Tcp
