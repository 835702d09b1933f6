import ObfuscationKernel.Net.Moves

/-! The public operations of a control block as one step function, the histories a
run leaves behind, and the moves each operation is made of. -/

namespace ObfuscationKernel.Net.Tcp

open ObfuscationKernel.Core Library Library.Serial Wire Connection

variable {cap : Capacities} {σ : Type}

inductive Op
  | activeOpen (here peer : Endpoint) (iss : U32) (now : ℕ)
  | passiveOpen (here : Endpoint) (iss : U32) (now : ℕ)
  | rearmListener (iss : U32) (now : ℕ)
  | abort
  | write (input : List UInt8)
  | peek (size : ℕ)
  | read (size : ℕ)
  | shutdownWrite
  | receive (packet : Result Datagram) (now : ℕ)
  | tick (now : ℕ)
  | prepare (size now : ℕ)
  | completeTransmit (token : ℕ) (accepted : Bool) (now : ℕ)

inductive Reply
  | done (r : Result Unit)
  | count (r : Result ℕ)
  | bytes (r : Result (List UInt8))
  | ingress (r : Result Ingress)
  | packet (r : Result (Option PreparedPacket))

/-- What a run has done since the control block was opened: the bytes accepted by `write` and returned
by `read`, what had been accepted when `shutdownWrite` first succeeded, and the payloads of accepted
segments at their stream positions. -/
structure History where
  written : List UInt8 := []
  returned : List UInt8 := []
  finished : Option (List UInt8) := none
  accepted : List (ℤ × List UInt8) := []

def History.after (h : History) (k : Block cap) : Op → Reply → History
  | .activeOpen .., .done (.ok ()) | .passiveOpen .., .done (.ok ()) | .rearmListener .., .done (.ok ()) => {}
  | .write input, .count (.ok n) => { h with written := h.written ++ input.take n }
  | .read _, .bytes (.ok xs) => { h with returned := h.returned ++ xs }
  | .shutdownWrite, .done (.ok ()) => { h with finished := some (h.finished.getD h.written) }
  | .receive (.ok d) _, .ingress (.ok .accepted) =>
    if k.state.synchronized && !d.tcp.fields.has tcpSyn then
      { h with accepted := (h.returned.length + k.rcv.rank d.tcp.fields.sequence, d.tcp.payload) :: h.accepted }
    else h
  | _, _ => h

def History.note (h : History) : Event → History
  | .opened => {}
  | .wrote xs => { h with written := h.written ++ xs }
  | .returned xs => { h with returned := h.returned ++ xs }
  | .shut => { h with finished := some (h.finished.getD h.written) }
  | .took seg rank => { h with accepted := (h.returned.length + rank, seg.payload) :: h.accepted }
  | _ => h

structure History.Agrees (h h' : History) : Prop where
  written : h.written = h'.written
  returned : h.returned = h'.returned
  finished : h.finished = h'.finished
  accepted : h.accepted ⊆ h'.accepted

lemma History.Agrees.refl (h : History) : h.Agrees h := ⟨rfl, rfl, rfl, fun _ h => h⟩

variable [CongestionControl σ]

def Op.run (c : Connection cap σ) : Op → Reply × Connection cap σ
  | .activeOpen here peer iss now => (c.activeOpen here peer iss now).map .done id
  | .passiveOpen here iss now => (c.passiveOpen here iss now).map .done id
  | .rearmListener iss now => (c.rearmListener iss now).map .done id
  | .abort => c.abort.map .done id
  | .write input => (c.write input).map .count id
  | .peek size => (.bytes (c.peek size), c)
  | .read size => (c.read size).map .bytes id
  | .shutdownWrite => c.shutdownWrite.map .done id
  | .receive packet now => (c.receive packet now).map .ingress id
  | .tick now => (c.tick now).map .done id
  | .prepare size now => (c.prepare size now).map .packet id
  | .completeTransmit token accepted now => (c.completeTransmit token accepted now).map .done id

def Op.runs (c : Connection cap σ) (h : History) : List Op → Connection cap σ × History
  | [] => (c, h)
  | op :: ops => runs (op.run c).2 (h.after c.toBlock op (op.run c).1) ops

inductive Reachable : Connection cap σ → History → Prop
  | fresh : Reachable .fresh {}
  | step {c h} (op : Op) : Reachable c h → Reachable (op.run c).2 (h.after c.toBlock op (op.run c).1)

lemma Reachable.runs {c : Connection cap σ} {h : History} (hr : Reachable c h) (ops : List Op) :
    Reachable (Op.runs c h ops).1 (Op.runs c h ops).2 := by
  induction ops generalizing c h with
  | nil => exact hr
  | cons op ops ih => exact ih (hr.step op)

def Allowed (k : Block cap) (op : Op) (r : Reply) : Event → Prop
  | .quiet | .ended => True
  | .opened => ∃ s, r = .done s ∧ s = .ok () ∧
      ((∃ here peer iss now, op = .activeOpen here peer iss now) ∨
        (∃ here iss now, op = .passiveOpen here iss now) ∨ ∃ iss now, op = .rearmListener iss now)
  | .shut => op = .shutdownWrite ∧ r = .done (.ok ())
  | .planned => ∃ size now, op = .prepare size now
  | .transmitted => ∃ token now, op = .completeTransmit token true now ∧ r = .done (.ok ())
  | .wrote xs => ∃ input n, op = .write input ∧ r = .count (.ok n) ∧ xs = input.take n
  | .returned xs => ∃ size, op = .read size ∧ r = .bytes (.ok xs)
  | .synchronized seq => ∃ d now, op = .receive (.ok d) now ∧ seq = d.tcp.fields.sequence ∧
      d.tcp.fields.has tcpSyn = true
  | .acked ack una max => ∃ d now, op = .receive (.ok d) now ∧ ack = d.tcp.fields.acknowledgment ∧
      d.tcp.fields.has tcpAck = true ∧ una = k.snd.sndUna ∧ max = k.snd.sndMax ∧
      (r = .ingress (.ok .accepted) ∨ k.state = .closing ∨ k.state = .timeWait)
  | .took seg rank => ∃ d now, op = .receive (.ok d) now ∧ seg = d.tcp ∧
      rank = k.rcv.rank d.tcp.fields.sequence ∧ k.state.synchronized = true ∧
      r = .ingress (.ok .accepted) ∧ d.tcp.fields.has tcpSyn = false

def Performs (k : Block cap) (op : Op) (r : Reply) (k' : Block cap) : Prop :=
  ∃ es, Moves es k k' ∧ (∀ e ∈ es, Allowed k op r e) ∧ ∀ h : History, (es.foldl History.note h).Agrees (h.after k op r)

section

omit [CongestionControl σ]

variable {k k' : Block cap} {op : Op} {r : Reply}

lemma Performs.none (h : ∀ h : History, h = h.after k op r) : Performs k op r k :=
  ⟨[], .nil _, by simp, fun x => h x ▸ .refl x⟩

lemma Performs.one {e : Event} (hm : Move e k k') (ha : Allowed k op r e)
    (ht : ∀ h : History, h.note e = h.after k op r) : Performs k op r k' :=
  ⟨[e], .single hm, by simpa using ha, fun h => ht h ▸ .refl _⟩

lemma note_fold {es : List Event} (hn : ∀ e ∈ es, ∀ h : History, h.note e = h) (h : History) :
    es.foldl History.note h = h := by
  induction es with
  | nil => rfl
  | cons e es ih =>
    rw [List.foldl_cons, hn e (by simp)]
    exact ih fun e he => hn e (by simp [he])

lemma Performs.silent {es : List Event} (hm : Moves es k k') (ha : ∀ e ∈ es, Allowed k op r e)
    (hn : ∀ e ∈ es, ∀ h : History, h.note e = h) (ht : ∀ h : History, h = h.after k op r) :
    Performs k op r k' :=
  ⟨es, hm, ha, fun h => by rw [note_fold hn, ← ht]; exact .refl h⟩

end

variable {c : Connection cap σ}

lemma activeOpen_performs (here peer : Endpoint) (iss : U32) (now : ℕ) :
    Performs c.toBlock (.activeOpen here peer iss now) (.done (c.activeOpen here peer iss now).1)
      (c.activeOpen here peer iss now).2.toBlock := by
  unfold activeOpen
  split_ifs with h
  iterate 3 exact .none fun _ => rfl
  · simp only [Bool.or_eq_true, bne_iff_ne, not_or, not_not, Bool.not_eq_true] at h
    exact .one (.activeOpen here peer iss h.1.1 h.1.2) ⟨_, rfl, rfl, .inl ⟨_, _, _, _, rfl⟩⟩ fun _ => rfl

lemma passiveOpen_performs (here : Endpoint) (iss : U32) (now : ℕ) :
    Performs c.toBlock (.passiveOpen here iss now) (.done (c.passiveOpen here iss now).1)
      (c.passiveOpen here iss now).2.toBlock := by
  unfold passiveOpen
  split_ifs with h
  iterate 3 exact .none fun _ => rfl
  · simp only [Bool.or_eq_true, bne_iff_ne, not_or, not_not, Bool.not_eq_true] at h
    exact .one (.passiveOpen here iss h.1.1 h.1.2) ⟨_, rfl, rfl, .inr (.inl ⟨_, _, _, rfl⟩)⟩ fun _ => rfl

omit [CongestionControl σ]

lemma rearmListener_performs (iss : U32) (now : ℕ) :
    Performs c.toBlock (.rearmListener iss now) (.done (c.rearmListener iss now).1)
      (c.rearmListener iss now).2.toBlock := by
  unfold rearmListener
  split_ifs with h
  · exact .none fun _ => rfl
  · exact .none fun _ => rfl
  · simp only [Bool.or_eq_true, bne_iff_ne, not_or, not_not, Bool.not_eq_true] at h
    exact .one (.rearm iss h.1.1.1 h.1.1.2 h.1.2) ⟨_, rfl, rfl, .inr (.inr ⟨_, _, rfl⟩)⟩ fun _ => rfl

lemma abort_performs : Performs c.toBlock .abort (.done c.abort.1) c.abort.2.toBlock := by
  unfold abort
  split_ifs with h
  · exact .none fun _ => rfl
  · exact .one (.terminate .aborted (by simpa using h) (by decide)) trivial fun _ => rfl

lemma write_performs (input : List UInt8) :
    Performs c.toBlock (.write input) (.count (c.write input).1) (c.write input).2.toBlock := by
  unfold write
  dsimp only
  split_ifs with hp hw he hz
  · exact .none fun _ => rfl
  · exact .none fun _ => rfl
  · exact .none fun h => by simp [History.after]
  · exact .none fun _ => rfl
  · simp only [Bool.or_eq_true, Bool.and_eq_true, bne_iff_ne, not_or, not_and_or, not_not, Bool.not_eq_true] at hp hw
    exact .one (.write _ hp hw.1 hw.2 (by simp)) ⟨_, _, rfl, rfl, rfl⟩ fun _ => rfl

lemma read_performs (size : ℕ) : Performs c.toBlock (.read size) (.bytes (c.read size).1) (c.read size).2.toBlock := by
  unfold Connection.read
  split_ifs with hp hf hz h0 he
  · exact .none fun _ => rfl
  · exact .none fun _ => rfl
  iterate 2 exact .none fun h => by simp [History.after]
  · exact .none fun _ => rfl
  · exact .one (.read size (by simpa using hp) (by simpa using hf)) ⟨_, rfl, rfl⟩ fun _ => rfl

lemma shutdownWrite_performs : Performs c.toBlock .shutdownWrite (.done c.shutdownWrite.1) c.shutdownWrite.2.toBlock := by
  unfold shutdownWrite
  split_ifs with hp hs
  · exact .none fun _ => rfl
  · exact .none fun _ => rfl
  · simp only [Bool.and_eq_true, bne_iff_ne, not_and_or, not_not] at hs
    exact .one (.shutdown (by simpa using hp) hs) ⟨rfl, rfl⟩ fun _ => rfl

section

variable {k : Block cap} {d : Datagram} {now : ℕ} {r : Result Ingress}

lemma after_receive (h : History) : h.Agrees (h.after k (.receive (.ok d) now) (.ingress r)) := by
  rcases r with _ | _ | _ | _ | _ <;> try exact .refl h
  simp only [History.after]
  split_ifs
  · exact ⟨rfl, rfl, rfl, List.subset_cons_self _ _⟩
  · exact .refl h

lemma note_receive {h t : History} {e : Event} (ht : t.Agrees (h.after k (.receive (.ok d) now) (.ingress r)))
    (he : Connection.Caused k d.tcp r e) : (t.note e).Agrees (h.after k (.receive (.ok d) now) (.ingress r)) := by
  cases e with
  | quiet | ended | synchronized | acked => exact ht
  | took seg rank =>
    obtain ⟨rfl, rfl, hs, rfl, hy⟩ := he
    refine ⟨ht.written, ht.returned, ht.finished, List.cons_subset.mpr ⟨?_, ht.accepted⟩⟩
    rw [ht.returned]
    simp [History.after, hs, hy]
  | _ => exact he.elim

lemma notes_receive {es : List Event} {h t : History} (hc : ∀ e ∈ es, Connection.Caused k d.tcp r e)
    (ht : t.Agrees (h.after k (.receive (.ok d) now) (.ingress r))) :
    (es.foldl History.note t).Agrees (h.after k (.receive (.ok d) now) (.ingress r)) := by
  induction es generalizing t with
  | nil => exact ht
  | cons e es ih => exact ih (fun e he => hc e (.tail _ he)) (note_receive ht (hc e (.head _)))

end

variable [CongestionControl σ]

lemma receive_performs (packet : Result Datagram) (now : ℕ) :
    Performs c.toBlock (.receive packet now) (.ingress (c.receive packet now).1)
      (c.receive packet now).2.toBlock := by
  unfold receive
  split_ifs with hp ht
  iterate 2 exact .none fun h => by cases packet <;> rfl
  cases packet with
  | error => exact .none fun _ => rfl
  | ok d =>
  obtain ⟨es, hm, hc, _⟩ := ingress_refines now c d.tcp d.source d.destination (by simpa using hp)
  refine ⟨es, hm, fun e he => ?_, fun h => ?_⟩
  · have h := hc e he
    cases e with
    | quiet | ended => trivial
    | synchronized => exact ⟨d, now, rfl, h⟩
    | acked =>
      exact ⟨d, now, rfl, h.1, h.2.1, h.2.2.1, h.2.2.2.1, h.2.2.2.2.imp_left (congrArg Reply.ingress)⟩
    | took => exact ⟨d, now, rfl, h.1, h.2.1, h.2.2.1, congrArg Reply.ingress h.2.2.2.1, h.2.2.2.2⟩
    | _ => exact h.elim
  · exact notes_receive hc (after_receive h)

lemma tick_performs (now : ℕ) : Performs c.toBlock (.tick now) (.done (c.tick now).1) (c.tick now).2.toBlock := by
  by_cases hp : c.plan.active = true
  · rw [tick, if_pos hp]
    exact .none fun _ => rfl
  obtain ⟨es, hm, he, _⟩ := tick_ends (c := c) now (by simpa using hp)
  refine .silent hm (fun e h => ?_) (fun e h t => ?_) fun _ => rfl
  · rw [he e h]
    trivial
  · rw [he e h]
    rfl

lemma prepare_performs (hs : c.Sound) (size now : ℕ) :
    Performs c.toBlock (.prepare size now) (.packet (c.prepare size now).1) (c.prepare size now).2.toBlock := by
  obtain ⟨es, hm, he, _⟩ := prepare_refines hs size now
  refine .silent hm (fun e h => ?_) (fun e h t => ?_) fun h => rfl
  · rcases he e h with rfl | rfl
    · trivial
    · exact ⟨size, now, rfl⟩
  · rcases he e h with rfl | rfl <;> rfl

lemma completeTransmit_performs (token : ℕ) (accepted : Bool) (now : ℕ) :
    Performs c.toBlock (.completeTransmit token accepted now) (.done (c.completeTransmit token accepted now).1)
      (c.completeTransmit token accepted now).2.toBlock := by
  unfold completeTransmit
  dsimp only
  split_ifs with hp ht ha hk
  · exact .none fun _ => rfl
  · exact .none fun _ => rfl
  · simp only [Bool.or_eq_true, Bool.not_eq_true', not_or, Bool.not_eq_false] at hp
    exact .one (.refuse hp.1) trivial fun _ => rfl
  all_goals
    simp only [Bool.or_eq_true, Bool.not_eq_true', not_or, Bool.not_eq_false] at hp ha
    subst ha
  · refine .one (e := .transmitted) ?_ ⟨token, now, rfl, rfl⟩ fun _ => rfl
    have hm := Move.transmit 0 hp.1
    simp only [beq_iff_eq] at hk
    simpa only [Block.complete, hk] using hm
  refine .one (e := .transmitted) ?_ ⟨token, now, rfl, rfl⟩ fun _ => rfl
  have hm := fun due => Move.transmit due hp.1
  cases hc : c.plan.kind with
  | ack | fast => simpa only [Block.complete, hc] using hm 0
  | reset => simp [hc] at hk
  | syn | retry | data | probe | fin => exact hm _

lemma run_performs (hs : c.Sound) (op : Op) : Performs c.toBlock op (op.run c).1 (op.run c).2.toBlock := by
  cases op with
  | activeOpen here peer iss now => exact activeOpen_performs here peer iss now
  | passiveOpen here iss now => exact passiveOpen_performs here iss now
  | rearmListener iss now => exact rearmListener_performs iss now
  | abort => exact abort_performs
  | write input => exact write_performs input
  | peek size => exact .none fun _ => rfl
  | read size => exact read_performs size
  | shutdownWrite => exact shutdownWrite_performs
  | receive packet now => exact receive_performs packet now
  | tick now => exact tick_performs now
  | prepare size now => exact prepare_performs hs size now
  | completeTransmit token accepted now => exact completeTransmit_performs token accepted now

lemma Reachable.sound {h : History} (hr : Reachable c h) : c.Sound := by
  induction hr with
  | fresh => exact .idle (Nat.succ_pos 535) (by simp [Connection.fresh]) rfl
  | step op _ ih =>
    obtain ⟨es, hm, _, _⟩ := run_performs ih op
    exact hm.sound ih

end ObfuscationKernel.Net.Tcp
