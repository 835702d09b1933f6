import ObfuscationKernel.Block.SessionsSafe

/-! Block sessions confine their devices: in every run, up to requests whose session is revoked under them. -/

namespace ObfuscationKernel.Block

open ObfuscationKernel.Core Service

variable {capacity : ℕ} {service later : Service capacity} {act : Act} {result : Result Unit} {i : ℕ}

def Act.actor (service : Service capacity) : Act → Option ℕ
  | registerDevice .. | enroll .. | detach .. => none
  | acquire _ _ _ session | close session | abandon session | abort session _ | io _ _ session _ _ => some session
  | guarded id _ | measured id _ | send id | answered id _ | revoke id | finish id => (service.requests id).map Request.session

inductive Touched (before after : Entry) (actor : Option ℕ) : Prop
  | same : after = before → Touched before after actor
  | free : before.report.state ≠ .owned → before.report.state ≠ .quarantined → Touched before after actor
  | own (s : ℕ) : before.owner = some s → actor = some s → after.device = before.device → Touched before after actor
  | lost : before.report.state = .quarantined → after.report.state = .quarantined → after.device = before.device →
    Touched before after actor

lemma Touched.of_slot (slot : ℕ) {actor : Option ℕ} (he : ∀ i, i ≠ slot → later.entries i = service.entries i)
    (h : Touched (service.entries slot) (later.entries slot) actor) (i : ℕ) :
    Touched (service.entries i) (later.entries i) actor := by
  by_cases hi : i = slot
  · exact hi ▸ h
  · exact .same (he i hi)

variable {id session d : ℕ} {r : Request} {actor : Option ℕ}

def Phase.failed : Phase → Bool
  | .revoking _ | .finishing (.error _) => true
  | _ => false

def Doomed (service : Service capacity) (d : ℕ) : Prop :=
  (∃ i, (service.entries i).device = some d ∧ (service.entries i).report.state = .quarantined) ∨
    ∃ id r, service.requests id = some r ∧ r.device = d ∧ r.phase.failed

lemma Doomed.of_failed {phase : Phase} (hf : phase.failed) :
    Doomed (service.setRequest id (some { r with phase := phase })) r.device :=
  .inr ⟨id, { r with phase := phase }, by simp, rfl, hf⟩

/-- A step keeps the invariant, touches only the entries its actor may touch, and dooms the device of a failed request. -/
structure Leaves (service later : Service capacity) (actor : Option ℕ) : Prop where
  inv : Inv later
  touched : ∀ i, Touched (service.entries i) (later.entries i) actor
  failed : ∀ id r, service.requests id = some r → r.phase.failed → Doomed later r.device

lemma Leaves.call (hi : Inv later) (ht : ∀ i, Touched (service.entries i) (later.entries i) actor)
    (hr : later.requests = service.requests) : Leaves service later actor :=
  ⟨hi, ht, fun id r hid hf => .inr ⟨id, r, hr ▸ hid, rfl, hf⟩⟩

lemma Leaves.refl (h : Inv service) : Leaves service service actor := .call h (fun _ => .same rfl) rfl

lemma Leaves.moved (hid : service.requests id = some r) (hi : Inv later)
    (ht : ∀ i, Touched (service.entries i) (later.entries i) actor)
    (hr : ∀ id', id' ≠ id → later.requests id' = service.requests id') (hf : r.phase.failed → Doomed later r.device) :
    Leaves service later actor := by
  refine ⟨hi, ht, fun id' r' hid' hf' => ?_⟩
  by_cases he : id' = id
  · subst he
    cases hid.symm.trans hid'
    exact hf hf'
  · exact .inr ⟨id', r', (hr id' he).trans hid', rfl, hf'⟩

lemma registerDevice_leaves (h : Inv service) (id device identity maximumTransfer : ℕ) :
    Leaves service (service.registerDevice id device identity maximumTransfer).2 none := by
  unfold registerDevice
  split_ifs with h0 hr
  iterate 2 exact .refl h
  have hd : ∀ j, (service.entries j).device ≠ some device := by
    intro j hj
    refine hr (List.any_eq_true.mpr ⟨j, List.mem_range.mpr (h.outside j device hj), ?_⟩)
    simp [hj]
  rcases hres : reserve device identity service 0 capacity with ⟨later, answer⟩
  obtain ⟨hinv, htouched, hreq, henr, hslot⟩ := h.reserve (by omega) hd hres
  have htouched (i) : Touched (service.entries i) (later.entries i) none :=
    (htouched i).elim .same fun hu => .free (by simp [hu]) (by simp [hu])
  cases answer with
  | none => exact .call hinv htouched hreq
  | some slot => exact .call (hinv.setEnrolment (hslot slot rfl).1 (henr ▸ (hslot slot rfl).2)) htouched hreq

lemma enroll_leaves (h : Inv service) {n : Enrolment} (hn : service.enrolments id = some n) (geometry : BlockGeometry) :
    Leaves service (service.enroll id n geometry).2 none := by
  have hs := h.enrolments id n hn
  have hc := h.clearEnrolment id
  have hreq := h.unrequested n.slot (by simp [hs]) (by simp [hs])
  have henr : ∀ id' n', (service.setEnrolment id none).enrolments id' = some n' → n'.slot ≠ n.slot := by
    have := h.enrolled
    grind
  have htouched (entry : Entry) :
      ∀ i, Touched (service.entries i) (((service.setEnrolment id none).put n.slot entry).entries i) none :=
    .of_slot n.slot (by simp +contextual) (.free (by simp [hs]) (by simp [hs]))
  unfold enroll
  split_ifs
  · exact .call (hc.put hreq henr rfl (by simp) (by simp) fun _ => le_rfl) (htouched _) rfl
  · exact .call (hc.put hreq henr (h.unowned (by simp [hs])) (by simp)
      (fun d hd => ⟨h.outside _ _ hd, fun j hj => h.unique _ _ _ hj hd⟩) (h.counted n.slot)) (htouched _) rfl

lemma detach_leaves (h : Inv service) (key : Registration) : Leaves service (service.detach key).2 none := by
  unfold detach
  split
  · exact .refl h
  next entry he =>
  split_ifs with h1 h2
  iterate 2 exact .refl h
  obtain ⟨-, rfl, -⟩ := find_some he
  have hs : (service.entries key.slot).report.state = .ready := by grind
  exact .call (h.put (h.unrequested _ (by simp [hs]) h1) (h.unenrolled (by simp [hs])) rfl (by simp) (by simp) fun _ => le_rfl)
    (.of_slot key.slot (by simp +contextual) (.free (by simp [hs]) h1)) rfl

lemma acquire_leaves (h : Inv service) (key : Registration) (bounds : SessionBounds) (access : SessionAccess) (session : ℕ) :
    Leaves service (service.acquire key bounds access session).2 (some session) := by
  unfold acquire
  split_ifs with hb
  · exact .refl h
  split
  · exact .refl h
  next entry he =>
  split_ifs with h1 h2 h3 h4 h5
  any_goals exact .refl h
  obtain ⟨-, rfl, -⟩ := find_some he
  have hs : (service.entries key.slot).report.state = .ready := by grind
  refine .call (h.acquire (by simpa using hb) (h.unrequested _ (by simp [hs]) h1) (h.unenrolled (by simp [hs])) rfl rfl rfl rfl rfl
    ⟨?_, rfl, by grind⟩ fun _ => le_rfl) (.of_slot key.slot (by simp +contextual) (.free (by simp [hs]) h1)) rfl
  simp only [Bool.or_eq_true, decide_eq_true_eq, not_or] at h3
  dsimp only
  omega

lemma abort_cases (session : ℕ) (reason : Option StatusCode) :
    (∃ status, service.abort session reason = (.error status, service)) ∨
      ∃ code, (service.entries (service.slotOf session)).owner = some session ∧ service.abort session reason =
        (.ok (), (service.put (service.slotOf session) (quarantine (service.entries (service.slotOf session)) code)).tell
          (.revoked session)) := by
  unfold abort
  split_ifs
  · exact .inl ⟨_, rfl⟩
  split
  · exact .inl ⟨_, rfl⟩
  split
  · exact .inl ⟨_, rfl⟩
  next entry he =>
  obtain ⟨rfl, -⟩ := findSession_some he
  split_ifs with ho
  · exact .inl ⟨_, rfl⟩
  · exact .inr ⟨_, not_not.mp ho, rfl⟩

/-- A session that ends is refused, or revoked with its work unresolved, or gives its device back. -/
inductive Closes (service : Service capacity) (session : ℕ) : Result Unit × Service capacity → Prop
  | refused (status : Status) : status.code ≠ .ioError → Closes service session (.error status, service)
  | revoked (code : StatusCode) : (service.entries (service.slotOf session)).owner = some session →
    Closes service session (.error (.ioError "block session abandoned unresolved work"), (service.put (service.slotOf session)
      (quarantine (service.entries (service.slotOf session)) code)).tell (.revoked session))
  | closed : (service.entries (service.slotOf session)).owner = some session →
    (service.entries (service.slotOf session)).report.inFlight = false →
    (service.entries (service.slotOf session)).report.pendingWrites = false →
    Closes service session (.ok (), service.put (service.slotOf session) (giveBack (service.entries (service.slotOf session))))

lemma close_closes (session : ℕ) : Closes service session (service.close session) := by
  unfold close
  split_ifs
  · exact .refused _ nofun
  split
  · exact .refused _ nofun
  next entry he =>
  obtain ⟨rfl, -⟩ := findSession_some he
  split_ifs with h1 h2 h3
  iterate 3 exact .refused _ nofun
  exact .closed (not_not.mp h2) (by grind) (by grind)

lemma abandon_closes (session : ℕ) : Closes service session (service.abandon session) := by
  unfold abandon
  split_ifs
  · exact .refused _ nofun
  split
  · exact .refused _ nofun
  next entry he =>
  obtain ⟨rfl, -⟩ := findSession_some he
  split_ifs with h2 h3
  · exact .refused _ nofun
  · exact .revoked _ (not_not.mp h2)
  · exact .closed (not_not.mp h2) (by grind) (by grind)

lemma revoke_leaves (h : Inv service) (ho : (service.entries (service.slotOf session)).owner = some session) (code : StatusCode) :
    Leaves service ((service.put (service.slotOf session) (quarantine (service.entries (service.slotOf session)) code)).tell
      (.revoked session)) (some session) :=
  .call (h.revoke ho code) (.of_slot _ (by simp +contextual) (.own session ho rfl (by simp [quarantine]))) rfl

lemma abort_leaves (h : Inv service) (session : ℕ) (reason : Option StatusCode) :
    Leaves service (service.abort session reason).2 (some session) ∧
      (service.abort session reason).2.requests = service.requests := by
  rcases @abort_cases _ service session reason with ⟨status, he⟩ | ⟨code, ho, he⟩ <;> rw [he]
  · exact ⟨.refl h, rfl⟩
  · exact ⟨revoke_leaves h ho code, rfl⟩

lemma Closes.leaves {x : Result Unit × Service capacity} (h : Inv service) (hc : Closes service session x) :
    Leaves service x.2 (some session) := by
  cases hc with
  | refused => exact .refl h
  | revoked code ho => exact revoke_leaves h ho code
  | closed ho hf =>
    exact .call (h.giveBack ho hf) (.of_slot _ (by simp +contextual) (.own session ho rfl (by simp [giveBack]))) rfl

lemma finish_leaves (h : Inv service) (hid : service.requests id = some r) {result : Result Unit}
    (hp : r.phase = .finishing result) :
    Leaves service (service.finish id r result).2 (some r.session) := by
  have hown := (h.requests id r hid).held.imp_right And.left
  have hinv := h.finish hid hp
  unfold finish at hinv ⊢
  cases result with
  | error status =>
    refine .moved hid hinv (.of_slot r.slot (by simp +contextual) ?_) (by simp +contextual) fun _ =>
      .inl ⟨r.slot, by simpa [quarantine] using (h.requests id r hid).device, by simp [quarantine]⟩
    rcases hown with ho | hq
    · exact .own _ ho rfl (by simp [quarantine])
    · exact .lost hq (by simp [quarantine]) (by simp [quarantine])
  | ok u =>
  have hf : ¬ r.phase.failed := by rw [hp]; exact nofun
  dsimp only at hinv ⊢
  split_ifs at hinv ⊢ with hq
  · exact .moved hid hinv (.of_slot r.slot (by simp +contextual) (.lost hq (by simp [hq]) (by simp))) (by simp +contextual) fun h =>
      absurd h hf
  · exact .moved hid hinv (.of_slot r.slot (by simp +contextual) (.own _ (hown.resolve_right hq) rfl (by simp)))
      (by simp +contextual) fun h => absurd h hf

lemma Act.step_leaves (h : Inv service) (hs : act.step service = some (result, later)) :
    Leaves service later (act.actor service) := by
  have hlater {x : Result Unit × Service capacity} {actor : Option ℕ} (hx : some x = some (result, later))
      (h : Leaves service x.2 actor) : Leaves service later actor := by
    obtain rfl := Option.some.inj hx
    exact h
  cases act with
  | registerDevice id device identity maximumTransfer =>
    simp only [Act.step] at hs
    split_ifs at hs
    exact hlater hs (registerDevice_leaves h id device identity maximumTransfer)
  | enroll id geometry =>
    obtain ⟨n, hn, hs⟩ := Option.map_eq_some_iff.mp hs
    exact hlater (congrArg some hs) (enroll_leaves h hn geometry)
  | acquire key bounds access session => exact hlater hs (acquire_leaves h key bounds access session)
  | detach key => exact hlater hs (detach_leaves h key)
  | close session => exact hlater hs ((close_closes session).leaves h)
  | abandon session => exact hlater hs ((abandon_closes session).leaves h)
  | abort session reason => exact hlater hs (abort_leaves h session reason).1
  | io id operation session first size =>
    simp only [Act.step] at hs
    split_ifs at hs with hnone
    have hs := Option.some.inj hs
    cases result with
    | error status =>
      rw [io_error hs]
      exact .refl h
    | ok u =>
    obtain ⟨r, rfl, hslot, rfl, rfl, hp, ho, -, hf, hd, hg, hw, hfit⟩ := io_ok hs
    refine ⟨h.launch ho hf hd hg hw hfit (by rw [hp]; rfl),
      .of_slot r.slot (by simp +contextual) (.own _ ho rfl (by simp [launch])), fun id' r' hr' hf' => .inr ⟨id', r', ?_, rfl, hf'⟩⟩
    grind
  | guarded id answer =>
    obtain ⟨r, hr, hs⟩ := Option.bind_eq_some_iff.mp hs
    split at hs
    next stage hp =>
      refine hlater hs (.moved hr (h.move hr ?_) (fun _ => .same rfl) (by simp +contextual) (by rw [hp]; exact nofun))
      rw [hp]
      cases answer with
      | error => exact fun h => by cases h
      | ok => cases stage <;> simp [Service.guarded, Phase.passed]
    next => cases hs
  | measured id geometry =>
    obtain ⟨r, hr, hs⟩ := Option.bind_eq_some_iff.mp hs
    split at hs
    next after hp =>
      refine hlater hs (.moved hr (h.move hr ?_) (fun _ => .same rfl) (by simp +contextual) (by rw [hp]; exact nofun))
      simp only [Service.measured]
      split_ifs <;> simp_all [Phase.passed]
    next => cases hs
  | send id =>
    obtain ⟨r, hr, hs⟩ := Option.bind_eq_some_iff.mp hs
    split at hs
    next hp => exact hlater hs (.moved hr (h.send hr) (fun _ => .same rfl) (by simp +contextual) (by rw [hp]; exact nofun))
    next => cases hs
  | answered id answer =>
    obtain ⟨r, hr, hs⟩ := Option.bind_eq_some_iff.mp hs
    split at hs
    next hp =>
      exact hlater hs (.moved hr (h.move hr fun _ => by rw [hp]; rfl) (fun _ => .same rfl) (by simp +contextual)
        (by rw [hp]; exact nofun))
    next => cases hs
  | revoke id =>
    obtain ⟨r, hr, hs⟩ := Option.bind_eq_some_iff.mp hs
    simp only [Act.actor, hr, Option.map_some]
    split at hs
    next status hp =>
      obtain ⟨hl, hreq⟩ := abort_leaves h r.session (some status.code)
      exact hlater hs (.moved hr (hl.inv.move (by rw [hreq, hr]) (by simp [Phase.passed])) hl.touched
        (fun id' hid => by rw [setRequest_requests, if_neg hid, hreq]) fun _ => .of_failed rfl)
    next => cases hs
  | finish id =>
  obtain ⟨r, hr, hs⟩ := Option.bind_eq_some_iff.mp hs
  simp only [Act.actor, hr, Option.map_some]
  split at hs
  next result hp => exact hlater hs (finish_leaves h hr hp)
  next => cases hs

inductive Steps : Service capacity → Service capacity → Prop
  | refl {service : Service capacity} : Steps service service
  | tail {service later last : Service capacity} {act : Act} {result : Result Unit} :
    Steps service later → act.step later = some (result, last) → Steps service last

lemma Steps.inv (h : Inv service) (hs : Steps service later) : Inv later := by
  induction hs with
  | refl => exact h
  | tail _ ha ih => exact (Act.step_leaves ih ha).inv

lemma quarantined_stays (h : Inv service) (hs : act.step service = some (result, later))
    (hq : (service.entries i).report.state = .quarantined) :
    (later.entries i).report.state = .quarantined ∧ (later.entries i).device = (service.entries i).device := by
  cases (Act.step_leaves h hs).touched i with
  | same he => rw [he]; exact ⟨hq, rfl⟩
  | free _ hn => exact absurd hq hn
  | own s ho => simp [(h.owned i s ho).1] at hq
  | lost _ hq' hd => exact ⟨hq', hd⟩

lemma Doomed.step (h : Inv service) (hd : Doomed service d) (hs : act.step service = some (result, later)) :
    Doomed later d := by
  rcases hd with ⟨i, hi, hq⟩ | ⟨id, r, hr, rfl, hf⟩
  · obtain ⟨hq', hd'⟩ := quarantined_stays h hs hq
    exact .inl ⟨i, hd' ▸ hi, hq'⟩
  · exact (Act.step_leaves h hs).failed id r hr hf

lemma Doomed.steps (h : Inv service) (hd : Doomed service d) (hs : Steps service later) : Doomed later d := by
  induction hs with
  | refl => exact hd
  | tail hs ha ih => exact (ih).step (hs.inv h) ha

lemma Doomed.refuses {first size : ℕ} {operation : Operation} (h : Inv service) (hd : Doomed service d)
    (hio : service.io id operation session first size = (.ok (), later)) (hr : later.requests id = some r) : r.device ≠ d := by
  obtain ⟨r', rfl, -, rfl, -, -, ho, hstate, hflight, hdevice, -⟩ := io_ok hio
  obtain rfl : r' = r := by simpa using hr
  rintro rfl
  rcases hd with ⟨i, hi, hq⟩ | ⟨id', r', hr', hd, -⟩
  · rw [h.unique _ _ _ hdevice hi, hq] at hstate
    cases hstate
  have hok := h.requests id' r' hr'
  rw [← h.unique _ _ _ (hd ▸ hok.device) hdevice, hok.flight] at hflight
  cases hflight

inductive Fails (service : Service capacity) : Act → ℕ → Prop
  | transport {id : ℕ} {r : Request} {status : Status} : service.requests id = some r → r.phase = .awaiting →
    Fails service (.answered id (.error status)) r.device
  | guarding {id : ℕ} {r : Request} {stage : Stage} {status : Status} : service.requests id = some r → r.phase = .guarding stage →
    Fails service (.guarded id (.error status)) r.device
  | geometry {id : ℕ} {r : Request} {after : Bool} {geometry : BlockGeometry} : service.requests id = some r →
    r.phase = .measuring after → geometry ≠ r.expected → Fails service (.measured id geometry) r.device
  | abort {session d : ℕ} {reason : Option StatusCode} : (service.abort session reason).1 = .ok () →
    (service.entries (service.slotOf session)).device = some d → Fails service (.abort session reason) d

lemma Fails.doomed (h : Fails service act d) (hs : act.step service = some (result, later)) : Doomed later d := by
  cases h with
  | transport hr hp | guarding hr hp =>
    simp only [Act.step, hr, hp, Option.bind_some, Option.some.injEq, Prod.mk.injEq] at hs
    obtain ⟨-, rfl⟩ := hs
    exact .of_failed rfl
  | geometry hr hp hg =>
    simp only [Act.step, hr, hp, Option.bind_some, Option.some.injEq, Prod.mk.injEq] at hs
    obtain ⟨-, rfl⟩ := hs
    exact .of_failed (by simp [hg, measured, Phase.failed])
  | @abort session _ _ hok hd =>
  have hs := Option.some.inj hs
  rcases abort_cases session _ with ⟨status, he⟩ | ⟨code, -, he⟩ <;> rw [he] at hok hs
  · cases hok
  cases hs
  exact .inl ⟨service.slotOf session, by simpa [quarantine] using hd, by simp [quarantine]⟩

structure Dispatched (service : Service capacity) (r : Request) : Prop where
  device : (service.entries r.slot).device = some r.device
  owner : (service.entries r.slot).owner = some r.session
  inside : (service.sessions r.session).Within (service.entries r.slot).geometry
  writable : r.operation ≠ .read → (service.sessions r.session).geometry.writable
  fits : r.operation ≠ .flush → Fits r (service.sessions r.session) (service.entries r.slot).maximumTransfer

structure Confined (service : Service capacity) : Prop where
  owner : ∀ i j d s s', (service.entries i).device = some d → (service.entries j).device = some d →
    (service.entries i).owner = some s → (service.entries j).owner = some s' → s = s'
  single : ∀ id id' r r', service.requests id = some r → service.requests id' = some r' → r.device = r'.device → id = id'
  dispatched : ∀ id result later, (Act.send id).step service = some (result, later) →
    ∃ r, service.requests id = some r ∧ Dispatched service r
  ended : ∀ (act : Act) (result : Result Unit) (later : Service capacity) (d : ℕ), Fails service act d →
    act.step service = some (result, later) → ∀ last, Steps later last →
    ∀ id operation session first size after r, last.io id operation session first size = (.ok (), after) →
      after.requests id = some r → r.device ≠ d
  flushed : ∀ session later, service.close session = (.ok (), later) ∨ service.abandon session = (.ok (), later) →
    Event.Flushed session service.log
  owning : ∀ id operation session first size later, service.io id operation session first size = (.ok (), later) →
    (service.entries (service.slotOf session)).owner = some session
  others : ∀ (act : Act) (result : Result Unit) (later : Service capacity) (i s : ℕ),
    act.step service = some (result, later) → (service.entries i).owner = some s → act.actor service ≠ some s →
    later.entries i = service.entries i
  stale : ∀ key, service.find key = none → (∃ status, service.detach key = (.error status, service)) ∧
      ∀ bounds access session, ∃ status, service.acquire key bounds access session = (.error status, service)
  reported : ∀ i operation, (service.entries i).report.completed operation ≤ (service.entries i).report.attempted operation

lemma send_enabled (h : (Act.send id).step service = some (result, later)) :
    ∃ r, service.requests id = some r ∧ r.phase = .sending := by
  obtain ⟨r, hr, h⟩ := Option.bind_eq_some_iff.mp h
  split at h
  next hp => exact ⟨r, hr, hp⟩
  next => cases h

lemma dispatched_iff (h : Inv service) (hr : service.requests id = some r) :
    Dispatched service r ↔ .revoked r.session ∉ service.log := by
  have hok := h.requests id r hr
  constructor
  · intro hd hrev
    exact (h.revoked _ hrev).2 _ hd.owner
  intro hn
  have ho := hok.held.resolve_right fun hq => hn hq.2
  exact ⟨hok.device, ho, (h.owned _ _ ho).2.2.2, hok.writable, hok.fits⟩

lemma flushed_of_closed (h : Inv service)
    (hs : service.close session = (.ok (), later) ∨ service.abandon session = (.ok (), later)) :
    Event.Flushed session service.log := by
  have hc : Closes service session (.ok (), later) := by
    rcases hs with hs | hs <;> rw [← hs]
    · exact close_closes session
    · exact abandon_closes session
  cases hc with
  | closed ho _ hp => exact h.flushed _ _ ho hp

/-- An act that takes the device from a session with work on it. -/
def Act.Revokes (service : Service capacity) (session : ℕ) : Act → Prop
  | abort s reason => s = session ∧ (service.abort s reason).1 = .ok ()
  | abandon s => s = session ∧ (service.abandon s).1 = .error (.ioError "block session abandoned unresolved work")
  | _ => False

def Act.runs (service : Service capacity) : List Act → Option (Service capacity)
  | [] => some service
  | act :: acts => (act.step service).bind fun outcome => Act.runs outcome.2 acts

def RevokedIn (capacity : ℕ) (acts : List Act) (session : ℕ) : Prop :=
  ∃ before act after, ∃ service : Service capacity, acts = before ++ act :: after ∧ Act.runs {} before = some service ∧
    act.Revokes service session

def Phase.ending : Phase → Bool
  | .finishing (.error _) => true
  | _ => false

def Ending (service : Service capacity) (session : ℕ) : Prop :=
  ∀ id r, service.requests id = some r → r.session = session → r.phase.ending

/-- The log tells of a session that is revoked: an act did it, or the failed request of the session that is ending. -/
structure Tells (service later : Service capacity) (session : ℕ) (revokes : Prop) : Prop where
  kept : .revoked session ∈ service.log → .revoked session ∈ later.log
  told : revokes → .revoked session ∈ later.log
  cause : .revoked session ∈ later.log → .revoked session ∈ service.log ∨ revokes ∨ Ending later session
  ending : .revoked session ∈ service.log → Ending service session → Ending later session

lemma Tells.quiet (hl : .revoked session ∈ later.log ↔ .revoked session ∈ service.log)
    (hr : ∀ id r, later.requests id = some r → .revoked r.session ∈ service.log →
      ∃ r', service.requests id = some r' ∧ r'.session = r.session ∧ (r'.phase.ending → r.phase.ending)) :
    Tells service later session False := by
  refine ⟨hl.mpr, False.elim, fun h => .inl (hl.mp h), ?_⟩
  rintro hs he id r hr' rfl
  obtain ⟨r', hid, hsession, hp⟩ := hr id r hr' hs
  exact hp (he id r' hid hsession)

lemma Tells.call (hl : later.log = service.log) (hr : later.requests = service.requests) : Tells service later session False :=
  .quiet (by rw [hl]) fun _ r hid _ => ⟨r, hr ▸ hid, rfl, id⟩

lemma Tells.moved {phase : Phase} (hid : service.requests id = some r) (hp : r.phase.ending = false)
    (hl : .revoked session ∈ later.log ↔ .revoked session ∈ service.log)
    (hr : later.requests = (service.setRequest id (some { r with phase := phase })).requests) :
    Tells service later session False := by
  refine .quiet hl fun id' r' hid' _ => ?_
  rw [hr, setRequest_requests] at hid'
  split_ifs at hid' with he
  · cases hid'
    exact ⟨r, he ▸ hid, rfl, fun h => by rw [hp] at h; cases h⟩
  · exact ⟨r', hid', rfl, fun h => h⟩

lemma Tells.revoked (hl : later.log = .revoked session :: service.log) (hr : later.requests = service.requests) {s : ℕ}
    {revokes : Prop} (hs : revokes ↔ session = s) : Tells service later s revokes := by
  refine ⟨fun h => ?_, fun h => ?_, fun h => ?_, fun _ he => ?_⟩
  · rw [hl]
    exact List.mem_cons_of_mem _ h
  · rw [hl, hs.mp h]
    exact List.mem_cons_self
  · rw [hl] at h
    rcases List.mem_cons.mp h with he | h
    · exact .inr (.inl (hs.mpr (Event.revoked.inj he).symm))
    · exact .inl h
  · unfold Ending at he ⊢
    rwa [hr]

lemma Tells.refused {revokes : Prop} (hr : ¬revokes) : Tells service service session revokes :=
  ⟨fun h => h, fun h => absurd h hr, .inl, fun _ h => h⟩

lemma reserve_frame (device identity : ℕ) (service : Service capacity) (index fuel : ℕ) :
    (reserve device identity service index fuel).1.log = service.log ∧
      (reserve device identity service index fuel).1.requests = service.requests := by
  induction fuel generalizing service index with
  | zero => exact ⟨rfl, rfl⟩
  | succ fuel ih =>
  rw [reserve]
  split_ifs
  · exact ih service (index + 1)
  · exact ih _ (index + 1)
  · exact ⟨rfl, rfl⟩

lemma registerDevice_tells (id device identity maximumTransfer : ℕ) :
    Tells service (service.registerDevice id device identity maximumTransfer).2 session False := by
  unfold registerDevice
  split_ifs with h0 hr
  iterate 2 exact .call rfl rfl
  have hframe := reserve_frame device identity service 0 capacity
  rcases hres : reserve device identity service 0 capacity with ⟨later, answer⟩
  rw [hres] at hframe
  cases answer <;> exact .call hframe.1 hframe.2

lemma Closes.tells {x : Result Unit × Service capacity} (hc : Closes service session x) (s : ℕ) :
    Tells service x.2 s (session = s ∧ x.1 = .error (.ioError "block session abandoned unresolved work")) := by
  cases hc with
  | refused status hcode =>
    refine .refused ?_
    rintro ⟨-, hs⟩
    cases hs
    exact hcode rfl
  | revoked code ho =>
    refine Tells.revoked ?_ ?_ ⟨And.left, fun hs => ⟨hs, rfl⟩⟩ <;> rfl
  | closed =>
    simp only [reduceCtorEq, and_false]
    exact .call rfl rfl

lemma Act.step_tells (h : Inv service) (hs : act.step service = some (result, later)) (s : ℕ) :
    Tells service later s (act.Revokes service s) := by
  have hlater {x : Result Unit × Service capacity} {revokes : Prop} (hx : some x = some (result, later))
      (h : Tells service x.2 s revokes) : Tells service later s revokes := by
    obtain rfl := Option.some.inj hx
    exact h
  cases act with
  | registerDevice id device identity maximumTransfer =>
    simp only [Act.step] at hs
    split_ifs at hs
    exact hlater hs (registerDevice_tells id device identity maximumTransfer)
  | enroll id geometry =>
    obtain ⟨n, hn, hs⟩ := Option.map_eq_some_iff.mp hs
    refine hlater (congrArg some hs) ?_
    unfold Service.enroll
    split_ifs <;> exact .call rfl rfl
  | acquire key bounds access session =>
    refine hlater hs ?_
    unfold Service.acquire
    split_ifs
    · exact .call rfl rfl
    split
    · exact .call rfl rfl
    · split_ifs <;> exact .call rfl rfl
  | detach key =>
    refine hlater hs ?_
    unfold Service.detach
    split
    · exact .call rfl rfl
    · split_ifs <;> exact .call rfl rfl
  | close session =>
    refine hlater hs ?_
    unfold Service.close
    split_ifs
    · exact .call rfl rfl
    split
    · exact .call rfl rfl
    · split_ifs <;> exact .call rfl rfl
  | abandon session => exact hlater hs ((abandon_closes session).tells s)
  | abort session reason =>
    refine hlater hs ?_
    rcases @abort_cases _ service session reason with ⟨status, he⟩ | ⟨code, ho, he⟩
    · rw [he]
      refine .refused ?_
      rintro ⟨-, hr⟩
      rw [he] at hr
      cases hr
    · rw [he]
      refine Tells.revoked ?_ ?_ ⟨And.left, fun hs => ⟨hs, ?_⟩⟩
      · rfl
      · rfl
      · rw [he]
  | io id operation session first size =>
    simp only [Act.step] at hs
    split_ifs at hs with hnone
    have hs := Option.some.inj hs
    cases result with
    | error status =>
      rw [io_error hs]
      exact .call rfl rfl
    | ok u =>
    obtain ⟨r, rfl, -, rfl, -, -, ho, -⟩ := io_ok hs
    refine .quiet .rfl fun id' r' hr' hrev => ?_
    rw [setRequest_requests] at hr'
    split_ifs at hr' with he
    · cases hr'
      exact absurd ho ((h.revoked _ hrev).2 _)
    · exact ⟨r', hr', rfl, fun h => h⟩
  | guarded id answer =>
    obtain ⟨r, hr, hs⟩ := Option.bind_eq_some_iff.mp hs
    split at hs
    next stage hp =>
      cases hs
      exact .moved hr (by rw [hp]; rfl) Iff.rfl rfl
    next => cases hs
  | measured id geometry =>
    obtain ⟨r, hr, hs⟩ := Option.bind_eq_some_iff.mp hs
    split at hs
    next after hp =>
      cases hs
      exact .moved hr (by rw [hp]; rfl) Iff.rfl rfl
    next => cases hs
  | send id =>
    obtain ⟨r, hr, hs⟩ := Option.bind_eq_some_iff.mp hs
    split at hs
    next hp =>
      cases hs
      exact .moved hr (by rw [hp]; rfl) (by simp) rfl
    next => cases hs
  | answered id answer =>
    obtain ⟨r, hr, hs⟩ := Option.bind_eq_some_iff.mp hs
    split at hs
    next hp =>
      cases hs
      exact .moved hr (by rw [hp]; rfl) Iff.rfl rfl
    next => cases hs
  | revoke id =>
    obtain ⟨r, hr, hs⟩ := Option.bind_eq_some_iff.mp hs
    split at hs
    next status hp =>
      refine hlater hs ?_
      rcases @abort_cases _ service r.session (some status.code) with ⟨status', he⟩ | ⟨code, ho, he⟩
      · rw [he]
        exact .moved hr (by rw [hp]; rfl) Iff.rfl rfl
      · rw [he]
        have hend : Ending ((service.put (service.slotOf r.session)
            (quarantine (service.entries (service.slotOf r.session)) code)).tell (.revoked r.session) |>.setRequest id
              (some { r with phase := .finishing (.error status) })) r.session := by
          intro id' r' hr' hsession
          rw [setRequest_requests] at hr'
          split_ifs at hr' with hid
          · cases hr'
            rfl
          -- a session has one request at a time
          have hslot := (h.requests id r hr).slot
          rw [← hsession, (h.requests id' r' hr').slot] at hslot
          exact absurd (h.alone id' id r' r hr' hr hslot) hid
        by_cases hrs : r.session = s
        · subst hrs
          exact ⟨fun h => List.mem_cons_of_mem _ h, False.elim, fun _ => .inr (.inr hend), fun _ _ => hend⟩
        · exact .moved hr (by rw [hp]; rfl) (by simp [Ne.symm hrs]) rfl
    next => cases hs
  | finish id =>
    obtain ⟨r, hr, hs⟩ := Option.bind_eq_some_iff.mp hs
    split at hs
    next result hp =>
      refine hlater hs ?_
      have hgone (id' : ℕ) (r' : Request) (hr' : (service.finish id r result).2.requests id' = some r') :
          service.requests id' = some r' := by
        unfold Service.finish at hr'
        grind
      refine .quiet ?_ fun id' r' hr' _ => ⟨r', hgone id' r' hr', rfl, fun h => h⟩
      unfold Service.finish
      grind
    next => cases hs

lemma Act.runs_append (before : List Act) (act : Act) (start : Service capacity) :
    Act.runs start (before ++ [act]) = (Act.runs start before).bind fun service => (act.step service).map Prod.snd := by
  induction before generalizing start with
  | nil =>
    simp only [List.nil_append, Act.runs, Option.bind_some]
    cases act.step start <;> rfl
  | cons first before ih =>
    simp only [List.cons_append, Act.runs, Option.bind_assoc]
    refine Option.bind_congr fun outcome _ => ih outcome.2

lemma Steps.of_runs {start : Service capacity} {acts : List Act} (h : Steps start service)
    (hr : Act.runs service acts = some later) : Steps start later := by
  induction acts generalizing service with
  | nil =>
    cases hr
    exact h
  | cons act acts ih =>
    obtain ⟨⟨result, next⟩, hs, hr⟩ := Option.bind_eq_some_iff.mp hr
    exact ih (h.tail hs) hr

lemma RevokedIn.append {acts : List Act} (hr : Act.runs {} acts = some service) :
    RevokedIn capacity (acts ++ [act]) session ↔ RevokedIn capacity acts session ∨ act.Revokes service session := by
  constructor
  · rintro ⟨before, a, after, middle, he, hm, hrev⟩
    rcases List.eq_nil_or_concat after with rfl | ⟨rest, last, rfl⟩
    · obtain ⟨rfl, ha⟩ := List.append_inj' he rfl
      cases hr.symm.trans hm
      exact .inr ((List.cons.inj ha).1 ▸ hrev)
    · rw [List.concat_eq_append, ← List.cons_append, ← List.append_assoc] at he
      exact .inl ⟨before, a, rest, middle, (List.append_inj' he rfl).1, hm, hrev⟩
  · rintro (⟨before, a, after, middle, rfl, hm, hrev⟩ | hrev)
    · exact ⟨before, a, after ++ [act], middle, by simp, hm, hrev⟩
    · exact ⟨acts, act, [], service, rfl, hr, hrev⟩

lemma revoked_iff {acts : List Act} (hr : Act.runs {} acts = some service) (s : ℕ) :
    (RevokedIn capacity acts s → .revoked s ∈ service.log) ∧
      (.revoked s ∈ service.log → RevokedIn capacity acts s ∨ Ending service s) := by
  induction acts using List.reverseRecOn generalizing service with
  | nil =>
    cases hr
    refine ⟨?_, nofun⟩
    rintro ⟨before, act, after, -, he, -⟩
    simp at he
  | append_singleton acts act ih =>
  rw [Act.runs_append] at hr
  obtain ⟨middle, hm, hr⟩ := Option.bind_eq_some_iff.mp hr
  obtain ⟨⟨result, later⟩, hs, rfl⟩ := Option.map_eq_some_iff.mp hr
  have ht := Act.step_tells ((Steps.refl.of_runs hm).inv .fresh) hs s
  obtain ⟨hto, hfrom⟩ := ih hm
  rw [RevokedIn.append hm]
  refine ⟨fun h => h.elim (fun h => ht.kept (hto h)) ht.told, fun h => ?_⟩
  rcases ht.cause h with hold | hrevokes | hending
  · exact (hfrom hold).imp .inl (ht.ending hold)
  · exact .inl (.inr hrevokes)
  · exact .inr hending

/-- A session that is revoked admits nothing more: an act that revokes it has come between the admission and the sending. -/
theorem sessions_confine {capacity : ℕ} {acts : List Act} {service : Service capacity} (hs : Act.runs {} acts = some service) :
    Confined service ↔ ∀ id r, service.requests id = some r → r.phase = .sending → ¬RevokedIn capacity acts r.session := by
  have h := (Steps.refl.of_runs hs).inv .fresh
  have hlog {id : ℕ} {r : Request} (hr : service.requests id = some r) (hp : r.phase = .sending) :
      .revoked r.session ∈ service.log ↔ RevokedIn capacity acts r.session := by
    refine ⟨fun hrev => ((revoked_iff hs r.session).2 hrev).resolve_right fun he => ?_, (revoked_iff hs r.session).1⟩
    have hend := he id r hr rfl
    rw [hp] at hend
    cases hend
  constructor
  · intro hc id r hr hp
    obtain ⟨r', hr', hd⟩ := hc.dispatched id (.ok ()) _ (by rw [Act.step, hr, Option.bind_some, hp])
    cases hr.symm.trans hr'
    exact mt (hlog hr hp).mpr ((dispatched_iff h hr).mp hd)
  intro hn
  refine ⟨?_, ?_, ?_, ?_, fun session later => flushed_of_closed h, ?_, ?_, ?_, h.counted⟩
  · intro i j d s s' hi hj ho ho'
    cases h.unique i j d hi hj
    exact Option.some.inj (ho.symm.trans ho')
  · intro id id' r r' hr hr' hd
    exact h.alone id id' r r' hr hr' (h.unique _ _ _ (h.requests id r hr).device (hd ▸ (h.requests id' r' hr').device))
  · intro id result later hsend
    obtain ⟨r, hr, hp⟩ := send_enabled hsend
    exact ⟨r, hr, (dispatched_iff h hr).mpr (mt (hlog hr hp).mp (hn id r hr hp))⟩
  · intro act result later d hf hstep last hlast id operation session first size after r hio hr
    have hinv := (Act.step_leaves h hstep).inv
    exact (Doomed.steps hinv (hf.doomed hstep) hlast).refuses (hlast.inv hinv) hio hr
  · intro id operation session first size later hio
    obtain ⟨r, -, hslot, -, -, -, ho, -⟩ := io_ok hio
    exact hslot ▸ ho
  · intro act result later i s hstep ho hne
    cases (Act.step_leaves h hstep).touched i with
    | same he => exact he
    | free hn _ => exact absurd (h.owned i s ho).1 hn
    | own s' ho' ha => exact absurd (ha.trans (ho'.symm.trans ho)) hne
    | lost hq => simp [(h.owned i s ho).1] at hq
  intro key hkey
  refine ⟨⟨_, by rw [Service.detach, hkey]⟩, fun bounds access session => ?_⟩
  unfold Service.acquire
  split_ifs
  · exact ⟨_, rfl⟩
  · rw [hkey]
    exact ⟨_, rfl⟩

def admittedRead : List Act :=
  [.registerDevice 0 7 1 4096, .enroll 0 ⟨8, 512, true⟩, .acquire ⟨true, 0, 1⟩ ⟨0, 8⟩ .readonly 0, .io 0 .read 0 2 1024,
    .guarded 0 (.ok ())]

def abortedRead : List Act :=
  admittedRead ++ [.abort 0 (some .ioError), .measured 0 ⟨8, 512, true⟩, .guarded 0 (.ok ())]

def aboutToSend (service : Service capacity) : Bool × Option ℕ :=
  ((service.requests 0).any fun r => match r.phase with | .sending => r.session = 0 | _ => false, (service.entries 0).owner)

lemma aboutToSend_true (h : (aboutToSend service).1 = true) :
    ∃ r, service.requests 0 = some r ∧ r.phase = .sending ∧ r.session = 0 := by
  unfold aboutToSend at h
  cases hr : service.requests 0 with
  | none => rw [hr] at h; cases h
  | some r =>
  rw [hr] at h
  dsimp only [Option.any_some] at h
  split at h
  next hp => exact ⟨r, rfl, hp, by simpa using h⟩
  next => cases h

theorem sessions_confine_admitted : ∃ service : Service 4,
    Act.runs {} (admittedRead ++ [.measured 0 ⟨8, 512, true⟩, .guarded 0 (.ok ())]) = some service ∧
      aboutToSend service = (true, some 0) ∧ Confined service := by
  have h : ((Act.runs ({} : Service 4) (admittedRead ++ [.measured 0 ⟨8, 512, true⟩, .guarded 0 (.ok ())])).map aboutToSend) =
      some (true, some 0) := by decide +kernel
  obtain ⟨service, hr, hsend⟩ := Option.map_eq_some_iff.mp h
  refine ⟨service, hr, hsend, (sessions_confine hr).mpr ?_⟩
  rintro id r - - ⟨before, act, after, middle, hacts, -, hrev⟩
  have hact : act ∈ admittedRead ++ [.measured 0 ⟨8, 512, true⟩, .guarded 0 (.ok ())] := by simp [hacts]
  simp only [admittedRead, List.cons_append, List.nil_append, List.mem_cons, List.not_mem_nil, or_false] at hact
  rcases hact with rfl | rfl | rfl | rfl | rfl | rfl | rfl <;> exact hrev

theorem sessions_not_confined : ∃ service : Service 4, Act.runs {} abortedRead = some service ∧
    aboutToSend service = (true, none) ∧ ¬Confined service := by
  have h : ((Act.runs ({} : Service 4) abortedRead).map fun service => (aboutToSend service, service.log)) =
      some ((true, none), [.revoked 0]) := by decide +kernel
  obtain ⟨service, hr, h⟩ := Option.map_eq_some_iff.mp h
  obtain ⟨hsend, hlog⟩ := Prod.mk.inj h
  refine ⟨service, hr, hsend, fun hc => ?_⟩
  obtain ⟨r, hreq, hp, hsession⟩ := aboutToSend_true (congrArg Prod.fst hsend)
  obtain ⟨r', hreq', hd⟩ := hc.dispatched 0 (.ok ()) _ (by rw [Act.step, hreq, Option.bind_some, hp])
  cases hreq.symm.trans hreq'
  have hrevoked := (dispatched_iff ((Steps.refl.of_runs hr).inv .fresh) hreq).mp hd
  rw [hlog, hsession] at hrevoked
  exact hrevoked List.mem_cons_self

end ObfuscationKernel.Block
