import ObfuscationKernel.Block.Sessions

/-! What holds between any two steps of the block sessions. -/

namespace ObfuscationKernel.Block

open ObfuscationKernel.Core List Service

namespace Event

def Flushed (session : ℕ) (log : List Event) : Prop :=
  ∀ newer older, log = newer ++ .sent session .write :: older → [.completed session .flush, .sent session .flush].Sublist newer

def Flushing (session : ℕ) (log : List Event) : Prop :=
  ∀ newer older, log = newer ++ .sent session .write :: older → .sent session .flush ∈ newer

variable {session : ℕ} {log : List Event} {event : Event}

lemma Flushed.cons (h : Flushed session log) (he : event ≠ .sent session .write) : Flushed session (event :: log) := by
  rintro (_ | ⟨e, newer⟩) older heq
  · exact absurd (cons.inj heq).1 he
  · exact (h newer older (cons.inj heq).2).cons e

lemma Flushing.cons (h : Flushing session log) (he : event ≠ .sent session .write) : Flushing session (event :: log) := by
  rintro (_ | ⟨e, newer⟩) older heq
  · exact absurd (cons.inj heq).1 he
  · exact mem_cons_of_mem e (h newer older (cons.inj heq).2)

lemma Flushing.sent : Flushing session (.sent session .flush :: log) := by
  rintro (_ | ⟨e, newer⟩) older heq
  · cases (cons.inj heq).1
  · rw [← (cons.inj heq).1]
    exact mem_cons_self

lemma Flushing.completed (h : Flushing session log) : Flushed session (.completed session .flush :: log) := by
  rintro (_ | ⟨e, newer⟩) older heq
  · cases (cons.inj heq).1
  · rw [← (cons.inj heq).1]
    exact (singleton_sublist.mpr (h newer older (cons.inj heq).2)).cons_cons _

lemma Flushed.of_unsent (h : ∀ operation, .sent session operation ∉ log) : Flushed session log := by
  rintro newer older rfl
  exact absurd (mem_append_right newer mem_cons_self) (h .write)

end Event

def Phase.passed : Phase → Bool
  | .awaiting | .guarding .answered | .guarding .completion | .measuring true | .finishing (.ok _) => true
  | _ => false

structure Session.Within (session : Session) (geometry : BlockGeometry) : Prop where
  bounds : session.first + session.geometry.blockCount ≤ geometry.blockCount
  size : session.geometry.blockSize = geometry.blockSize
  writable : session.geometry.writable → geometry.writable

namespace Service

variable {capacity : ℕ} {service : Service capacity}

structure Fits (request : Request) (session : Session) (maximumTransfer : ℕ) : Prop where
  whole : request.size % session.geometry.blockSize = 0
  limit : request.size ≤ maximumTransfer
  first : session.first ≤ request.absolute
  last : request.absolute + request.size / session.geometry.blockSize ≤ session.first + session.geometry.blockCount

structure RequestOk (service : Service capacity) (request : Request) : Prop where
  flight : (service.entries request.slot).report.inFlight
  bound : (service.sessions request.session).bound
  slot : (service.sessions request.session).registration.slot = request.slot
  device : (service.entries request.slot).device = some request.device
  expected : (service.entries request.slot).geometry = request.expected
  held : (service.entries request.slot).owner = some request.session ∨
    (service.entries request.slot).report.state = .quarantined ∧ .revoked request.session ∈ service.log
  writable : request.operation ≠ .read → (service.sessions request.session).geometry.writable
  fits : request.operation ≠ .flush →
    Fits request (service.sessions request.session) (service.entries request.slot).maximumTransfer
  counted : (service.entries request.slot).report.completed request.operation <
    (service.entries request.slot).report.attempted request.operation
  pending : request.operation = .write → (service.entries request.slot).report.pendingWrites
  flushing : request.operation = .flush → request.phase.passed → Event.Flushing request.session service.log

variable {r : Request} {later : Service capacity} {slot session id first size : ℕ} {entry : Entry}
  {operation : Operation}

lemma RequestOk.keep (h : RequestOk service r) (events : List Event)
    (he : later.entries r.slot = service.entries r.slot) (hs : later.sessions r.session = service.sessions r.session)
    (hl : later.log = events ++ service.log) (hne : ∀ e ∈ events, e ≠ .sent r.session .write) : RequestOk later r := by
  obtain ⟨h1, h2, h3, h4, h5, h6, h7, h8, h9, h10, h11⟩ := h
  refine ⟨by rwa [he], by rwa [hs], by rwa [hs], by rwa [he], by rwa [he], ?_, by rwa [hs], by rwa [hs, he], by rwa [he],
    by rwa [he], ?_⟩
  · rw [he, hl]
    exact h6.imp_right (And.imp_right (mem_append_right _))
  intro ho hp
  rw [hl]
  clear hl
  induction events with
  | nil => exact h11 ho hp
  | cons e events ih =>
    exact (ih fun e he => hne e (mem_cons_of_mem _ he)).cons (hne e mem_cons_self)

structure Inv (service : Service capacity) : Prop where
  outside : ∀ i d, (service.entries i).device = some d → i < capacity
  unique : ∀ i j d, (service.entries i).device = some d → (service.entries j).device = some d → i = j
  owned : ∀ i s, (service.entries i).owner = some s → (service.entries i).report.state = .owned ∧
    (service.sessions s).bound ∧ (service.sessions s).registration.slot = i ∧
    Session.Within (service.sessions s) (service.entries i).geometry
  owner : ∀ i, (service.entries i).report.state = .owned → (service.entries i).owner ≠ none
  requests : ∀ id r, service.requests id = some r → RequestOk service r
  alone : ∀ id id' r r', service.requests id = some r → service.requests id' = some r' → r.slot = r'.slot → id = id'
  enrolments : ∀ id n, service.enrolments id = some n → (service.entries n.slot).report.state = .registering
  enrolled : ∀ id id' n n', service.enrolments id = some n → service.enrolments id' = some n' → n.slot = n'.slot → id = id'
  revoked : ∀ s, .revoked s ∈ service.log → (service.sessions s).bound ∧ ∀ i, (service.entries i).owner ≠ some s
  sent : ∀ s operation, .sent s operation ∈ service.log → (service.sessions s).bound
  flushed : ∀ i s, (service.entries i).owner = some s → (service.entries i).report.pendingWrites = false →
    Event.Flushed s service.log
  counted : ∀ i operation, (service.entries i).report.completed operation ≤ (service.entries i).report.attempted operation

attribute [grind cases] RequestOk Inv

attribute [grind =] quarantine launch

lemma Inv.fresh : Inv ({} : Service capacity) := by
  constructor <;> simp

lemma Inv.counted_put (h : Inv service) (he : ∀ operation, entry.report.completed operation ≤ entry.report.attempted operation)
    (i : ℕ) (operation : Operation) : ((service.put slot entry).entries i).report.completed operation ≤
      ((service.put slot entry).entries i).report.attempted operation := by
  rw [put_entries]
  split_ifs
  · exact he operation
  · exact h.counted i operation

lemma Inv.put (h : Inv service) (hr : ∀ id r, service.requests id = some r → r.slot ≠ slot)
    (hn : ∀ id n, service.enrolments id = some n → n.slot ≠ slot) (ho : entry.owner = none) (hs : entry.report.state ≠ .owned)
    (hd : ∀ d, entry.device = some d → slot < capacity ∧ ∀ j, (service.entries j).device = some d → j = slot)
    (hc : ∀ operation, entry.report.completed operation ≤ entry.report.attempted operation) : Inv (service.put slot entry) := by
  constructor
  case requests => exact fun id r hid => (h.requests id r hid).keep [] (by simp [hr id r hid]) rfl rfl (by simp)
  all_goals grind

lemma Inv.revoke (h : Inv service) (hs : (service.entries slot).owner = some session) (reason : StatusCode) :
    Inv ((service.put slot (quarantine (service.entries slot) reason)).tell (.revoked session)) := by
  constructor
  case requests =>
    intro id r hid
    have hok := h.requests id r hid
    by_cases hslot : r.slot = slot
    · subst hslot
      have hcons : r.operation = .flush → r.phase.passed → Event.Flushing r.session (.revoked session :: service.log) :=
        fun ho hp => (hok.flushing ho hp).cons (by simp)
      constructor <;> grind
    · exact hok.keep [.revoked session] (by simp [hslot]) rfl rfl (by simp)
  case flushed => exact fun i s hi hp => .cons (h.flushed i s (by grind) (by grind)) (by simp)
  case counted => exact h.counted_put (h.counted slot)
  all_goals grind

lemma Inv.move (h : Inv service) (hid : service.requests id = some r) {phase : Phase}
    (hp : phase.passed → r.phase.passed) : Inv (service.setRequest id (some { r with phase := phase })) := by
  constructor
  case requests =>
    intro id' r' hr'
    rw [setRequest_requests] at hr'
    split_ifs at hr' with he
    · cases hr'
      have hok := h.requests id r hid
      exact { hok with fits := fun ho => { hok.fits ho with }, flushing := fun ho hph => hok.flushing ho (hp hph) }
    · exact (h.requests id' r' hr').keep [] rfl rfl rfl (by simp)
  all_goals grind

lemma Inv.send (h : Inv service) (hid : service.requests id = some r) :
    Inv ((service.setRequest id (some { r with phase := .awaiting })).tell (.sent r.session r.operation)) := by
  have hok := h.requests id r hid
  constructor
  case requests =>
    intro id' r' hr'
    rw [tell_requests, setRequest_requests] at hr'
    split_ifs at hr' with he
    · cases hr'
      refine { hok with held := by grind, fits := fun ho => { hok.fits ho with }, flushing := fun ho hph => ?_ }
      rw [tell_log, ho]
      exact .sent
    · exact (h.requests id' r' hr').keep [.sent r.session r.operation] rfl rfl rfl (by grind)
  case flushed => exact fun i s hi hp => .cons (h.flushed i s hi hp) (by grind)
  all_goals grind

lemma Inv.acquire (h : Inv service) {s : Session} (hb : (service.sessions session).bound = false)
    (hr : ∀ id r, service.requests id = some r → r.slot ≠ slot) (hn : ∀ id n, service.enrolments id = some n → n.slot ≠ slot)
    (hd : entry.device = (service.entries slot).device) (ho : entry.owner = some session) (hs : entry.report.state = .owned)
    (hbound : s.bound) (hslot : s.registration.slot = slot) (hw : s.Within entry.geometry)
    (hc : ∀ operation, entry.report.completed operation ≤ entry.report.attempted operation) :
    Inv ((service.put slot entry).setSession session s) := by
  constructor
  case requests =>
    intro id r hid
    have hses : r.session ≠ session := fun he => by simpa [he, hb] using (h.requests id r hid).bound
    exact (h.requests id r hid).keep [] (by simp [hr id r hid]) (by simp [hses]) rfl (by simp)
  case flushed =>
    intro i t hi hp
    by_cases he : i = slot
    · have : t = session := by grind
      exact .of_unsent (by grind)
    · exact h.flushed i t (by grind) (by grind)
  all_goals grind

lemma Inv.launch (h : Inv service) (hs : (service.entries r.slot).owner = some r.session)
    (hf : (service.entries r.slot).report.inFlight = false)
    (hd : (service.entries r.slot).device = some r.device) (hg : (service.entries r.slot).geometry = r.expected)
    (hw : r.operation ≠ .read → (service.sessions r.session).geometry.writable)
    (hfit : r.operation ≠ .flush → Fits r (service.sessions r.session) (service.entries r.slot).maximumTransfer)
    (hp : r.phase.passed = false) :
    Inv ((service.put r.slot (launch r.operation (service.entries r.slot))).setRequest id (some r)) := by
  have hr : ∀ id' r', service.requests id' = some r' → r'.slot ≠ r.slot := fun id' r' h' he => by
    simpa [he, hf] using (h.requests id' r' h').flight
  constructor
  case requests =>
    intro id' r' hr'
    rw [setRequest_requests] at hr'
    split_ifs at hr' with he
    · cases hr'
      obtain ⟨o1, o2, o3, o4⟩ := h.owned _ _ hs
      refine ⟨by simp [Service.launch], o2, o3, by simp [Service.launch, hd], by simp [Service.launch, hg],
        .inl (by simp [Service.launch, hs]), hw, fun ho => by simpa [Service.launch] using hfit ho, ?_,
        fun ho => by simp [Service.launch, ho], fun _ hph => by rw [hp] at hph; cases hph⟩
      simpa [Service.launch] using Nat.lt_succ_of_le (h.counted r.slot r.operation)
    · exact (h.requests id' r' hr').keep [] (by simp [hr id' r' hr']) rfl rfl (by simp)
  case flushed => exact fun i s hi hpend => h.flushed i s (by grind) (by grind)
  case counted =>
    refine h.counted_put fun operation => ?_
    have := h.counted r.slot operation
    simp only [Service.launch, Function.update_apply]
    split_ifs <;> grind
  all_goals grind

lemma Inv.unowned (h : Inv service) (ho : (service.entries slot).report.state ≠ .owned) :
    (service.entries slot).owner = none := by
  have := h.owned
  cases hs : (service.entries slot).owner with
  | none => rfl
  | some s => exact absurd (this slot s hs).1 ho

lemma Inv.dropRequest (h : Inv service) (id : ℕ) : Inv (service.setRequest id none) := by
  refine { h with requests := fun id' r' hr' => ?_, alone := by grind }
  rw [setRequest_requests] at hr'
  split_ifs at hr'
  exact (h.requests id' r' hr').keep [] rfl rfl rfl (by simp)

lemma Inv.finish (h : Inv service) (hid : service.requests id = some r) {result : Result Unit}
    (hp : r.phase = .finishing result) : Inv (service.finish id r result).2 := by
  have hok := h.requests id r hid
  have hdrop := h.dropRequest id
  have hother : ∀ id' r', (service.setRequest id none).requests id' = some r' → r'.slot ≠ r.slot := by grind
  have hreg : ∀ id' n, service.enrolments id' = some n → n.slot ≠ r.slot := by grind
  have hdev : ∀ d, (service.entries r.slot).device = some d → r.slot < capacity ∧
      ∀ j, (service.entries j).device = some d → j = r.slot :=
    fun d hd => ⟨h.outside _ _ hd, fun j hj => h.unique _ _ _ hj hd⟩
  unfold Service.finish
  cases result with
  | error status => exact hdrop.put hother hreg rfl (by simp [quarantine]) hdev (h.counted r.slot)
  | ok u =>
  dsimp only
  split_ifs with hq
  · exact hdrop.put hother hreg (h.unowned (by simp [hq])) (by simp [hq]) hdev (h.counted r.slot)
  have howner := hok.held.resolve_right fun h => hq h.1
  constructor
  case requests =>
    intro id' r' hr'
    exact (hdrop.requests id' r' hr').keep [.completed r.session r.operation] (by simp [hother id' r' hr']) rfl rfl (by simp)
  case flushed =>
    intro i s hi hpend
    rw [tell_entries, put_entries] at hi hpend
    split_ifs at hi hpend with he
    · obtain rfl : s = r.session := by simpa [howner] using hi.symm
      by_cases hflush : r.operation = .flush
      · rw [tell_log, hflush]
        exact (hok.flushing hflush (by rw [hp]; rfl)).completed
      · exact .cons (h.flushed r.slot _ howner (by simpa [hflush] using hpend)) (by simp)
    · exact .cons (h.flushed i s hi hpend) (by simp)
  case counted =>
    refine hdrop.counted_put fun operation => ?_
    dsimp only
    rw [Function.update_apply]
    split_ifs with he
    · exact he ▸ hok.counted
    · exact h.counted r.slot operation
  case alone => exact hdrop.alone
  case enrolled => exact h.enrolled
  all_goals grind

lemma Inv.unrequested (h : Inv service) (slot : ℕ) (ho : (service.entries slot).report.state ≠ .owned)
    (hq : (service.entries slot).report.state ≠ .quarantined) (id : ℕ) (r : Request) (hr : service.requests id = some r) :
    r.slot ≠ slot := by
  rintro rfl
  have := (h.requests id r hr).held
  have := h.owned
  grind

lemma Inv.unenrolled (h : Inv service) (hs : (service.entries slot).report.state ≠ .registering) (id : ℕ) (n : Enrolment)
    (hn : service.enrolments id = some n) : n.slot ≠ slot := by
  rintro rfl
  exact hs (h.enrolments id n hn)

lemma Inv.reserve {device identity fuel : ℕ} {service : Service capacity} {index : ℕ} {answer : Option ℕ} (h : Inv service)
    (hf : index + fuel = capacity) (hd : ∀ j, (service.entries j).device ≠ some device)
    (hr : reserve device identity service index fuel = (later, answer)) :
    Inv later ∧ (∀ i, later.entries i = service.entries i ∨ (service.entries i).report.state = .unused) ∧
      later.requests = service.requests ∧ later.enrolments = service.enrolments ∧ ∀ slot, answer = some slot →
        (later.entries slot).report.state = .registering ∧ ∀ id n, service.enrolments id = some n → n.slot ≠ slot := by
  induction fuel generalizing service index with
  | zero =>
    cases hr
    exact ⟨h, fun _ => .inl rfl, rfl, rfl, fun slot hs => by cases hs⟩
  | succ fuel ih =>
  rw [Service.reserve] at hr
  split_ifs at hr with hu hg
  · exact ih h (by omega) hd hr
  all_goals
    have hu := not_not.mp hu
    have hreq := h.unrequested index (by simp [hu]) (by simp [hu])
    have henr := h.unenrolled (show (service.entries index).report.state ≠ .registering by simp [hu])
  · have hih := fun hi hd => ih hi (by omega) hd hr
    obtain ⟨hinv, htouched, hrest⟩ := hih (h.put hreq henr (h.unowned (by simp [hu])) (by simp)
      (fun d hd => ⟨h.outside _ _ hd, fun j hj => h.unique _ _ _ hj hd⟩) (h.counted index)) (by grind)
    exact ⟨hinv, fun i => by grind, hrest⟩
  cases hr
  refine ⟨h.put hreq henr rfl (by simp) (fun d hd' => ?_) fun _ => le_rfl, fun i => by grind, rfl, rfl, ?_⟩
  · cases hd'
    exact ⟨by omega, fun j hj => absurd hj (hd j)⟩
  rintro slot hs
  cases hs
  exact ⟨by simp, henr⟩

lemma Inv.setEnrolment (h : Inv service) {n : Enrolment} (hs : (service.entries n.slot).report.state = .registering)
    (hne : ∀ id n', service.enrolments id = some n' → n'.slot ≠ n.slot) : Inv (service.setEnrolment id (some n)) := by
  refine { h with requests := fun id r hid => ?_, enrolments := by grind, enrolled := by grind }
  exact (h.requests id r hid).keep [] rfl rfl rfl (by simp)

lemma Inv.clearEnrolment (h : Inv service) (id : ℕ) : Inv (service.setEnrolment id none) := by
  refine { h with requests := fun id r hid => ?_, enrolments := by grind, enrolled := by grind }
  exact (h.requests id r hid).keep [] rfl rfl rfl (by simp)

lemma find_some {key : Registration} (h : service.find key = some entry) :
    key.slot < capacity ∧ entry = service.entries key.slot ∧ ∃ d, entry.device = some d := by
  unfold find at h
  dsimp only at h
  split_ifs at h with h1 h2
  cases h
  simp only [Bool.or_eq_true, decide_eq_true_eq, not_or, Bool.and_eq_true] at h1 h2
  exact ⟨by omega, rfl, Option.isSome_iff_exists.mp h2.1⟩

lemma findSession_some (h : service.findSession session = some entry) :
    entry = service.entries (service.slotOf session) ∧ ∃ d, entry.device = some d :=
  (find_some (Option.filter_eq_some_iff.mp h).1).2

lemma Inv.giveBack (h : Inv service) (ho : (service.entries slot).owner = some session)
    (hf : (service.entries slot).report.inFlight = false) : Inv (service.put slot (giveBack (service.entries slot))) := by
  refine h.put (fun id r hr he => ?_) (h.unenrolled (by simp [(h.owned _ _ ho).1])) rfl (by simp [Service.giveBack])
    (fun d hd => ⟨h.outside _ _ hd, fun j hj => h.unique _ _ _ hj hd⟩) (h.counted slot)
  simpa [he, hf] using (h.requests id r hr).flight

lemma io_ok
    (h : service.io id operation session first size = (.ok (), later)) :
    ∃ r : Request, later = (service.put r.slot (launch r.operation (service.entries r.slot))).setRequest id (some r) ∧
      r.slot = service.slotOf session ∧ r.session = session ∧ r.operation = operation ∧ r.phase = .guarding .first ∧
      (service.entries r.slot).owner = some session ∧ (service.entries r.slot).report.state = .owned ∧
      (service.entries r.slot).report.inFlight = false ∧
      (service.entries r.slot).device = some r.device ∧ (service.entries r.slot).geometry = r.expected ∧
      (operation ≠ .read → (service.sessions session).geometry.writable) ∧
      (operation ≠ .flush → Fits r (service.sessions session) (service.entries r.slot).maximumTransfer) := by
  unfold io at h
  dsimp only at h
  split at h
  · cases h
  split at h
  · cases h
  next entry he =>
  split at h
  · cases h
  split at h
  · cases h
  next h1 =>
  split at h
  · cases h
  next h2 =>
  split at h
  · cases h
  next h3 =>
  split at h
  · cases h
  next h4 =>
  split at h
  · cases h
  obtain ⟨rfl, d, hd⟩ := findSession_some he
  obtain ⟨-, rfl⟩ := Prod.mk.inj h
  simp only [Bool.or_eq_true, decide_eq_true_eq, not_or, not_not, Bool.and_eq_true, badRequest] at h1 h2 h3 h4
  refine ⟨requestOf (service.sessions session) (service.entries (service.slotOf session)) operation session first size,
    rfl, rfl, rfl, rfl,
    rfl, h1.1, h1.2, Bool.eq_false_of_not_eq_true h2, ?_, rfl, by grind, fun hf => ?_⟩
  · rw [requestOf, hd]
    exact hd
  have h4 := not_and.mp h4 hf
  push Not at h4
  simp only [requestOf, hf, if_false]
  refine ⟨h4.1.1.1.2, h4.1.1.2, Nat.le_add_right _ _, ?_⟩
  dsimp only
  omega

lemma io_error {status : Status}
    (h : service.io id operation session first size = (.error status, later)) : later = service := by
  unfold io at h
  grind

end Service

end ObfuscationKernel.Block
