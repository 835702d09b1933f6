import ObfuscationKernel.Net.Interface

/-! The life of an interface's IPv6 addresses over whole runs. -/

namespace ObfuscationKernel.Net.EthernetInterface

open ObfuscationKernel.Core Wire Codec List Function

variable {i i' : EthernetInterface} {k : Fin 3} {address : Ipv6}

def Distinct (i : EthernetInterface) : Prop := ∀ j k, (i.addresses j).used = true → (i.addresses k).used = true →
  (i.addresses j).address = (i.addresses k).address → j = k

def Aged (i : EthernetInterface) : Prop := ∀ k, (i.addresses k).used = true → (i.addresses k).state = .deprecated →
  (i.addresses k).preferredUntil ≤ i.now

lemma find_some (h : i.find address = some k) : (i.addresses k).used = true ∧ (i.addresses k).address = address := by
  simpa using find?_some h

lemma find_none (h : i.find address = none) (k : Fin 3) (hu : (i.addresses k).used = true) : (i.addresses k).address ≠ address := by
  have := find?_eq_none.mp h k (mem_finRange k)
  simpa [hu] using this

lemma Distinct.find (hd : Distinct i) (hu : (i.addresses k).used = true) (ha : (i.addresses k).address = address) :
    i.find address = some k := by
  cases h : i.find address with
  | none => exact absurd ha (find_none h k hu)
  | some j =>
    obtain ⟨hj, he⟩ := find_some h
    rw [hd j k hj hu (he.trans ha.symm)]

structure Kept (i i' : EthernetInterface) : Prop where
  distinct : Distinct i → Distinct i'
  deprecated : ∀ k, (i'.addresses k).used = true → (i'.addresses k).state = .deprecated →
    (i.addresses k).used = true ∧ (i.addresses k).state = .deprecated
  now : i'.now = i.now
  mac : i'.mac = i.mac

lemma Kept.refl (i : EthernetInterface) : Kept i i := ⟨id, fun _ hu hs => ⟨hu, hs⟩, rfl, rfl⟩

lemma Kept.trans {j : EthernetInterface} (h : Kept i i') (h' : Kept i' j) : Kept i j where
  distinct hd := h'.distinct (h.distinct hd)
  deprecated k hu hs := (h'.deprecated k hu hs).elim (h.deprecated k)
  now := h'.now.trans h.now
  mac := h'.mac.trans h.mac

variable {a : Address} {now : ℕ} {frame : List UInt8}

lemma Kept.set (hd : Distinct i → a.used = true → ∀ j ≠ k, (i.addresses j).used = true → (i.addresses j).address ≠ a.address)
    (hs : a.used = true → a.state = .deprecated → (i.addresses k).used = true ∧ (i.addresses k).state = .deprecated) :
    Kept i (i.set k a) where
  distinct hi m n hm hn he := by
    by_cases h1 : m = k <;> by_cases h2 : n = k
    · rw [h1, h2]
    · subst h1
      simp only [EthernetInterface.set, update_self, update_of_ne h2] at hm hn he
      exact absurd he.symm (hd hi hm n h2 hn)
    · subst h2
      simp only [EthernetInterface.set, update_self, update_of_ne h1] at hm hn he
      exact absurd he (hd hi hn m h1 hm)
    · simp only [EthernetInterface.set, update_of_ne h1, update_of_ne h2] at hm hn he
      exact hi m n hm hn he
  deprecated j hu hst := by
    by_cases h : j = k
    · subst h
      simp only [EthernetInterface.set, update_self] at hu hst
      exact hs hu hst
    · simp only [EthernetInterface.set, update_of_ne h] at hu hst
      exact ⟨hu, hst⟩
  now := rfl
  mac := rfl

lemma Kept.change (hu : (i.addresses k).used = true) (ha : a.address = (i.addresses k).address)
    (hs : a.state = .deprecated → (i.addresses k).state = .deprecated) : Kept i (i.set k a) :=
  .set (fun hd _ j hj huj he => hj (hd j k huj hu (he.trans ha))) fun _ h => ⟨hu, hs h⟩

lemma addAddress_kept (address : Ipv6) (prefixLength valid preferred : ℕ) :
    Kept i (i.addAddress address prefixLength valid preferred) := by
  unfold addAddress
  cases h : i.find address with
  | some k => exact .change (find_some h).1 rfl fun hs => hs
  | none =>
  cases hf : (finRange 3).find? fun k => !(i.addresses k).used with
  | none => exact .refl i
  | some k => exact .set (fun _ _ j _ hj => find_none h j hj) fun _ hs => by cases hs

lemma learn_kept (p : PrefixInformation) : Kept i (i.learn p) := by
  unfold learn
  dsimp only
  split
  · exact addAddress_kept _ _ _ _
  · exact .refl i

lemma learned_kept (prefixes : List PrefixInformation) (i : EthernetInterface) : Kept i (prefixes.foldl learn i) := by
  induction prefixes generalizing i with
  | nil => exact .refl i
  | cons p prefixes ih => exact (learn_kept p).trans (ih (i.learn p))

lemma duplicate_kept (hu : (i.addresses k).used = true) : Kept i (i.duplicate k) := .change hu rfl fun hs => by cases hs

lemma receiveNd_kept (ip : Ipv6Packet) (nd : NdMessage) : Kept i (i.receiveNd ip nd).1 := by
  unfold receiveNd
  cases nd.kind with
  | neighborSolicitation =>
    cases h : i.find nd.target with
    | none => exact .refl i
    | some k =>
    dsimp only
    split
    · exact .refl i
    · split
      · exact duplicate_kept (find_some h).1
      · exact .refl i
    · exact .refl i
  | neighborAdvertisement =>
    cases h : i.find nd.target with
    | none => exact .refl i
    | some k =>
    dsimp only
    split
    · exact duplicate_kept (find_some h).1
    · exact .refl i
  | routerAdvertisement => exact learned_kept nd.prefixes i
  | routerSolicitation => exact .refl i

lemma receiveNd_advertised {ip : Ipv6Packet} {nd : NdMessage} {a : Advertised} (h : (i.receiveNd ip nd).2 = some a) :
    ∃ k, i.find a.target = some k ∧ (i.addresses k).settled = true := by
  unfold receiveNd at h
  cases hk : nd.kind with
  | neighborSolicitation =>
    cases hf : i.find nd.target with
    | none => simp [hk, hf] at h
    | some k =>
    cases hs : (i.addresses k).state with
    | duplicated => simp [hk, hf, hs] at h
    | tentative =>
      simp only [hk, hf, hs] at h
      split at h <;> cases h
    | preferred =>
      simp only [hk, hf, hs] at h
      cases h
      exact ⟨k, hf, by simp [Address.settled, hs]⟩
    | deprecated =>
    simp only [hk, hf, hs] at h
    cases h
    exact ⟨k, hf, by simp [Address.settled, hs]⟩
  | neighborAdvertisement =>
    cases hf : i.find nd.target with
    | none => simp [hk, hf] at h
    | some k =>
      simp only [hk, hf] at h
      split at h <;> cases h
  | routerAdvertisement | routerSolicitation => simp [hk] at h

def controlled (ip : Ipv6Packet) : Bool :=
  ip.protocol == 58 && match icmp ipv6Family ip with
    | .error _ => true
    | .ok m => decide (m.type ≥ 133 ∧ m.type ≤ 136) || m.type == 128 || m.type == 129

/-- The packet that a payload brings past the address filters. -/
def accepted6 (i : EthernetInterface) (payload : List UInt8) : Option Ipv6Packet :=
  if !i.ipv6 then none
  else (Codec.ipv6 payload).toOption.filter fun ip =>
    !(if Net.multicast ip.destination then !i.joined ip.destination else (i.find ip.destination).isNone) &&
      !(i.find ip.source).any fun k => (i.addresses k).state != .tentative

/-- The IPv6 packet of a frame that the link filter and the address filters let through. -/
def accepted (i : EthernetInterface) (frame : List UInt8) : Option Ipv6Packet :=
  match ethernet frame with
  | .error _ => none
  | .ok eth =>
    if eth.source.multicast || eth.source == i.mac || (eth.destination ≠ i.mac && !i.acceptGroup eth.destination) ||
      eth.type ≠ 0x86dd then none
    else i.accepted6 eth.payload

def discovery (ip : Ipv6Packet) : Option NdMessage :=
  if ip.protocol = 58 then (icmp ipv6Family ip).toOption.bind fun m => (neighborDiscovery ip m).toOption else none

def destination (r : Received) : Ipv6 := fun k => byte r.packet (24 + k)

inductive Reception (i : EthernetInterface) (packet : Option Ipv6Packet) : EthernetInterface × Outcome → Prop
  | silent {r : Received} (h : r.family ≠ .ipv6) : Reception i packet (i, { received := r })
  | nd (ip : Ipv6Packet) (nd : NdMessage) (hp : packet = some ip) (hn : discovery ip = some nd) :
    Reception i packet ((i.receiveNd ip nd).1, { received := consumed, advertised := (i.receiveNd ip nd).2 })
  | deliver (ip : Ipv6Packet) (r : Received) (hp : packet = some ip) (hc : controlled ip = false)
    (hu : unspecified ip.source = false) (hr : destination r = ip.destination)
    (ht : ((i.find ip.destination).any fun k => (i.addresses k).state == .tentative) = false) :
    Reception i packet (i, { received := r })

lemma destination_take {payload : List UInt8} {ip : Ipv6Packet} (h : Codec.ipv6 payload = .ok ip) :
    (fun k : Fin 16 => byte (payload.take (40 + be16 payload 4)) (24 + k)) = ip.destination := by
  have hd : ip.destination = fun k : Fin 16 => byte payload (24 + k) := by
    unfold Codec.ipv6 at h
    dsimp only at h
    split_ifs at h
    split at h
    · cases h
    · cases h
      rfl
  rw [hd]
  funext k
  simp only [byte, getD_eq_getElem?_getD]
  rw [getElem?_take_of_lt (by omega)]

lemma receiveIpv6_reception (payload : List UInt8) (group : Bool) :
    Reception i (i.accepted6 payload) (i.receiveIpv6 payload group) := by
  unfold receiveIpv6 accepted6
  split
  · exact .silent (by simp [filtered])
  cases hp : Codec.ipv6 payload with
  | error => exact .silent (by simp [dropped])
  | ok ip =>
  simp only [Except.toOption, Option.filter_some]
  generalize (if Net.multicast ip.destination = true then !i.joined ip.destination
    else (i.find ip.destination).isNone) = refused
  cases refused with
  | true => exact .silent (by simp [filtered])
  | false =>
  generalize ((i.find ip.source).any fun k => (i.addresses k).state != .tentative) = loops
  cases loops with
  | true => exact .silent (by simp [dropped])
  | false =>
  simp only [Bool.not_false, Bool.and_self, if_true, Bool.false_eq_true, if_false]
  have hdeliver : controlled ip = false → Reception i (some ip)
      (if unspecified ip.source || (i.find ip.destination).any fun k => (i.addresses k).state == .tentative then
        (i, { received := dropped })
      else (i, { received := ⟨.ipv6, ip.protocol, payload.take (40 + be16 payload 4),
        Net.multicast ip.destination || group⟩ })) := by
    intro hc
    split
    · exact .silent (by simp [dropped])
    rename_i h
    rw [Bool.or_eq_true, not_or] at h
    exact .deliver ip _ rfl hc (Bool.eq_false_of_not_eq_true h.1) (destination_take hp) (Bool.eq_false_of_not_eq_true h.2)
  split
  · rename_i h58
    cases hm : icmp ipv6Family ip with
    | error => exact .silent (by simp [dropped])
    | ok m =>
    dsimp only
    split
    · cases hn : neighborDiscovery ip m with
      | error => exact .silent (by simp [dropped])
      | ok nd => exact .nd ip nd rfl (by simp [discovery, h58, hm, hn, Except.toOption])
    rename_i hnd
    split
    · exact .silent (by simp [filtered])
    split
    · exact .silent (by split <;> simp [filtered, consumed])
    rename_i h128
    split
    · exact .silent (by simp [consumed])
    rename_i h129
    exact hdeliver (by simp [controlled, hm, hnd, h128, h129])
  · rename_i h58
    exact hdeliver (by simp [controlled, h58])

lemma advance_addresses (now : ℕ) : (i.advance now).addresses = i.addresses := by
  unfold advance
  split <;> rfl

lemma le_advance (now : ℕ) : i.now ≤ (i.advance now).now := by
  unfold advance
  split
  · exact Nat.le_of_lt ‹_›
  · exact le_rfl

lemma find_advance (now : ℕ) (address : Ipv6) : (i.advance now).find address = i.find address := by
  unfold find
  rw [advance_addresses]

lemma accepted_advance (now : ℕ) (frame : List UInt8) : (i.advance now).accepted frame = i.accepted frame := by
  unfold advance
  split <;> rfl

lemma receive_reception (frame : List UInt8) (now : ℕ) : Reception (i.advance now) (i.accepted frame) (i.receive frame now) := by
  rw [← accepted_advance now]
  unfold receive accepted
  generalize i.advance now = i
  cases he : ethernet frame with
  | error => exact .silent (by simp [dropped])
  | ok eth =>
  dsimp only
  by_cases h1 : (eth.source.multicast || eth.source == i.mac) = true
  · simp only [h1, if_true]
    exact .silent (by simp [dropped])
  by_cases h2 : (decide (eth.destination ≠ i.mac) && !i.acceptGroup eth.destination) = true
  · simp only [h1, h2, if_true]
    exact .silent (by simp [filtered])
  rw [Bool.eq_false_of_not_eq_true h1, Bool.eq_false_of_not_eq_true h2, Bool.or_self, Bool.false_or]
  simp only [Bool.false_eq_true, if_false, ne_eq, decide_not, Bool.not_eq_true', decide_eq_false_iff_not, ite_not]
  by_cases h6 : eth.type = 0x86dd
  · simp only [h6, if_true]
    exact receiveIpv6_reception eth.payload _
  simp only [h6, if_false]
  split
  · exact .silent (by simp [consumed])
  split
  · exact .silent (Ipv4Side.not_ipv6 _ _ _)
  · exact .silent (by simp [filtered])

lemma receive_kept (frame : List UInt8) (now : ℕ) : Kept (i.advance now) (i.receive frame now).1 := by
  have hr := receive_reception (i := i) frame now
  generalize i.receive frame now = result at hr
  cases hr with
  | silent | deliver => exact .refl _
  | nd ip nd => exact receiveNd_kept ip nd

/-- The prefix option is for the address. -/
def renews (mac : Mac) (address : Ipv6) (p : PrefixInformation) : Bool :=
  p.autonomous && p.length == 64 && p.validLifetime != 0 &&
    decide (withInterfaceId (maskPrefix p.prefixAddress 64) mac = address)

def preferredUntil (now : ℕ) (p : PrefixInformation) : ℕ :=
  if p.preferredLifetime = 2 ^ 32 - 1 then never else deadline now (p.preferredLifetime * 1000)

def advertisedPrefixes (i : EthernetInterface) (frame : List UInt8) : List PrefixInformation :=
  match (i.accepted frame).bind discovery with
  | none => []
  | some nd => if nd.kind = .routerAdvertisement then nd.prefixes else []

/-- The calls under which the addresses live as they should: the last prefix option of a frame for a deprecated address does
not prefer it beyond the clock, and no accepted packet brings transport data for a duplicated address. -/
def admissible (i : EthernetInterface) : Call → Bool
  | .receive frame now =>
    ((List.finRange 3).all fun k => !((i.addresses k).used && (i.addresses k).state == .deprecated) ||
      ((i.advertisedPrefixes frame).filter (renews i.mac (i.addresses k).address)).getLast?.all fun p =>
        decide (preferredUntil (i.advance now).now p ≤ (i.advance now).now)) &&
    !(i.accepted frame).any fun ip => !controlled ip && !unspecified ip.source &&
      (i.find ip.destination).any fun k => (i.addresses k).state == .duplicated
  | .tick _ => true
  | .output _ _ => true

lemma learn_address (hd : Distinct i) (hu : (i.addresses k).used = true) (p : PrefixInformation) :
    ((i.learn p).addresses k).used = true ∧ ((i.learn p).addresses k).address = (i.addresses k).address ∧
      ((i.learn p).addresses k).preferredUntil =
        if renews i.mac (i.addresses k).address p then preferredUntil i.now p else (i.addresses k).preferredUntil := by
  unfold learn
  dsimp only
  by_cases hp : (p.autonomous && p.length == 64 && p.validLifetime != 0) = true
  · have hrenews : renews i.mac (i.addresses k).address p =
        decide (withInterfaceId (maskPrefix p.prefixAddress 64) i.mac = (i.addresses k).address) := by
      rw [renews, hp, Bool.true_and]
    rw [if_pos hp, hrenews, addAddress]
    by_cases ha : withInterfaceId (maskPrefix p.prefixAddress 64) i.mac = (i.addresses k).address
    · rw [ha, hd.find hu rfl]
      simp [EthernetInterface.set, hu, preferredUntil]
    simp only [ha, decide_false, Bool.false_eq_true, if_false]
    cases hf : i.find (withInterfaceId (maskPrefix p.prefixAddress 64) i.mac) with
    | some j =>
      have hne : k ≠ j := fun h => ha (h ▸ (find_some hf).2.symm)
      simp [EthernetInterface.set, hne, hu]
    | none =>
    cases hfree : (finRange 3).find? fun k => !(i.addresses k).used with
    | none => exact ⟨hu, rfl, rfl⟩
    | some j =>
      have hne : k ≠ j := by
        rintro rfl
        have := find?_some hfree
        simp [hu] at this
      simp [EthernetInterface.set, hne, hu]
  · rw [if_neg hp, renews, Bool.eq_false_of_not_eq_true hp]
    exact ⟨hu, rfl, rfl⟩

/-- Of the options for an address the last one counts. -/
lemma learned_address (hd : Distinct i) (hu : (i.addresses k).used = true) (prefixes : List PrefixInformation) :
    ((prefixes.foldl learn i).addresses k).used = true ∧
      ((prefixes.foldl learn i).addresses k).address = (i.addresses k).address ∧
      ((prefixes.foldl learn i).addresses k).preferredUntil =
        ((prefixes.filter (renews i.mac (i.addresses k).address)).getLast?.map (preferredUntil i.now)).getD
          (i.addresses k).preferredUntil := by
  induction prefixes using reverseRecOn with
  | nil => exact ⟨hu, rfl, rfl⟩
  | append_singleton prefixes p ih =>
  have hkept := learned_kept prefixes i
  obtain ⟨hu', ha, hp⟩ := ih
  obtain ⟨h1, h2, h3⟩ := learn_address (hkept.distinct hd) hu' p
  rw [hkept.mac, hkept.now, ha, hp] at h3
  rw [foldl_append, foldl_cons, foldl_nil, filter_append]
  refine ⟨h1, h2.trans ha, h3.trans ?_⟩
  cases h : renews i.mac (i.addresses k).address p <;> simp [h]

lemma receiveNd_preferred {ip : Ipv6Packet} {nd : NdMessage} (h : nd.kind ≠ .routerAdvertisement) (k : Fin 3) :
    ((i.receiveNd ip nd).1.addresses k).preferredUntil = (i.addresses k).preferredUntil := by
  have hdup (j : Fin 3) : ((i.duplicate j).addresses k).preferredUntil = (i.addresses k).preferredUntil := by
    by_cases hj : k = j
    · subst hj
      simp [duplicate, EthernetInterface.set]
    · simp [duplicate, EthernetInterface.set, hj]
  unfold receiveNd
  cases hk : nd.kind with
  | routerAdvertisement => exact absurd hk h
  | routerSolicitation => rfl
  | neighborSolicitation =>
    cases i.find nd.target with
    | none => rfl
    | some j =>
    dsimp only
    split
    · rfl
    · split
      · exact hdup j
      · rfl
    · rfl
  | neighborAdvertisement =>
  cases i.find nd.target with
  | none => rfl
  | some j =>
  dsimp only
  split
  · exact hdup j
  · rfl

lemma Distinct.of_addresses (hd : Distinct i) (h : i'.addresses = i.addresses) : Distinct i' := by
  unfold Distinct
  rw [h]
  exact hd

lemma receive_aged (hd : Distinct i) (haged : Aged i) (ha : i.admissible (.receive frame now) = true) :
    Aged (i.receive frame now).1 := by
  intro k hu hs
  have hk := receive_kept (i := i) frame now
  obtain ⟨hu', hs'⟩ := hk.deprecated k hu hs
  have hold : ((i.advance now).addresses k).preferredUntil ≤ (i.advance now).now := by
    rw [advance_addresses] at hu' hs' ⊢
    exact (haged k hu' hs').trans (le_advance now)
  rw [hk.now]
  have hr := receive_reception (i := i) frame now
  rw [admissible, Bool.and_eq_true, all_eq_true] at ha
  have hlast := ha.1 k (mem_finRange k)
  rw [advance_addresses] at hs'
  have hused := hu'
  rw [advance_addresses] at hused
  generalize i.receive frame now = result at hr hu hs
  cases hr with
  | silent | deliver => exact hold
  | nd ip nd hp hn =>
  by_cases hkind : nd.kind = .routerAdvertisement
  · have hlearned := (learned_address (hd.of_addresses (advance_addresses now)) hu' nd.prefixes).2.2
    have hmac : (i.advance now).mac = i.mac := by
      unfold advance
      split <;> rfl
    simp only [hused, hs', advertisedPrefixes, hp, Option.bind_some, hn, hkind, if_true, Bool.true_and, beq_self_eq_true,
      Bool.not_true, Bool.false_or] at hlast
    rw [receiveNd, hkind]
    dsimp only
    rw [hlearned, hmac, advance_addresses]
    rw [advance_addresses] at hold
    cases hl : (nd.prefixes.filter (renews i.mac (i.addresses k).address)).getLast? with
    | none => exact hold
    | some p =>
      rw [hl] at hlast
      simpa using hlast
  · exact (receiveNd_preferred hkind k).trans_le hold

inductive Reached : EthernetInterface → Prop
  | configured (mac : Mac) (ipv6 : Bool) (ipv4 : Ipv4Side) (now : ℕ) : Reached (configure mac ipv6 ipv4 now)
  | step {i : EthernetInterface} (h : Reached i) (call : Call) (ha : i.admissible call = true) : Reached (i.step call).1

lemma tickAddress_used (h : (tickAddress now a).used = true) :
    a.used = true ∧ now < a.validUntil ∧ (tickAddress now a).address = a.address ∧
      (tickAddress now a).validUntil = a.validUntil ∧ (tickAddress now a).preferredUntil = a.preferredUntil := by
  unfold tickAddress at h ⊢
  cases hu : a.used with
  | false => simp [hu] at h
  | true =>
  by_cases hv : now ≥ a.validUntil
  · simp [hu, hv] at h
  simp only [hv, Bool.not_true, Bool.false_eq_true, if_false]
  refine ⟨trivial, Nat.lt_of_not_le hv, ?_⟩
  split_ifs <;> exact ⟨rfl, rfl, rfl⟩

lemma tickAddress_state (ha : a.state = .deprecated → a.preferredUntil ≤ now)
    (h : (tickAddress now a).used = true) (hs : (tickAddress now a).settled = true) :
    (tickAddress now a).state = if (tickAddress now a).preferredUntil ≤ now then .deprecated else .preferred := by
  obtain ⟨hu, hv, _, _, hp⟩ := tickAddress_used h
  unfold tickAddress at hs ⊢
  simp only [hu, Nat.not_le.mpr hv, Bool.not_true, Bool.false_eq_true, ge_iff_le, if_false] at hs ⊢
  cases hstate : a.state with
  | deprecated => simp [hstate, ha hstate]
  | duplicated => simp [hstate, Address.settled] at hs
  | preferred => by_cases hp : a.preferredUntil ≤ now <;> simp [hstate, hp]
  | tentative =>
  by_cases hd : now < a.dadDeadline
  · simp [hstate, hd, Address.settled] at hs
  by_cases hsent : a.dadSent = 0
  · simp [hstate, hd, hsent, Address.settled] at hs
  · simp [hstate, hd, hsent]

lemma tick_state (ha : Aged i) (hu : ((i.tick now).addresses k).used = true)
    (hs : ((i.tick now).addresses k).settled = true) : ((i.tick now).addresses k).state =
      if ((i.tick now).addresses k).preferredUntil ≤ (i.tick now).now then .deprecated else .preferred := by
  refine tickAddress_state (fun hd => ?_) hu hs
  have hbefore := advance_addresses (i := i) now ▸ (tickAddress_used hu).1
  rw [advance_addresses] at hd ⊢
  exact (ha k hbefore hd).trans (le_advance now)

lemma tick_distinct (hd : Distinct i) (now : ℕ) : Distinct (i.tick now) := by
  intro j k hj hk he
  obtain ⟨huj, _, haj, _⟩ := tickAddress_used hj
  obtain ⟨huk, _, hak, _⟩ := tickAddress_used hk
  have hd := hd.of_addresses (advance_addresses now)
  exact hd j k huj huk (haj.symm.trans (he.trans hak))

lemma Reached.inv (h : Reached i) : Distinct i ∧ Aged i := by
  induction h with
  | configured mac ipv6 ipv4 now =>
    have hk : Kept { mac, ipv6, ipv4, now } (configure mac ipv6 ipv4 now) := by
      unfold configure
      split
      · exact addAddress_kept _ _ _ _
      · exact .refl _
    refine ⟨hk.distinct (fun j k hj => by cases hj), fun k hu hs => ?_⟩
    cases (hk.deprecated k hu hs).1
  | @step i _ call ha ih =>
  obtain ⟨hd, haged⟩ := ih
  cases call with
  | receive frame now =>
    have hk := receive_kept (i := i) frame now
    exact ⟨hk.distinct (hd.of_addresses (advance_addresses now)), receive_aged hd haged ha⟩
  | tick now =>
    refine ⟨tick_distinct hd now, fun k hu hs => ?_⟩
    have hstate := tick_state haged hu (by simp [Address.settled, show ((i.tick now).addresses k).state = _ from hs])
    by_contra hp
    rw [if_neg (show ¬((i.tick now).addresses k).preferredUntil ≤ (i.tick now).now from hp)] at hstate
    cases hstate.symm.trans hs
  | output frame length => exact ⟨hd, haged⟩

lemma better_some {link : Bool} {b : Option (Fin 3)} {m : Fin 3} (h : i.better link b m = some k) :
    b = some k ∨ (i.addresses k).used = true ∧ (i.addresses k).settled = true := by
  unfold better at h
  split at h
  · exact .inl h
  rename_i hm
  simp only [Bool.or_eq_true, Bool.not_eq_true', not_or, Bool.not_eq_false] at hm
  split at h
  · cases h
    exact .inr hm.1
  split at h
  · cases h
    exact .inr hm.1
  · exact .inl h

lemma best_some {link : Bool} (h : i.best link = some k) : (i.addresses k).used = true ∧ (i.addresses k).settled = true := by
  have hfold : ∀ (l : List (Fin 3)) (b : Option (Fin 3)), l.foldl (i.better link) b = some k →
      b = some k ∨ (i.addresses k).used = true ∧ (i.addresses k).settled = true := by
    intro l
    induction l with
    | nil => exact fun b hb => .inl hb
    | cons m l ih => exact fun b hb => (ih _ hb).elim better_some .inr
  exact (hfold _ none h).resolve_left (by simp)

lemma source_some {destination : Ipv6} (h : i.source destination = .ok address) :
    ∃ k, (i.addresses k).used = true ∧ (i.addresses k).settled = true ∧ (i.addresses k).address = address := by
  unfold source at h
  dsimp only at h
  split at h
  · rename_i k hb
    cases h
    exact ⟨k, (best_some hb).1, (best_some hb).2, rfl⟩
  split at h
  · rename_i k hb
    cases h
    split at hb
    · cases hb
    · exact ⟨k, (best_some hb).1, (best_some hb).2, rfl⟩
  · cases h

structure Lives (i : EthernetInterface) (call : Call) : Prop where
  preferred : ∀ now, call = .tick now → ∀ k, ((i.tick now).addresses k).used = true →
    ((i.tick now).addresses k).settled = true → ((i.tick now).addresses k).state =
      if ((i.tick now).addresses k).preferredUntil ≤ (i.tick now).now then .deprecated else .preferred
  valid : ∀ now, call = .tick now → ∀ k, ((i.tick now).addresses k).used = true →
    (i.tick now).now < ((i.tick now).addresses k).validUntil
  source : ∀ k, (i.addresses k).used = true → (i.addresses k).settled = false → ∀ d, i.source d ≠ .ok (i.addresses k).address
  not_local : ∀ k, (i.addresses k).used = true → (i.addresses k).settled = false → i.local_ (i.addresses k).address = false
  advertised : ∀ a, (i.step call).2.advertised = some a → ∀ k, (i.addresses k).used = true →
    (i.addresses k).address = a.target → (i.addresses k).settled = true
  delivered : (i.step call).2.received.family = .ipv6 → ∀ k, (i.addresses k).used = true →
    (i.addresses k).address = destination (i.step call).2.received → (i.addresses k).settled = true

lemma advertised_settled (hd : Distinct i) {a : Advertised}
    (h : (i.receive frame now).2.advertised = some a) (hu : (i.addresses k).used = true)
    (hk : (i.addresses k).address = a.target) : (i.addresses k).settled = true := by
  have hr := receive_reception (i := i) frame now
  generalize i.receive frame now = result at hr h
  cases hr with
  | silent | deliver => cases h
  | nd ip nd =>
  obtain ⟨j, hj, hs⟩ := receiveNd_advertised h
  rw [find_advance, hd.find hu hk] at hj
  cases hj
  rwa [advance_addresses] at hs

lemma delivered_settled (hd : Distinct i) (ha : i.admissible (.receive frame now) = true)
    (h : (i.receive frame now).2.received.family = .ipv6) (hu : (i.addresses k).used = true)
    (hk : (i.addresses k).address = destination (i.receive frame now).2.received) : (i.addresses k).settled = true := by
  rw [admissible, Bool.and_eq_true, Bool.not_eq_true'] at ha
  have hr := receive_reception (i := i) frame now
  generalize i.receive frame now = result at hr h hk
  cases hr with
  | silent hr => exact absurd h hr
  | nd ip nd => cases h
  | deliver ip r hp hc hsource hdest ht =>
  have hfind := hd.find hu (hk.trans hdest)
  rw [find_advance, hfind, advance_addresses] at ht
  have hdup := ha.2
  rw [hp] at hdup
  simp only [Option.any_some, hc, hsource, hfind, Bool.not_false, Bool.true_and] at ht hdup
  simp [Address.settled, bne, ht, hdup]

theorem addresses_live {call : Call} (h : Reached i) (ha : i.admissible call = true) : Lives i call := by
  obtain ⟨hd, haged⟩ := h.inv
  refine ⟨?_, ?_, ?_, ?_, ?_, ?_⟩
  · rintro now rfl k hu hs
    exact tick_state haged hu hs
  · rintro now rfl k hu
    obtain ⟨_, hv, _, hvalid, _⟩ := tickAddress_used hu
    exact hvalid ▸ hv
  · intro k hu hs d hd'
    obtain ⟨j, huj, hsj, haj⟩ := source_some hd'
    rw [hd j k huj hu haj, hs] at hsj
    cases hsj
  · intro k hu hs
    rw [local_, hd.find hu rfl, Option.any_some, hs]
  · intro a hadv k hu hk
    cases call with
    | receive frame now => exact advertised_settled hd hadv hu hk
    | tick | output => cases hadv
  intro hfam k hu hk
  cases call with
  | receive frame now => exact delivered_settled hd ha hfam hu hk
  | tick | output => cases hfam

def routerFrame (mac : List UInt8) (length protocol hopLimit : UInt8) (destination message : List UInt8) : List UInt8 :=
  mac ++ [2, 0, 0, 0, 0, 1, 0x86, 0xdd, 0x60, 0, 0, 0, 0, length, protocol, hopLimit, 0xfe, 0x80] ++ List.replicate 13 0 ++ [1] ++
    destination ++ message

def allNodesFrame (length : UInt8) (message : List UInt8) : List UInt8 :=
  routerFrame [0x33, 0x33, 0, 0, 0, 1] length 58 255 ([0xff, 2] ++ List.replicate 13 0 ++ [1]) message

def routerAdvertisement (preferred : UInt8) (value : List UInt8) : List UInt8 :=
  allNodesFrame 48 ([134, 0] ++ value ++ [64, 0, 0, 0] ++ List.replicate 8 0 ++
    [3, 4, 64, 0xc0, 0, 0, 0, 100, 0, 0, 0, preferred, 0, 0, 0, 0, 0x20, 1, 0x0d, 0xb8] ++ List.replicate 12 0)

def hostMac : Mac := #v[2, 0, 0, 0, 0, 2]

def hostAddress : List UInt8 := [0xfe, 0x80, 0, 0, 0, 0, 0, 0, 0, 0, 0, 0xff, 0xfe, 0, 0, 2]

def run (calls : List Call) : EthernetInterface :=
  calls.foldl (fun i call => (i.step call).1) (configure hostMac true ⟨fun _ _ => {}, fun _ _ => by simp⟩ 0)

theorem addresses_live_advertised :
    Lives (run [.receive (routerAdvertisement 10 [202, 35]) 0, .tick 0, .tick 1000]) (.tick 10000) :=
  addresses_live (.step (.step (.step (.configured hostMac true _ 0) (.receive _ 0) (by decide +kernel)) (.tick 0) rfl)
    (.tick 1000) rfl) rfl

def renewed : EthernetInterface :=
  run [.receive (routerAdvertisement 10 [202, 35]) 0, .tick 0, .tick 1000, .tick 10000,
    .receive (routerAdvertisement 50 [201, 251]) 10000]

def contested : EthernetInterface := run [.receive (allNodesFrame 24 ([136, 0, 92, 164, 0x20, 0, 0, 0] ++ hostAddress)) 0]

def datagram : List UInt8 :=
  routerFrame [2, 0, 0, 0, 0, 2] 8 17 64 hostAddress [0, 7, 0, 7, 0, 8, 3, 204]

lemma renewed_deprecated : ((renewed.tick 10001).addresses 1).used = true ∧
    ((renewed.tick 10001).addresses 1).state = .deprecated ∧
    (renewed.tick 10001).now < ((renewed.tick 10001).addresses 1).preferredUntil := by
  decide +kernel

lemma contested_delivered : (contested.addresses 0).used = true ∧ (contested.addresses 0).state = .duplicated ∧
    (contested.receive datagram 1).2.received.family = .ipv6 ∧
    (contested.addresses 0).address = destination (contested.receive datagram 1).2.received := by
  decide +kernel

/-- The renewed address stays deprecated over the next tick, and the duplicated address receives a UDP datagram. -/
theorem addresses_do_not_live : ¬Lives renewed (.tick 10001) ∧ ¬Lives contested (.receive datagram 1) := by
  constructor
  · intro h
    obtain ⟨hu, hs, hp⟩ := renewed_deprecated
    have := h.preferred 10001 rfl 1 hu (by simp [Address.settled, hs])
    rw [if_neg (Nat.not_le.mpr hp), hs] at this
    cases this
  intro h
  obtain ⟨hu, hs, hf, ha⟩ := contested_delivered
  have := h.delivered hf 0 hu ha
  simp [Address.settled, hs] at this

end ObfuscationKernel.Net.EthernetInterface
