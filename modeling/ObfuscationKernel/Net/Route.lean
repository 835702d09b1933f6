import ObfuscationKernel.Core.Status
import ObfuscationKernel.Library.Slots
import ObfuscationKernel.Net.Address

/-! The route table: lookup takes the longest prefix, then the lowest metric, then the oldest route. -/

namespace ObfuscationKernel.Net.Routes

open ObfuscationKernel.Core Library Function List

abbrev Address (f : Family) := Fin f.size → UInt8

inductive RouteOrigin
  | connected | configured | routerAdvertisement

structure Route (f : Family) where
  routePrefix : Address f
  length : UInt8
  gateway : Option (Address f) := none
  interface : UInt16 := 0
  metric : UInt32 := 0
  origin : RouteOrigin := .configured
  expires : ℕ := 2 ^ 64 - 1

structure RouteLookup (f : Family) where
  interface : UInt16
  nextHop : Address f
  gateway : Bool
  length : UInt8
  metric : UInt32
  deriving DecidableEq

/-- `stamp` counts the routes installed so far; the source keeps it modulo `2 ^ 64`. -/
structure Slot (f : Family) where
  stamp : ℕ
  route : Route f

structure RouteTable (f : Family) (capacity : ℕ) where
  slots : Fin capacity → Option (Slot f) := fun _ => none
  installs : ℕ := 0

abbrev Key (f : Family) := Address f × UInt8 × Option (Address f) × UInt16

variable {f : Family} {capacity : ℕ}

def prefixMatch (a b : Address f) (length : UInt8) : Bool :=
  let bytes := length.toNat / 8
  let bits := length.toNat % 8
  decide (∀ i : Fin f.size, i.val < bytes → a i = b i) &&
    (bits == 0 || decide (∀ i : Fin f.size, i.val = bytes → a i &&& mask bits = b i &&& mask bits))

def multicast : {f : Family} → Address f → Bool
  | .ipv4, a => decide (224 ≤ a (0 : Fin 4)) && decide (a (0 : Fin 4) < 240)
  | .ipv6, a => Net.multicast a

namespace Route

def key (r : Route f) : Key f := (r.routePrefix, r.length, r.gateway, r.interface)

def answer (r : Route f) (destination : Address f) : RouteLookup f :=
  ⟨r.interface, r.gateway.getD destination, r.gateway.isSome, r.length, r.metric⟩

def usable (r : Route f) (destination : Address f) (now : ℕ) : Bool :=
  decide (now < r.expires) && prefixMatch r.routePrefix destination r.length

end Route

def Slot.better (s best : Slot f) : Bool :=
  decide (s.route.length > best.route.length) || (s.route.length == best.route.length &&
    (decide (s.route.metric < best.route.metric) || (s.route.metric == best.route.metric &&
      decide (s.stamp % 2 ^ 64 < best.stamp % 2 ^ 64))))

namespace RouteTable

variable (t : RouteTable f capacity)

def exact (key : Key f) : Option (Fin capacity) :=
  (List.finRange capacity).find? fun i => (t.slots i).any fun s => s.route.key == key

def unused : Option (Fin capacity) := (List.finRange capacity).find? fun i => (t.slots i).isNone

def add (route : Route f) : Result Unit × RouteTable f capacity :=
  if route.length.toNat > f.size * 8 then
    (.error (.invalidArgument "route prefix length exceeds the address width"), t)
  else if route.gateway.any fun g => multicast g || unspecified g then
    (.error (.invalidArgument "route gateway is not a unicast address"), t)
  else
    let route := { route with routePrefix := maskPrefix route.routePrefix route.length.toNat }
    match t.exact route.key with
    | some i => (.ok (), { t with slots := update t.slots i ((t.slots i).map fun s => { s with route := route }) })
    | none =>
      match t.unused with
      | some i => (.ok (), ⟨update t.slots i (some ⟨t.installs + 1, route⟩), t.installs + 1⟩)
      | none => (.error (.noMemory "route table is full"), t)

def remove (key : Key f) : Result Unit × RouteTable f capacity :=
  match t.exact (maskPrefix key.1 key.2.1.toNat, key.2) with
  | some i => (.ok (), { t with slots := update t.slots i none })
  | none => (.error (.notFound "route is unknown"), t)

def removeIf (found : Route f → Bool) : ℕ × RouteTable f capacity :=
  (Slots.count (fun s => s.any fun s => found s.route) t.slots,
    { t with slots := fun i => (t.slots i).filter fun s => !found s.route })

def expire (now : ℕ) : ℕ × RouteTable f capacity := t.removeIf fun r => decide (now ≥ r.expires)

def used : List (Slot f) := (List.finRange capacity).filterMap t.slots

def lookup (destination : Address f) (now : ℕ) : Result (RouteLookup f) :=
  match t.used.foldl (fun best s =>
      if s.route.usable destination now && best.all (fun b => s.better b) then some s else best) none with
  | some s => .ok (s.route.answer destination)
  | none => .error (.notFound "no route to destination")

end RouteTable

inductive Op (f : Family)
  | add (route : Route f)
  | remove (key : Key f)
  | removeIf (found : Route f → Bool)
  | expire (now : ℕ)

def Op.step (t : RouteTable f capacity) : Op f → RouteTable f capacity
  | add route => (t.add route).2
  | remove key => (t.remove key).2
  | removeIf found => (t.removeIf found).2
  | expire now => (t.expire now).2

def Op.runs (capacity : ℕ) (ops : List (Op f)) : RouteTable f capacity := ops.foldl Op.step {}

section Bits

variable {a b : Address f} {n : ℕ} {length : UInt8}

end Bits

/-- The route has not expired, and the first bits of the destination are its prefix. -/
def Route.Reaches (r : Route f) (destination : Address f) (now : ℕ) : Prop :=
  now < r.expires ∧ ∀ i : Fin f.size, ∀ j < 8, i.val * 8 + j < r.length.toNat →
    (r.routePrefix i).toBitVec.getMsbD j = (destination i).toBitVec.getMsbD j

def Slot.rank (s : Slot f) : ℕ :=
  ((255 - s.route.length.toNat) * 2 ^ 32 + s.route.metric.toNat) * 2 ^ 64 + s.stamp % 2 ^ 64

namespace RouteTable

variable {t : RouteTable f capacity} {i j : Fin capacity} {s : Slot f} {key : Key f}

structure Inv (t : RouteTable f capacity) : Prop where
  bounded : ∀ i s, t.slots i = some s → s.stamp ≤ t.installs
  apart : ∀ i j s s', t.slots i = some s → t.slots j = some s' → s.stamp = s'.stamp ∨ s.route.key = s'.route.key → i = j

lemma Inv.keep {slots : Fin capacity → Option (Slot f)} (h : t.Inv) (hs : ∀ i s', slots i = some s' → ∃ s, t.slots i = some s ∧
    s'.stamp = s.stamp ∧ s'.route.key = s.route.key) : ({ t with slots := slots } : RouteTable f capacity).Inv where
  bounded i s' hi := by
    obtain ⟨s, hi, he, -⟩ := hs i s' hi
    exact he.trans_le (h.bounded i s hi)
  apart i j s' s'' hi hj he := by
    obtain ⟨s, hi, h1, h2⟩ := hs i s' hi
    obtain ⟨r, hj, h3, h4⟩ := hs j s'' hj
    rw [h1, h2, h3, h4] at he
    exact h.apart i j s r hi hj he

lemma Inv.replace {value : Option (Slot f)} (h : t.Inv) (hv : ∀ s', value = some s' → ∃ s, t.slots i = some s ∧
    s'.stamp = s.stamp ∧ s'.route.key = s.route.key) :
    ({ t with slots := update t.slots i value } : RouteTable f capacity).Inv := by
  refine h.keep fun j s' hs => ?_
  by_cases hj : j = i
  · rw [hj, update_self] at hs
    exact hj ▸ hv s' hs
  · rw [update_of_ne hj] at hs
    exact ⟨s', hs, rfl, rfl⟩

lemma Inv.install {route : Route f} (h : t.Inv) (hi : t.slots i = none)
    (hk : ∀ j s, t.slots j = some s → s.route.key ≠ route.key) :
    (⟨update t.slots i (some ⟨t.installs + 1, route⟩), t.installs + 1⟩ : RouteTable f capacity).Inv := by
  have hcases {j : Fin capacity} {s : Slot f} (hj : update t.slots i (some ⟨t.installs + 1, route⟩) j = some s) :
      j = i ∧ s = ⟨t.installs + 1, route⟩ ∨ t.slots j = some s ∧ s.stamp ≤ t.installs ∧ s.route.key ≠ route.key := by
    by_cases hji : j = i
    · rw [hji, update_self] at hj
      exact .inl ⟨hji, (Option.some.inj hj).symm⟩
    · rw [update_of_ne hji] at hj
      exact .inr ⟨hj, h.bounded j s hj, hk j s hj⟩
  refine ⟨fun j s hj => ?_, fun j k s s' hj hk he => ?_⟩
  · rcases hcases hj with ⟨-, rfl⟩ | ⟨-, hle, -⟩
    · exact le_rfl
    · exact hle.trans (Nat.le_succ _)
  rcases hcases hj with ⟨rfl, rfl⟩ | ⟨hj, hle, hne⟩ <;> rcases hcases hk with ⟨rfl, rfl⟩ | ⟨hk, hle', hne'⟩
  · rfl
  · exact absurd he (by simp only [not_or]; exact ⟨by omega, hne'.symm⟩)
  · exact absurd he (by simp only [not_or]; exact ⟨by omega, hne⟩)
  · exact h.apart j k s s' hj hk he

lemma exact_some (h : t.exact key = some i) : ∃ s, t.slots i = some s ∧ s.route.key = key := by
  simpa [Option.any_eq_true] using find?_some h

lemma exact_none (h : t.exact key = none) {j : Fin capacity} {s : Slot f} (hj : t.slots j = some s) : s.route.key ≠ key := by
  have hnot := find?_eq_none.mp h j (mem_finRange j)
  simpa [hj] using hnot

lemma Inv.step (h : t.Inv) (op : Op f) : (op.step t).Inv := by
  have hremove (found : Route f → Bool) : (t.removeIf found).2.Inv :=
    h.keep fun i s hs => ⟨s, (Option.filter_eq_some_iff.mp hs).1, rfl, rfl⟩
  cases op with
  | removeIf found => exact hremove found
  | expire now => exact hremove _
  | remove key =>
    simp only [Op.step, remove]
    split
    · exact h.replace nofun
    · exact h
  | add route =>
  simp only [Op.step, add]
  split_ifs
  · exact h
  · exact h
  split
  · next i hi =>
    obtain ⟨s, hs, hkey⟩ := exact_some hi
    refine h.replace fun s' hs' => ?_
    rw [hs] at hs'
    cases hs'
    exact ⟨s, hs, rfl, hkey.symm⟩
  next hn =>
  split
  · next i hi => exact h.install (by simpa using find?_some hi) fun j s hj => exact_none hn hj
  · exact h

/-- The sweep changes no later answer. -/
theorem lookup_expire (t : RouteTable f capacity) (destination : Address f) (now d : ℕ) :
    (t.expire now).2.lookup destination (now + d) = t.lookup destination (now + d) := by
  have hused : (t.expire now).2.used = t.used.filter fun s => !decide (now ≥ s.route.expires) :=
    (filter_filterMap ..).symm
  rw [lookup, lookup, hused, foldl_filter]
  congr 2
  funext best s
  by_cases he : now ≥ s.route.expires
  · have hlate : ¬ now + d < s.route.expires := by omega
    simp [he, Route.usable, hlate]
  · simp [he]

def lane (interface : UInt16) : Route .ipv4 := { routePrefix := fun _ => 0, length := 0, interface := interface }

def churn : ℕ → List (Op .ipv4)
  | 0 => []
  | n + 1 => churn n ++ [.add (lane 0), .remove (lane 0).key]

end RouteTable

end ObfuscationKernel.Net.Routes
