import ObfuscationKernel.Net.Sender

/-! The receiver against an arbitrary peer: it refines reassembly over unbounded stream
positions, whatever segments arrive. -/

namespace ObfuscationKernel.Net.Tcp

open ObfuscationKernel.Core Library Library.Serial Library.Reassembly Wire List Connection Range Receiver State

variable {n : ℕ}

def Range.ofSpan (b : U32) (s : Span) : Range := ⟨offset b s.start, offset b s.stop, s.fin⟩

structure Represents (b : U32) (a : Assembly UInt8 n) (r : Receiver n) : Prop where
  rx : r.rx = a.cells
  head : r.rxHead % n = a.first % n
  size : r.rxSize = a.next - a.first
  nxt : r.rcvNxt = offset b (a.next + if a.closed then 1 else 0)
  eof : r.eof = a.closed
  ooo : r.ooo = a.spans.map (Range.ofSpan b)

lemma Represents.rcvNxt {b : U32} {a : Assembly UInt8 n} {r : Receiver n} (hr : Represents b a r) (hc : a.closed = false) :
    r.rcvNxt = offset b a.next := by
  simpa [hc] using hr.nxt

def Near (lo : ℕ) (s : Span) : Prop := lo ≤ s.start ∧ s.start ≤ s.stop ∧ s.stop ≤ lo + 65535

section

variable {b : U32} {lo : ℕ} {x r : Span}

lemma apart_ofSpan (hx : Near lo x) (hr : Near lo r) : (ofSpan b x).apart (ofSpan b r) = true ↔ x.Apart r := by
  obtain ⟨hx1, hx2, hx3⟩ := hx
  obtain ⟨hr1, hr2, hr3⟩ := hr
  simp only [ofSpan, apart]
  rw [before_offset _ (by omega) (by omega), before_offset _ (by omega) (by omega)]
  simp [Span.Apart]

lemma merge_ofSpan (hx : Near lo x) (hr : Near lo r) :
    (Range.ofSpan b x).merge (Range.ofSpan b r) = Range.ofSpan b (x.hull r) := by
  obtain ⟨hx1, hx2, hx3⟩ := hx
  obtain ⟨hr1, hr2, hr3⟩ := hr
  have h1 : before (ofSpan b r).start (ofSpan b x).start = decide (r.start < x.start) :=
    before_offset _ (by omega) (by omega)
  have h2 : after (ofSpan b r).stop (ofSpan b x).stop = decide (x.stop < r.stop) :=
    after_offset _ (by omega) (by omega)
  simp only [Range.merge, h1, h2, decide_eq_true_eq]
  rw [Range.ofSpan, Range.mk.injEq]
  refine ⟨?_, ?_, ?_⟩
  · by_cases h : r.start < x.start
    · simp [h, min_eq_right h.le, ofSpan, Span.hull]
    · simp [h, min_eq_left (Nat.le_of_not_lt h), ofSpan, Span.hull]
  · by_cases h : x.stop < r.stop
    · simp [h, max_eq_right h.le, ofSpan, Span.hull]
    · simp [h, max_eq_left (Nat.le_of_not_lt h), ofSpan, Span.hull]
  simp only [Span.hull]
  rcases lt_trichotomy x.stop r.stop with h | h | h
  · simp [h, max_eq_right h.le, offset_beq b h.le (by omega), ofSpan]
  · simp [h, ofSpan]
  · simp [h.le, offset_beq b h.le (by omega), not_lt.mpr h.le, ofSpan]

end

lemma mergeFrom_map (b : U32) (lo k : ℕ) (l : List Span) (x : Span) (hl : ∀ r ∈ l, Near lo r) (hx : Near lo x) :
    mergeFrom k (l.map (ofSpan b)) (ofSpan b x) = ((absorb k l x).1.map (ofSpan b), ofSpan b (absorb k l x).2) := by
  induction k generalizing l x with
  | zero => rfl
  | succ k ih =>
  rw [mergeFrom, absorb, length_map, getElem?_map]
  cases hr : l[l.length - (k + 1)]? with
  | none => rfl
  | some r =>
  have hmem := mem_of_getElem? hr
  have hi := (List.getElem?_eq_some_iff.mp hr).1
  simp only [Option.map_some]
  rw [merge_ofSpan hx (hl r hmem)]
  by_cases h : x.Apart r
  · rw [if_pos ((apart_ofSpan hx (hl r hmem)).mpr h), if_pos h]
    exact ih l x hl hx
  rw [if_neg (mt (apart_ofSpan hx (hl r hmem)).mp h), if_neg h, ← map_swapRemove]
  refine ih _ _ (fun s hs => hl s (mem_of_mem_swapRemove hi hs)) ?_
  have hr' := hl r hmem
  simp only [Near, Span.hull] at hx hr' ⊢
  omega

lemma findIdx?_ofSpan {b : U32} {next : ℕ} {l : List Span} (hl : ∀ s ∈ l, s.start < next + 2 ^ 31)
    (hn : ∀ s ∈ l, next < s.start + 2 ^ 31) :
    (l.map (ofSpan b)).findIdx? (fun range => !after range.start (offset b next)) =
      l.findIdx? fun s => decide (s.start ≤ next) := by
  induction l with
  | nil => rfl
  | cons s l ih =>
  have hs : (!after (ofSpan b s).start (offset b next)) = decide (s.start ≤ next) := by
    rw [ofSpan, after_offset _ (hl s (.head _)) (hn s (.head _)), ← decide_not]
    simp
  rw [map_cons, findIdx?_cons, findIdx?_cons, hs, ih (fun s h => hl s (.tail _ h)) fun s h => hn s (.tail _ h)]

section

variable {b : U32} {a : Assembly UInt8 n} {r : Receiver n} (hn : n ≤ 65535)
include hn

lemma Represents.joinAt {i : ℕ} (final : Bool) (hr : Represents b a r)
    (hs : a.Sane (fun _ _ => True) fun _ => True) (hc : a.closed = false) (hi : i < a.spans.length) :
    Represents b (a.joinAt i (a.spans[i]) final).1 (r.joinAt i (ofSpan b (a.spans[i])) final).1 ∧
      (r.joinAt i (ofSpan b (a.spans[i])) final).2 = (a.joinAt i (a.spans[i]) final).2 := by
  have hfirst := hs.first_le
  have hnext := hs.next_le
  have hg := hs.good _ (getElem_mem hi)
  generalize a.spans[i] = s at hg
  have h1 := hg.stop_le
  have h2 := hg.first_le
  have h3 := hg.le
  have hr1 := hr.rcvNxt hc
  have ha : after (ofSpan b s).stop (offset b a.next) = decide (a.next < s.stop) :=
    after_offset _ (by omega) (by omega)
  have hooo : swapRemove r.ooo i = (swapRemove a.spans i).map (ofSpan b) := by
    rw [hr.ooo, map_swapRemove]
  unfold Receiver.joinAt Assembly.joinAt
  rw [hr1, ha, hooo]
  by_cases hlt : a.next < s.stop
  · have hd : ((ofSpan b s).stop - offset b a.next).toNat = s.stop - a.next :=
      distance b hlt.le (by omega)
    simp only [hlt, decide_true, if_true, hd]
    refine ⟨{ hr with size := ?_, nxt := ?_, ooo := rfl }, rfl⟩
    · rw [hr.size]
      dsimp only
      omega
    · simp [hc, ofSpan]
  have he : ((ofSpan b s).stop == offset b a.next) = (s.stop == a.next) :=
    offset_beq b (by omega) (by omega)
  simp only [hlt, decide_false, Bool.false_eq_true, if_false, he]
  exact ⟨{ hr with nxt := by simp [hc], ooo := rfl }, rfl⟩

lemma Represents.join {k : ℕ} (final : Bool) (hr : Represents b a r)
    (hs : a.Sane (fun _ _ => True) fun _ => True) (hc : a.closed = false) :
    Represents b (Assembly.join k (a, final)).1 (join k (r, final)).1 ∧
      (join k (r, final)).2 = (Assembly.join k (a, final)).2 := by
  induction k generalizing a r final with
  | zero => exact ⟨hr, rfl⟩
  | succ k ih =>
  have hfirst := hs.first_le
  have hnext := hs.next_le
  have hr1 := hr.rcvNxt hc
  have hfind : r.ooo.findIdx? (fun range => !after range.start r.rcvNxt) =
      a.spans.findIdx? fun s => decide (s.start ≤ a.next) := by
    rw [hr.ooo, hr1, findIdx?_ofSpan
      (fun s h => by have := (hs.good s h).stop_le; have := (hs.good s h).le; omega)
      (fun s h => by have := (hs.good s h).first_le; omega)]
  simp only [join, Assembly.join]
  rcases hj : a.joinStep final with _ | p
  · have hnone : r.joinStep final = none := by
      have hidx : (a.spans.findIdx? fun s => decide (s.start ≤ a.next)) = none :=
        findIdx?_eq_none_iff.mpr fun s h => by simpa using Assembly.joinStep_none hj s h
      simp [joinStep, hfind, hidx]
    rw [hnone]
    exact ⟨hr, rfl⟩
  obtain ⟨i, hi, hidx, hst, rfl⟩ := Assembly.joinStep_some hj
  obtain ⟨hrep, hfin⟩ := hr.joinAt hn final hs hc hi
  have hget : r.ooo[i]? = some (ofSpan b (a.spans[i])) := by
    simp [hr.ooo, getElem?_eq_getElem hi]
  have hsome : r.joinStep final = some (r.joinAt i (ofSpan b (a.spans[i])) final) := by
    simp [joinStep, hfind, hidx, hget]
  obtain ⟨hw, _⟩ := Assembly.joinAt_window hi (a.spans[i]) final
  have hs' := (hs.joinAt final (fun _ => trivial) hi hst).1
  have hih := ih (a.joinAt i (a.spans[i]) final).2 hrep hs' (hw.closed.trans hc)
  have hpair : r.joinAt i (ofSpan b (a.spans[i])) final =
      ((r.joinAt i (ofSpan b (a.spans[i])) final).1, (a.joinAt i (a.spans[i]) final).2) :=
    Prod.ext rfl hfin
  rw [hsome, hpair]
  exact hih

lemma Represents.remember (hr : Represents b a r) (hs : a.Sane (fun _ _ => True) fun _ => True) {x : Span}
    (hx : Near a.first x) :
    Represents b (a.remember maxOutOfOrder x) (r.remember (offset b x.start) (offset b x.stop) x.fin) := by
  have hnear : ∀ s ∈ a.spans, Near a.first s := fun s h =>
    ⟨(hs.good s h).first_le, (hs.good s h).le, (hs.good s h).stop_le.trans (by omega)⟩
  have hm := mergeFrom_map b a.first a.spans.length a.spans x hnear hx
  have he := offset_inj b hx.2.1 (by have := hx.1; have := hx.2.2; omega)
  unfold Receiver.remember Assembly.remember
  simp only [he]
  split
  · exact hr
  have hx' : (⟨offset b x.start, offset b x.stop, x.fin⟩ : Range) = ofSpan b x := rfl
  rw [hx', hr.ooo, length_map, hm]
  refine { hr with ooo := ?_ }
  simp only [length_map]
  split <;> simp

lemma Represents.place (hr : Represents b a r) (hs : a.Sane (fun _ _ => True) fun _ => True)
    (hc : a.closed = false) {pos : ℕ} (data : List UInt8) (fin : Bool) (hp : a.next ≤ pos) (hw : pos < a.first + n) :
    Represents b (a.place maxOutOfOrder pos data fin) (r.place (offset b pos) data fin) := by
  have hfirst := hs.first_le
  have hnext := hs.next_le
  have hr1 := hr.rcvNxt hc
  have hoff : (offset b pos - r.rcvNxt).toNat = pos - a.next := by
    rw [hr1, distance _ hp (by omega)]
  have hfree : n - r.rxSize = a.first + n - a.next := by
    rw [hr.size]
    omega
  have hroom : a.first + n - a.next - (pos - a.next) = a.first + n - pos := by omega
  have hcell (xs : List UInt8) : r.rx.store (r.rxHead + r.rxSize + (pos - a.next)) xs = a.cells.store pos xs := by
    rw [hr.rx]
    apply Ring.store_congr
    rw [hr.size, Nat.add_assoc, Nat.add_mod, hr.head, ← Nat.add_mod]
    congr 1
    omega
  unfold Receiver.place Assembly.place
  have hin : ¬ pos - a.next ≥ a.first + n - a.next := by omega
  simp only [hoff, hfree, hroom, hcell, hin, if_false]
  generalize hcount : min data.length (a.first + n - pos) = count
  have hs' : Assembly.Sane { a with cells := a.cells.store pos (data.take count) } (fun _ _ => True) fun _ => True :=
    ⟨hfirst, hnext, fun _ _ _ => trivial, fun s h => ⟨(hs.good s h).le, (hs.good s h).stop_le,
      (hs.good s h).first_le, fun _ _ _ => trivial, fun _ => trivial⟩, hs.apart⟩
  have hr' : Represents b { a with cells := a.cells.store pos (data.take count) }
      { r with rx := a.cells.store pos (data.take count) } :=
    { hr with rx := rfl }
  by_cases hne : pos = a.next
  · subst hne
    simp only [Nat.sub_self, ne_eq, not_true_eq_false, if_false]
    have hs'' : Assembly.Sane
        { a with cells := a.cells.store a.next (data.take count), next := a.next + count }
        (fun _ _ => True) fun _ => True :=
      ⟨by dsimp only; omega, by dsimp only; omega, fun _ _ _ => trivial, hs'.good, hs.apart⟩
    have hr'' : Represents b { a with cells := a.cells.store a.next (data.take count), next := a.next + count }
        { r with
          rx := a.cells.store a.next (data.take count), rxSize := r.rxSize + count
          rcvNxt := r.rcvNxt + BitVec.ofNat 32 count } := by
      refine { hr with rx := rfl, size := ?_, nxt := ?_ }
      · dsimp only
        omega
      · simp [hr1, hc, add_ofNat]
    obtain ⟨hj, hf⟩ := hr''.join hn (k := a.spans.length) (fin && count == data.length) hs'' hc
    have hlen : r.ooo.length = a.spans.length := by rw [hr.ooo, length_map]
    obtain ⟨hwin, _, hsane⟩ := Assembly.join_spec (fun _ _ => True) (fun _ => True)
      { a with cells := a.cells.store a.next (data.take count), next := a.next + count }
      (fin && count == data.length) (k := a.spans.length) le_rfl
    have hsane := (hsane hs'' fun _ => trivial).1
    rw [hlen]
    generalize Assembly.join a.spans.length _ = q at hj hf hwin hsane ⊢
    generalize Receiver.join a.spans.length _ = q' at hj hf ⊢
    obtain ⟨a', f⟩ := q
    obtain ⟨r', f'⟩ := q'
    dsimp only at hj hf hwin hsane ⊢
    subst hf
    have hc' := hwin.closed.trans hc
    have hwindow : decide (r'.window ≠ 0) = decide (a'.next < a'.first + n) := by
      have h1 := hsane.first_le
      rw [Receiver.window, hj.size]
      congr 1
      rw [eq_iff_iff]
      omega
    rw [hwindow]
    split
    · refine { hj with nxt := ?_, eof := rfl, ooo := rfl }
      rw [hj.nxt, hc']
      exact add_one b a'.next
    · exact hj
  rw [if_pos hne, if_pos (show pos - a.next ≠ 0 by omega), add_ofNat]
  exact hr'.remember hn hs' (x := ⟨pos, pos + count, fin && count == data.length⟩)
    ⟨by dsimp only; omega, by dsimp only; omega, by dsimp only; omega⟩

structure Extends (b : U32) (a : Assembly UInt8 n) (C : ℕ → UInt8 → Prop) (F : ℕ → Prop) (r : Receiver n)
    (a' : Assembly UInt8 n) : Prop where
  represents : Represents b a' r
  ok : a'.Ok C F maxOutOfOrder
  first : a'.first = a.first
  le_next : a.next ≤ a'.next
  readable : ∀ p, a.first ≤ p → p < a.next → a'.cells.get p = a.cells.get p

omit hn in
lemma Extends.refl {C : ℕ → UInt8 → Prop} {F : ℕ → Prop} (hr : Represents b a r) (ha : a.Ok C F maxOutOfOrder) :
    Extends b a C F r a :=
  ⟨hr, ha, rfl, le_rfl, fun _ _ _ => rfl⟩

section

variable {C : ℕ → UInt8 → Prop} {F : ℕ → Prop} (hr : Represents b a r) (ha : a.Ok C F maxOutOfOrder)
  (h0 : 0 < n) (hc : a.closed = false)
include hr ha h0 hc

lemma Represents.place_extends {pos : ℕ} {data : List UInt8} {fin : Bool} (hp : a.next ≤ pos)
    (hp' : pos < a.next + 2 ^ 32) (hd : ∀ k (hk : k < data.length), C (pos + k) (data[k]))
    (hf : fin = true → F (pos + data.length)) : ∃ a', Extends b a C F (r.place (offset b pos) data fin) a' := by
  have hfirst := ha.first_le
  have hr1 := hr.rcvNxt hc
  by_cases hw : pos < a.first + n
  · refine ⟨a.place maxOutOfOrder pos data fin, ?_⟩
    obtain ⟨h1, h2, h3⟩ := a.place_frame maxOutOfOrder pos data fin
    refine ⟨hr.place hn (ha.toSane.mono (fun _ _ _ => trivial) fun _ _ => trivial) hc data fin hp hw,
      ha.place h0 hc hp hw hd hf, h2, h3, fun p h4 h5 => ?_⟩
    rw [h1, Ring.get_store_outside]
    have hl : (data.take (a.first + n - pos)).length ≤ a.first + n - pos := by simp
    omega
  have hoff : (offset b pos - r.rcvNxt).toNat = pos - a.next := by
    rw [hr1, distance _ hp (by omega)]
  have hout : (offset b pos - r.rcvNxt).toNat ≥ n - r.rxSize := by
    rw [hoff, hr.size]
    omega
  rw [Receiver.place, if_pos hout]
  exact ⟨a, .refl hr ha⟩

omit hc in
lemma Represents.consume (seq : U32) (data : List UInt8) (fin : Bool)
    (hd : ∀ k (hk : k < data.length) (p : ℕ), (p : ℤ) = a.first + r.rank seq + k → C p (data[k]))
    (hf : fin = true → ∀ p : ℕ, (p : ℤ) = a.first + r.rank seq + data.length → F p) :
    ∃ a', Extends b a C F (r.consume seq data fin) a' := by
  have hfirst := ha.first_le
  unfold Receiver.consume
  by_cases he : r.eof = true
  · rw [if_pos he]
    exact ⟨a, .refl hr ha⟩
  rw [if_neg he]
  have hc : a.closed = false := by rw [← hr.eof]; simpa using he
  have hr1 := hr.rcvNxt hc
  have hrank : (a.first : ℤ) + r.rank seq = a.next + (seq - r.rcvNxt).toInt := by
    simp only [rank, he, Bool.false_eq_true, if_false, hr.size]
    omega
  by_cases hb : before seq r.rcvNxt = true
  · rw [if_pos hb]
    have hi := toInt_sub_of_before hb
    dsimp only
    generalize (r.rcvNxt - seq).toNat = skip at hi
    split
    · exact ⟨a, .refl hr ha⟩
    rw [hr1]
    refine hr.place_extends hn ha h0 hc le_rfl (by omega) (fun k hk => ?_) fun h => ?_
    · rw [length_drop] at hk
      rw [getElem_drop]
      exact hd (skip + k) (by omega) _ (by omega)
    · rw [length_drop]
      exact hf h _ (by omega)
  rw [if_neg hb]
  have hseq : seq = offset b (a.next + (seq - r.rcvNxt).toNat) := by
    rw [← offset_add, ← hr1, offset_distance]
  have hlt := (seq - r.rcvNxt).isLt
  by_cases hsmall : (seq - r.rcvNxt).toNat < 2 ^ 31
  · have hi : (seq - r.rcvNxt).toInt = (seq - r.rcvNxt).toNat := toInt_sub_of_lt (by omega)
    rw [hseq]
    refine hr.place_extends hn ha h0 hc (by omega) (by omega) (fun k hk => ?_) fun h => ?_
    · exact hd k hk _ (by omega)
    · exact hf h _ (by omega)
  have hout : (seq - r.rcvNxt).toNat ≥ n - r.rxSize := by omega
  rw [Receiver.place, if_pos hout]
  exact ⟨a, .refl hr ha⟩

end

end

namespace Receiver

lemma remember_irs (r : Receiver n) (start stop : U32) (fin : Bool) : (r.remember start stop fin).irs = r.irs := by
  unfold remember
  split <;> rfl

lemma join_irs (k : ℕ) (p : Receiver n × Bool) : (join k p).1.irs = p.1.irs := by
  induction k generalizing p with
  | zero => rfl
  | succ k ih =>
  simp only [join]
  split
  · rfl
  next p' hp =>
  rw [ih]
  simp only [joinStep, Option.bind_eq_bind, Option.bind_eq_some_iff, Option.some.injEq] at hp
  obtain ⟨i, _, range, _, rfl⟩ := hp
  unfold joinAt
  split <;> rfl

lemma place_irs (r : Receiver n) (seq : U32) (data : List UInt8) (fin : Bool) : (r.place seq data fin).irs = r.irs := by
  unfold place
  dsimp only
  split_ifs
  · rfl
  · exact remember_irs _ _ _ _
  · exact join_irs _ _
  · exact join_irs _ _

lemma consume_irs (r : Receiver n) (seq : U32) (data : List UInt8) (fin : Bool) : (r.consume seq data fin).irs = r.irs := by
  unfold consume
  dsimp only
  split_ifs
  · rfl
  · rfl
  · exact place_irs _ _ _ _
  · exact place_irs _ _ _ _

end Receiver

variable {cap : Capacities} (C : ℕ → UInt8 → Prop) (F : ℕ → Prop)

/-- The receiver invariant of a block, for bytes carried at stream positions by `C` and stream ends `F`:
everything returned was carried, and unless the connection failed the rest is a reassembly. -/
structure Block.ReceiverOk (returned : List UInt8) (k : Block cap) : Prop where
  carried : ∀ p (hp : p < returned.length), C p (returned[p])
  holds : k.Failed ∧ k.rcv.rxSize = 0 ∧ k.rcv.ooo = [] ∨
    ∃ b a, Represents b a k.rcv ∧ a.Ok C F maxOutOfOrder ∧ a.first = returned.length ∧
      (k.state.synchronized = true → b = k.rcv.irs + 1) ∧
      (k.state = .listen ∨ k.state.opening = true → a.next = 0 ∧ a.closed = false ∧ a.spans = [])

variable {C F}

section

variable {returned : List UInt8} {k k' : Block cap}

lemma Block.ReceiverOk.mono {C' : ℕ → UInt8 → Prop} {F' : ℕ → Prop} (h : k.ReceiverOk C F returned)
    (hC : ∀ p x, C p x → C' p x) (hF : ∀ p, F p → F' p) : k.ReceiverOk C' F' returned :=
  ⟨fun p hp => hC _ _ (h.carried p hp), h.holds.imp_right fun ⟨b, a, h1, h2, h3⟩ => ⟨b, a, h1, h2.mono hC hF, h3⟩⟩

structure Receiver.Blank (r : Receiver n) : Prop where
  head : r.rxHead % n = 0
  size : r.rxSize = 0
  eof : r.eof = false
  ooo : r.ooo = []

lemma Receiver.Blank.represents {r : Receiver n} (h : r.Blank) : Represents r.rcvNxt ⟨r.rx, 0, 0, [], false⟩ r :=
  ⟨rfl, by simpa using h.head, h.size, by simp, h.eof, h.ooo⟩

lemma blank_ok (cells : Ring UInt8 n) : Assembly.Ok ⟨cells, 0, 0, [], false⟩ C F maxOutOfOrder :=
  ⟨⟨le_rfl, Nat.zero_le _, fun p _ h => absurd h (Nat.not_lt_zero p), by simp, .nil⟩, by simp, by simp, by simp⟩

lemma Block.ReceiverOk.blank (hb : k.rcv.Blank) (hs : k.state.synchronized = true → k.rcv.rcvNxt = k.rcv.irs + 1) :
    k.ReceiverOk C F [] :=
  ⟨by simp, .inr ⟨_, _, hb.represents, blank_ok _, rfl, hs, fun _ => ⟨rfl, rfl, rfl⟩⟩⟩

lemma Block.ReceiverOk.isBlank (h : k.ReceiverOk C F returned) (hs : k.state = .listen ∨ k.state.opening = true) :
    k.rcv.Blank ∧ returned = [] := by
  rcases h.holds with ⟨⟨hc, _⟩, _⟩ | ⟨b, a, hr, ha, hf, _, hz⟩
  · simp [hc, opening] at hs
  obtain ⟨h1, h2, h3⟩ := hz hs
  have hle := ha.first_le
  have h0 : a.first = 0 := by omega
  refine ⟨⟨?_, ?_, ?_, ?_⟩, length_eq_zero_iff.mp (by omega)⟩
  · rw [hr.head, h0, Nat.zero_mod]
  · rw [hr.size]
    omega
  · rw [hr.eof, h2]
  · rw [hr.ooo, h3]
    rfl

lemma Block.ReceiverOk.keep (h : k.ReceiverOk C F returned) (hr : k'.rcv = k.rcv) (hf : k.Failed → k'.Failed)
    (hs : k'.state.synchronized = true → k.state.synchronized = true)
    (ho : k'.state = .listen ∨ k'.state.opening = true → k.state = .listen ∨ k.state.opening = true) :
    k'.ReceiverOk C F returned := by
  refine ⟨h.carried, ?_⟩
  rw [hr]
  rcases h.holds with ⟨h1, h2⟩ | ⟨b, a, h1, h2, h3, h4, h5⟩
  · exact .inl ⟨hf h1, h2⟩
  · exact .inr ⟨b, a, h1, h2, h3, fun h => h4 (hs h), fun h => h5 (ho h)⟩

lemma Block.ReceiverOk.read (h : k.ReceiverOk C F returned) (hf : k.failure = .none) (size : ℕ) :
    ({ k with rcv := k.rcv.read size } : Block cap).ReceiverOk C F (returned ++ k.rcv.peek size) := by
  rcases h.holds with ⟨⟨_, hne⟩, _⟩ | ⟨b, a, hr, ha, hfirst, hb, ho⟩
  · exact absurd hf hne
  have hsize := hr.size
  have hnext := ha.next_le
  have hget (i : ℕ) : k.rcv.rx.get (k.rcv.rxHead + i) = a.cells.get (a.first + i) := by
    rw [hr.rx]
    exact Ring.get_congr _ (Nat.ModEq.add_right i hr.head)
  constructor
  · intro p hp
    rw [getElem_append]
    split
    · exact h.carried p _
    next hge =>
    simp only [Receiver.peek, length_append, Ring.length_slice] at hp hge ⊢
    rw [Ring.getElem_slice, hget, hfirst, Nat.add_sub_cancel' (by omega)]
    exact ha.filled p (by omega) (by omega)
  refine .inr ⟨b, { a with first := a.first + min size k.rcv.rxSize }, { hr with head := ?_, size := ?_ },
    ha.read (by omega), by simp [Receiver.peek, hfirst], hb, ho⟩
  · simp only [Receiver.read, Nat.mod_mod]
    exact Nat.ModEq.add_right _ hr.head
  · simp only [Receiver.read]
    omega

end

def Event.Carries (C : ℕ → UInt8 → Prop) (F : ℕ → Prop) (returned : List UInt8) : Event → Prop
  | .took seg rank =>
    (∀ k (hk : k < seg.payload.length) (p : ℕ), (p : ℤ) = returned.length + rank + k → C p (seg.payload[k])) ∧
      (seg.fields.has tcpFin = true → ∀ p : ℕ, (p : ℤ) = returned.length + rank + seg.payload.length → F p)
  | _ => True

variable {k k' : Block cap} {returned : List UInt8}

lemma Block.ReceiverOk.consume {seg : Wire.Tcp}
    (h : k.ReceiverOk C F returned) (hs : k.state.streaming = true)
    (hc : (Event.took seg (k.rcv.rank seg.fields.sequence)).Carries C F returned) :
    (k.consume seg).ReceiverOk C F returned := by
  have hst : (k.consume seg).state.synchronized = true ∧ (k.consume seg).state ≠ .listen ∧
      (k.consume seg).state.opening = false := by
    rcases k.consume_snd seg with ⟨h, _⟩ | ⟨h, _⟩ <;> rw [h] <;> revert hs <;>
      cases k.state <;> simp [streaming, synchronized, opening, finReceived]
  rcases h.holds with ⟨⟨hne, _⟩, _⟩ | ⟨b, a, hr, ha, hfirst, hb, _⟩
  · simp [hne, streaming] at hs
  have hrcv := k.consume_rcv seg
  have hirs : (k.consume seg).rcv.irs = k.rcv.irs := by
    rcases hrcv with hrcv | hrcv <;> rw [hrcv]
    exact consume_irs _ _ _ _
  have hbase : b = (k.consume seg).rcv.irs + 1 := by
    rw [hirs]
    exact hb (synchronized_of_streaming hs)
  refine ⟨h.carried, .inr ?_⟩
  have hno : (k.consume seg).state = .listen ∨ (k.consume seg).state.opening = true → False := by
    simp [hst.2.1, hst.2.2]
  rcases hrcv with hrcv | hrcv
  · exact ⟨b, a, hrcv ▸ hr, ha, hfirst, fun _ => hbase, fun h => (hno h).elim⟩
  obtain ⟨a', hx⟩ := hr.consume cap.receive_le ha cap.receive_pos seg.fields.sequence seg.payload
    (seg.fields.has tcpFin) (by rw [hfirst]; exact hc.1) (by rw [hfirst]; exact hc.2)
  exact ⟨b, a', hrcv ▸ hx.represents, hx.ok, hx.first.trans hfirst, fun _ => hbase, fun h => (hno h).elim⟩

lemma Move.receiver {e : Event} {h : History} (hm : Move e k k') (he : e ≠ .opened)
    (hs : k.Sound) (hk : k.ReceiverOk C F h.returned) (hc : e.Carries C F h.returned) :
    k'.ReceiverOk C F (h.note e).returned := by
  cases hm with
  | activeOpen | passiveOpen | rearm => exact absurd rfl he
  | repeatSyn | write | shutdown | plan | refuse => exact hk.keep rfl id id id
  | terminate reason _ hr => exact ⟨hk.carried, .inl ⟨⟨rfl, hr⟩, rfl, rfl⟩⟩
  | relisten _ hl =>
    obtain ⟨_, hr⟩ := hk.isBlank (by simp [hl, opening])
    simp only [History.note, hr]
    refine .blank ⟨Nat.zero_mod _, rfl, rfl, rfl⟩ ?_
    simp [Block.returnToListen, synchronized, streaming]
  | expire _ hl =>
    refine hk.keep rfl (fun hf => ?_) ?_ ?_
    · exact absurd hf.1 (by simp [hl])
    · simp [synchronized, streaming]
    · simp [opening]
  | read size _ hf => exact hk.read hf size
  | greet source seq mss _ hl =>
    obtain ⟨hb, hr⟩ := hk.isBlank (by simp [hl])
    simp only [History.note, hr]
    exact .blank { hb with } fun _ => rfl
  | cross seq mss _ hl =>
    obtain ⟨hb, hr⟩ := hk.isBlank (by simp [hl, opening])
    simp only [History.note, hr]
    exact .blank { hb with } fun _ => rfl
  | connect seq mss due _ hl =>
    obtain ⟨hb, hr⟩ := hk.isBlank (by simp [hl, opening])
    simp only [History.note, hr]
    have hrcv : (({ k.synchronize seq with peerMss := mss } : Block cap).establish (k.snd.iss + 1) due).rcv =
        { k.rcv with irs := seq, rcvNxt := seq + 1 } := by simp [Block.establish, Block.synchronize]
    refine .blank ?_ fun _ => ?_ <;> rw [hrcv]
    exact { hb with }
  | handshake due _ hl =>
    refine hk.keep (by simp [Block.establish]) (fun hf => ?_) ?_ ?_
    · exact absurd hf.1 (by simp [hl])
    · simp [hl, synchronized]
    · simp [Block.establish, opening]
  | acknowledge ack due _ hst =>
    have hn := k.acknowledge_state ack due hst
    refine hk.keep (by simp) (fun hf => ?_) (fun _ => ?_) fun ho => ?_
    · simp [hf.1, streaming] at hst
    · rcases hst with h | h
      · exact synchronized_of_streaming h
      · simp [h, synchronized]
    exfalso
    revert hn ho
    cases (k.acknowledge ack due).state <;> simp [streaming, opening]
  | consume seg _ hst => exact hk.consume hst hc
  | transmit due hp =>
  obtain ⟨_, _, hrcv, _⟩ := Block.complete_frame { k with plan := {} } k.plan due
  obtain ⟨_, _, _, hfail⟩ := Block.complete_snd { k with plan := {} } k.plan due
  rcases Block.complete_state_cases (k := { k with plan := {} }) (hs.plan hp) due with hst | ⟨hst, hst'⟩
  · refine hk.keep hrcv (fun hf => ?_) (by rw [hst]; exact id) (by rw [hst]; exact id)
    exact ⟨hst.trans hf.1, by rw [hfail]; exact hf.2⟩
  refine hk.keep hrcv (fun hf => ?_) (fun _ => synchronized_of_streaming hst) fun ho => ?_
  · simp [hf.1, streaming] at hst
  exfalso
  revert hst' ho
  cases (Block.complete { k with plan := {} } k.plan due).state <;> simp [streaming, opening]

lemma Move.receiver_opened {e : Event} {C' : ℕ → UInt8 → Prop}
    {F' : ℕ → Prop} (hm : Move e k k') (he : e = .opened) (hk : k.ReceiverOk C F returned) :
    k'.ReceiverOk C' F' [] := by
  cases hm <;> cases he
  iterate 2 exact .blank ⟨Nat.zero_mod _, rfl, rfl, rfl⟩ (by simp [synchronized, streaming])
  · next hl _ =>
    exact .blank (hk.isBlank (.inl hl)).1 (by simp [hl, synchronized, streaming])

def History.Carried (h : History) (p : ℕ) (x : UInt8) : Prop :=
  ∃ start payload, (start, payload) ∈ h.accepted ∧ ∃ i : ℕ, start + i = (p : ℤ) ∧ payload[i]? = some x

lemma History.Carried.mono {h h' : History} (hs : h.accepted ⊆ h'.accepted) {p : ℕ} {x : UInt8}
    (hc : h.Carried p x) : h'.Carried p x := by
  obtain ⟨start, payload, hm, hi⟩ := hc
  exact ⟨start, payload, hs hm, hi⟩

lemma Moves.receiver {es : List Event} {h : History} (hm : Moves es k k') (hs : k.Sound)
    (hk : k.ReceiverOk h.Carried (fun _ => True) h.returned) :
    k'.ReceiverOk (es.foldl History.note h).Carried (fun _ => True) (es.foldl History.note h).returned := by
  induction hm generalizing h with
  | nil => exact hk
  | @cons e _ _ _ _ hm _ ih =>
  refine ih (hm.sound hs) ?_
  by_cases he : e = .opened
  · subst he
    exact hm.receiver_opened rfl hk
  have hmono : h.accepted ⊆ (h.note e).accepted := by
    cases e <;> first | exact fun _ h => h | exact subset_cons_self _ _ | exact absurd rfl he
  refine hm.receiver he hs (hk.mono (fun p x => History.Carried.mono hmono) fun _ => id) ?_
  cases e with
  | took seg rank =>
    refine ⟨fun i hi p hp => ?_, fun _ _ _ => trivial⟩
    exact ⟨_, _, .head _, i, hp.symm, getElem?_eq_getElem hi⟩
  | _ => trivial

def Receiver.RangesOk (r : Receiver n) : Prop :=
  r.ooo.length ≤ maxOutOfOrder ∧
    (∀ x ∈ r.ooo, 0 < (x.start - r.rcvNxt).toNat ∧ (x.start - r.rcvNxt).toNat ≤ (x.stop - r.rcvNxt).toNat ∧
      (x.stop - r.rcvNxt).toNat ≤ r.window) ∧
    r.ooo.Pairwise fun x y => (x.stop - r.rcvNxt).toNat < (y.start - r.rcvNxt).toNat ∨
      (y.stop - r.rcvNxt).toNat < (x.start - r.rcvNxt).toNat

def Receiver.edge (r : Receiver n) : U32 := r.rcvNxt + BitVec.ofNat 32 r.window

section

variable {b : U32} {a : Assembly UInt8 n} {r : Receiver n} (hr : Represents b a r) (ha : a.Ok C F maxOutOfOrder)
include hr ha

lemma Represents.size_le : r.rxSize ≤ n := by
  have h1 := ha.next_le
  rw [hr.size]
  omega

lemma Represents.rangesOk (hn : n ≤ 65535) : r.RangesOk := by
  have hfirst := ha.first_le
  have hnext := ha.next_le
  have hnear (s : Span) (hs : s ∈ a.spans) : (ofSpan b s).start - r.rcvNxt = BitVec.ofNat 32 (s.start - a.next) ∧
      (ofSpan b s).stop - r.rcvNxt = BitVec.ofNat 32 (s.stop - a.next) := by
    have hc : a.closed = false := by
      by_contra hc
      rw [(ha.closed (by simpa using hc)).1] at hs
      simp at hs
    have h1 := ha.beyond s hs
    have h2 := (ha.good s hs).le
    rw [hr.rcvNxt hc]
    exact ⟨offset_sub b h1.le, offset_sub b (h1.le.trans h2)⟩
  have hdist (s : Span) (hs : s ∈ a.spans) : ((ofSpan b s).start - r.rcvNxt).toNat = s.start - a.next ∧
      ((ofSpan b s).stop - r.rcvNxt).toNat = s.stop - a.next := by
    have h2 := (ha.good s hs).le
    have h3 := (ha.good s hs).stop_le
    rw [(hnear s hs).1, (hnear s hs).2, BitVec.toNat_ofNat, BitVec.toNat_ofNat, Nat.mod_eq_of_lt (by omega),
      Nat.mod_eq_of_lt (by omega)]
    exact ⟨rfl, rfl⟩
  refine ⟨?_, ?_, ?_⟩
  · rw [hr.ooo, length_map]
    exact ha.count
  · intro x hx
    rw [hr.ooo, mem_map] at hx
    obtain ⟨s, hs, rfl⟩ := hx
    have h1 := ha.beyond s hs
    have h2 := (ha.good s hs).le
    have h3 := (ha.good s hs).stop_le
    rw [(hdist s hs).1, (hdist s hs).2, window, hr.size]
    omega
  rw [hr.ooo, pairwise_map]
  refine ha.apart.imp_of_mem fun {x y} hx hy hxy => ?_
  have h1 := ha.beyond x hx
  have h2 := ha.beyond y hy
  rw [(hdist x hx).1, (hdist x hx).2, (hdist y hy).1, (hdist y hy).2]
  simp only [Span.Apart] at hxy
  omega

lemma Represents.edge_eq : r.edge = offset b (a.first + n + if a.closed then 1 else 0) := by
  have hfirst := ha.first_le
  have hnext := ha.next_le
  rw [edge, hr.nxt, window, hr.size, add_ofNat]
  congr 1
  omega

lemma Represents.readable {i : ℕ} (hi : i < r.rxSize) : C (a.first + i) (r.rx.get (r.rxHead + i)) := by
  rw [hr.rx, Ring.get_congr a.cells (Nat.ModEq.add_right i hr.head)]
  have hs := hr.size
  exact ha.filled _ (by omega) (by omega)

end

def Receiver.Forward (r r' : Receiver n) : Prop := (r'.edge - r.edge).toNat < 2 ^ 31

namespace Receiver

variable {r r' : Receiver n}

lemma Forward.refl (r : Receiver n) : r.Forward r := by
  simp [Forward]

lemma Forward.of_size (hn : n ≤ 65535) (h : r'.rcvNxt = r.rcvNxt) (hs : r'.rxSize ≤ r.rxSize) (hz : r.rxSize ≤ n) :
    r.Forward r' := by
  have he : r'.edge = r.edge + BitVec.ofNat 32 (r.rxSize - r'.rxSize) := by
    rw [edge, edge, h, BitVec.add_assoc, ← BitVec.ofNat_add, window, window]
    congr 2
    omega
  have hd : r'.edge - r.edge = BitVec.ofNat 32 (r.rxSize - r'.rxSize) := by
    rw [he]
    abel
  rw [Forward, hd, BitVec.toNat_ofNat, Nat.mod_eq_of_lt (by omega)]
  omega

lemma Forward.of_extends {b : U32} {a a' : Assembly UInt8 n} (hr : Represents b a r) (ha : a.Ok C F maxOutOfOrder)
    (hx : Extends b a C F r' a') (hc : a.closed = true → r' = r) : r.Forward r' := by
  by_cases h : a.closed = true
  · rw [hc h]
    exact .refl r
  rw [Forward, hr.edge_eq ha, hx.represents.edge_eq hx.ok, hx.first, if_neg h]
  rw [distance _ (by omega) (by split <;> omega)]
  split <;> omega

end Receiver

section

variable {σ : Type} [CongestionControl σ] {c : Connection cap σ} {h : History}

lemma Reachable.receiver (hr : Reachable c h) : c.ReceiverOk h.Carried (fun _ => True) h.returned := by
  induction hr with
  | fresh => exact .blank ⟨Nat.zero_mod _, rfl, rfl, rfl⟩ (by simp [Connection.fresh, synchronized, streaming])
  | step op hr ih =>
  obtain ⟨es, hm, _, ht⟩ := run_performs hr.sound op
  have hk := hm.receiver hr.sound ih
  rw [(ht _).returned] at hk
  exact hk.mono (fun p x => History.Carried.mono (ht _).accepted) fun _ => id

omit [CongestionControl σ] in
lemma Block.ReceiverOk.size_le {k : Block cap} {returned : List UInt8} (hk : k.ReceiverOk C F returned) :
    k.rcv.rxSize ≤ cap.receive := by
  rcases hk.holds with ⟨_, h0, _⟩ | ⟨b, a, hr, ha, _⟩
  · omega
  · exact hr.size_le ha

lemma tick_rcv (now : ℕ) : (c.tick now).2.state = .listen ∨
    (c.tick now).2.rcv.rcvNxt = c.rcv.rcvNxt ∧ (c.tick now).2.rcv.rxSize ≤ c.rcv.rxSize := by
  rcases c.tick_cases now with ⟨-, _, h⟩ | ⟨-, -, t, h, hf⟩ <;> rw [h]
  · exact .inr ⟨rfl, le_rfl⟩
  cases hf with
  | rest | expire => exact .inr ⟨rfl, le_rfl⟩
  | relisten => exact .inl rfl
  | timeout => exact .inr ⟨rfl, Nat.zero_le _⟩

lemma prepare_rcv (size now : ℕ) : (c.prepare size now).2.rcv = (c.tick now).2.rcv ∧
    (c.prepare size now).2.state = (c.tick now).2.state := by
  rcases c.prepare_cases size now with ⟨⟨due, head, h⟩, -⟩ | ⟨t, t', plan, length, packet, ht, -, hs, -, h⟩
  · rw [h]
    exact ⟨rfl, rfl⟩
  have hd := t.select_toBlock now
  rw [hs] at hd
  rw [h, ht, ← hd]
  exact ⟨rfl, rfl⟩

lemma completeTransmit_rcv (token : ℕ) (accepted : Bool) (now : ℕ) :
    (c.completeTransmit token accepted now).2.rcv = c.rcv := by
  have hf := fun due => (Block.complete_frame { c.toBlock with plan := {} } c.plan due).2.2.1
  unfold completeTransmit
  dsimp only
  split_ifs
  iterate 4 rfl
  split
  · rfl
  · rfl
  · exact hf _
  · exact hf _
  · rfl
  iterate 3 exact hf _

lemma run_forward (hk : c.ReceiverOk C F h.returned) (hs : c.state.synchronized = true) (op : Op)
    (hl : (op.run c).2.state ≠ .listen) : c.rcv.Forward (op.run c).2.rcv := by
  have hz := hk.size_le
  have hc : c.state ≠ .closed := by rintro hc; simp [hc, synchronized, streaming] at hs
  have hc' : c.state ≠ .listen := by rintro hc; simp [hc, synchronized, streaming] at hs
  have hc'' : c.state ≠ .synSent := by rintro hc; simp [hc, synchronized, streaming] at hs
  have hbusy : (c.plan.active || c.state != .closed || c.rcv.rxSize != 0) = true := by simp [hc]
  have htick (now : ℕ) (hl : (c.tick now).2.state ≠ .listen) : c.rcv.Forward (c.tick now).2.rcv := by
    rcases tick_rcv (c := c) now with h | ⟨h1, h2⟩
    · exact absurd h hl
    · exact .of_size cap.receive_le h1 h2 hz
  cases op with
  | activeOpen =>
    simp only [Op.run, Connection.activeOpen, hbusy, if_true]
    exact .refl _
  | passiveOpen =>
    simp only [Op.run, Connection.passiveOpen, hbusy, if_true]
    exact .refl _
  | rearmListener =>
    have hb : (c.plan.active || c.state != .listen || c.listenerArmed || c.resetPending) = true := by simp [hc']
    simp only [Op.run, Connection.rearmListener, hb, if_true]
    exact .refl _
  | abort =>
    simp only [Op.run, Connection.abort]
    split
    · exact .refl _
    · exact .of_size cap.receive_le rfl (Nat.zero_le _) hz
  | write =>
    simp only [Op.run, Connection.write]
    split_ifs <;> exact .refl _
  | peek => exact .refl _
  | read =>
    simp only [Op.run, Connection.read]
    split_ifs
    iterate 5 exact .refl _
    · exact .of_size cap.receive_le rfl (Nat.sub_le _ _) hz
  | shutdownWrite =>
    simp only [Op.run, Connection.shutdownWrite]
    split_ifs <;> exact .refl _
  | receive packet now =>
    cases packet with
    | error =>
      simp only [Op.run, Connection.receive]
      split_ifs <;> exact .refl _
    | ok d =>
    rcases Connection.receive_receives now c d with hr | ⟨hr, _⟩ | hr | hr | hr
    · simp only [Op.run, Prod.map, id, hr]
      exact .refl _
    · rcases hk.holds with ⟨hf, _⟩ | ⟨b, a, hrep, ha, _⟩
      · exact absurd hf.1 hc
      have ha := ha.mono (fun _ _ _ => trivial) fun _ _ => trivial
      obtain ⟨a', hx⟩ := hrep.consume cap.receive_le ha cap.receive_pos d.tcp.fields.sequence d.tcp.payload
        (d.tcp.fields.has tcpFin) (fun _ _ _ _ => trivial) fun _ _ _ => trivial
      simp only [Op.run, Prod.map, id, hr]
      refine .of_extends hrep ha hx fun he => ?_
      rw [Receiver.consume, if_pos (hrep.eof.trans he)]
    · simp only [Op.run, Prod.map, id, hr]
      exact .of_size cap.receive_le rfl (Nat.zero_le _) hz
    · exact absurd hr hl
    · tauto
  | tick now => exact htick now hl
  | prepare size now =>
    obtain ⟨h1, h2⟩ := prepare_rcv (c := c) size now
    simp only [Op.run, Prod.map, id, h1, h2] at hl ⊢
    exact htick now hl
  | completeTransmit token accepted now =>
  have hr := completeTransmit_rcv (c := c) token accepted now
  simp only [Op.run, Prod.map, id, hr]
  exact .refl _

lemma receive_readable (hk : c.ReceiverOk C F h.returned) (packet : Result Datagram) (now : ℕ) {i : ℕ}
    (hi : i < c.rcv.rxSize) :
    (c.receive packet now).2.rcv.rx.get (c.rcv.rxHead + i) = c.rcv.rx.get (c.rcv.rxHead + i) := by
  cases packet with
  | error =>
    simp only [receive]
    split_ifs <;> rfl
  | ok d =>
  rcases receive_receives now c d with hr | ⟨hr, _⟩ | hr | ⟨_, hr⟩ | ⟨_, hr⟩
  · rw [hr]
  · rcases hk.holds with ⟨_, h0, _⟩ | ⟨b, a, hrep, ha, _⟩
    · omega
    have ha := ha.mono (fun _ _ _ => trivial) fun _ _ => trivial
    obtain ⟨a', hx⟩ := hrep.consume cap.receive_le ha cap.receive_pos d.tcp.fields.sequence d.tcp.payload
      (d.tcp.fields.has tcpFin) (fun _ _ _ _ => trivial) fun _ _ _ => trivial
    have hs := hrep.size
    have hmod := Nat.ModEq.add_right i hrep.head
    rw [hr, hx.represents.rx, hrep.rx, Ring.get_congr _ hmod, Ring.get_congr _ hmod]
    exact hx.readable _ (by omega) (by omega)
  iterate 3 rw [hr]

/-- Against any peer the receiver stays within its buffer, keeps few and well-separated ranges, returns
only bytes that accepted segments carried, never rewrites readable bytes and never shrinks its window. -/
theorem receiver_invariant (hr : Reachable c h) : c.rcv.rxSize ≤ cap.receive ∧ c.rcv.RangesOk ∧
    (∀ p x, (h.returned ++ c.rcv.peek c.rcv.rxSize)[p]? = some x → h.Carried p x) ∧
    (∀ packet now i, i < c.rcv.rxSize →
      (c.receive packet now).2.rcv.rx.get (c.rcv.rxHead + i) = c.rcv.rx.get (c.rcv.rxHead + i)) ∧
    (∀ op : Op, c.state.synchronized = true → (op.run c).2.state ≠ .listen → c.rcv.Forward (op.run c).2.rcv) := by
  have hk := hr.receiver
  refine ⟨hk.size_le, ?_, fun p x hx => ?_, fun packet now i hi => receive_readable hk packet now hi,
    fun op hs hl => run_forward hk hs op hl⟩
  · rcases hk.holds with ⟨_, _, h0⟩ | ⟨b, a, hrep, ha, _⟩
    · simp [Receiver.RangesOk, h0]
    · exact hrep.rangesOk ha cap.receive_le
  obtain ⟨hp, rfl⟩ := List.getElem?_eq_some_iff.mp hx
  rw [getElem_append]
  split
  · exact hk.carried p _
  next hge =>
  simp only [Receiver.peek, length_append, Ring.length_slice, Nat.min_self] at hp hge ⊢
  rcases hk.holds with ⟨_, h0, _⟩ | ⟨b, a, hrep, ha, hfirst, _⟩
  · omega
  have hread := hrep.readable ha (i := p - h.returned.length) (by omega)
  rw [hfirst, Nat.add_sub_cancel' (by omega)] at hread
  rw [Ring.getElem_slice]
  exact hread

def arriveOps : List Op :=
  let segment (seq : U32) (payload : List UInt8) : Op :=
    .receive (.ok ⟨.v4 10 0 0 2, .v4 10 0 0 1,
      ⟨{ sourcePort := 80, destinationPort := 1000, sequence := seq, acknowledgment := 101
         flags := tcpAck, window := 8 }, [], payload⟩⟩) 2
  [segment 503 [7], segment 501 [5, 6]]

def arrived : Connection dialCapacities NewReno × History := Op.runs dialed.1 dialed.2 arriveOps

theorem receiver_invariant_arrived : arrived.1.rcv.peek 8 = [5, 6, 7] ∧ arrived.1.rcv.RangesOk ∧ arrived.2.Carried 2 7 := by
  have hd : Reachable dialed.1 dialed.2 := Reachable.fresh.runs dialOps
  have hr := hd.runs arriveOps
  have hr := receiver_invariant hr
  exact ⟨by decide +kernel, hr.2.1, hr.2.2.1 2 7 (by decide +kernel)⟩

end

end ObfuscationKernel.Net.Tcp
