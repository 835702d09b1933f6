import Mathlib.Tactic

/-! Code that may fail and that changes a state: what a run of it does, and rules for its parts. -/

namespace ObfuscationKernel.Library

/-- Code over states `s` that answers an `α` or fails with an `ε`; a failure keeps the state it left. -/
abbrev Eff (ε s α : Type) := ExceptT ε (StateM s) α

namespace Eff

variable {ε s s' α β : Type} {x y : Eff ε s α} {f : α → Eff ε s β} {a a' : s} {b : α} {c : β} {e : ε}

def exec (x : Eff ε s α) (a : s) : Except ε α × s := x.run.run a

def part (get : s' → s) (set : s → s' → s') (x : Eff ε s α) : Eff ε s' α :=
  ExceptT.mk fun whole => ((x.exec (get whole)).1, set (x.exec (get whole)).2 whole)

lemma exec_mk (g : s → Except ε α × s) (a : s) : exec (ExceptT.mk g : Eff ε s α) a = g a := rfl

@[simp] lemma exec_pure (b : α) (a : s) : exec (pure b : Eff ε s α) a = (.ok b, a) := rfl

@[simp] lemma exec_throw (e : ε) (a : s) : exec (throw e : Eff ε s α) a = (.error e, a) := rfl

@[simp] lemma exec_get (a : s) : exec (get : Eff ε s s) a = (.ok a, a) := rfl

@[simp] lemma exec_set (a a' : s) : exec (set a' : Eff ε s PUnit) a = (.ok ⟨⟩, a') := rfl

@[simp] lemma exec_modify (g : s → s) (a : s) : exec (modify g : Eff ε s PUnit) a = (.ok ⟨⟩, g a) := rfl

@[simp] lemma exec_part (get : s' → s) (set : s → s' → s') (x : Eff ε s α) (whole : s') :
    exec (part get set x) whole = ((x.exec (get whole)).1, set (x.exec (get whole)).2 whole) := rfl

@[simp] lemma exec_liftExcept (r : Except ε α) (a : s) : exec (liftExcept r : Eff ε s α) a = (r, a) := by
  cases r <;> rfl

@[simp] lemma liftExcept_ok (b : α) : (liftExcept (.ok b : Except ε α) : Eff ε s α) = pure b := rfl

lemma forM_nop (l : List α) : (forM l fun _ => pure ⟨⟩ : Eff ε s PUnit) = pure ⟨⟩ := by
  induction l with
  | nil => rfl
  | cons b l ih => rw [List.forM_cons, pure_bind, ih]

lemma exec_bind (x : Eff ε s α) (f : α → Eff ε s β) (a : s) : exec (x >>= f) a = match exec x a with
    | (.ok b, a') => exec (f b) a'
    | (.error e, a') => (.error e, a') := by
  simp only [exec, ExceptT.run_bind, StateT.run_bind]
  rcases h : (x.run.run a) with ⟨r | r, a'⟩ <;> rfl

lemma exec_bind_ok (h : exec x a = (.ok b, a')) : exec (x >>= f) a = exec (f b) a' := by
  rw [exec_bind, h]

lemma exec_bind_error (h : exec x a = (.error e, a')) : exec (x >>= f) a = (.error e, a') := by
  rw [exec_bind, h]

lemma exec_tryCatch (x : Eff ε s α) (handler : ε → Eff ε s α) (a : s) : exec (tryCatch x handler) a = match exec x a with
    | (.ok b, a') => (.ok b, a')
    | (.error e, a') => exec (handler e) a' := by
  show exec (ExceptT.mk (x.run >>= fun r => match r with
    | .ok b => pure (.ok b)
    | .error e => (handler e).run)) a = _
  simp only [exec, ExceptT.run_mk, StateT.run_bind]
  rcases h : (x.run.run a) with ⟨r | r, a'⟩ <;> rfl

lemma bind_ok_iff {a'' : s} : exec (x >>= f) a = (.ok c, a'') ↔
    ∃ b a', exec x a = (.ok b, a') ∧ exec (f b) a' = (.ok c, a'') := by
  rw [exec_bind]
  rcases exec x a with ⟨r | r, a'⟩ <;> simp

lemma exec_forM_collect (l k : List α) : exec (forM l fun b => modify (· ++ [b]) : Eff ε (List α) PUnit) k = (.ok ⟨⟩, k ++ l) := by
  induction l generalizing k with
  | nil => simp
  | cons b l ih =>
    rw [List.forM_cons, exec_bind_ok (exec_modify _ _), ih]
    simp

/-- From every state with `P`, `x` succeeds with an answer and a state in `Q` or fails in a state with `E`. -/
def Triple (P : s → Prop) (x : Eff ε s α) (Q : α → s → Prop) (E : s → Prop) : Prop :=
  ∀ a, P a → match exec x a with
    | (.ok b, a') => Q b a'
    | (.error _, a') => E a'

section

variable {P P' : s → Prop} {Q Q' : α → s → Prop} {Q'' : β → s → Prop} {E : s → Prop}

lemma Triple.pure (h : ∀ a, P a → Q b a) : Triple P (pure b : Eff ε s α) Q E := h

lemma Triple.any (x : Eff ε s α) : Triple (fun _ => True) x (fun _ _ => True) fun _ => True := by
  intro a _
  split <;> trivial

lemma Triple.throw (h : ∀ a, P a → E a) : Triple P (throw e : Eff ε s α) Q E := h

lemma Triple.modify {g : s → s} {Q : PUnit → s → Prop} (h : ∀ a, P a → Q ⟨⟩ (g a)) :
    Triple P (modify g : Eff ε s PUnit) Q E := h

lemma Triple.liftExcept {r : Except ε α} (hok : ∀ b, r = .ok b → ∀ a, P a → Q b a) (herr : ∀ a, P a → E a) :
    Triple P (liftExcept r : Eff ε s α) Q E := by
  intro a ha
  cases r with
  | ok b => exact hok b rfl a ha
  | error e => exact herr a ha

lemma Triple.bind (hx : Triple P x Q E) (hf : ∀ b, Triple (Q b) (f b) Q'' E) : Triple P (x >>= f) Q'' E := by
  intro a ha
  have hx := hx a ha
  rw [exec_bind]
  rcases hr : exec x a with ⟨r | r, a'⟩ <;> rw [hr] at hx
  · exact hx
  · exact hf r a' hx

lemma Triple.get_bind {f : s → Eff ε s β} (hf : ∀ b, Triple (fun a => a = b ∧ P a) (f b) Q'' E) :
    Triple P (get >>= f) Q'' E := by
  intro a ha
  exact hf a a ⟨rfl, ha⟩

lemma Triple.get_at {f : s → Eff ε s β} (hf : Triple (· = a) (f a) Q'' E) : Triple (· = a) (get >>= f) Q'' E := by
  rintro now rfl
  exact hf now rfl

lemma Triple.tryCatch {handler : ε → Eff ε s α} {E' : s → Prop} (hx : Triple P x Q E) (hh : ∀ e, Triple E (handler e) Q E') :
    Triple P (tryCatch x handler) Q E' := by
  intro a ha
  have hx := hx a ha
  rw [exec_tryCatch]
  rcases hr : exec x a with ⟨e | b, a'⟩ <;> rw [hr] at hx
  · exact hh e a' hx
  · exact hx

lemma Triple.map {m : α → β} (hx : Triple P x (fun b => Q'' (m b)) E) : Triple P (m <$> x) Q'' E := by
  exact hx.bind fun _ => .pure fun _ h => h

lemma Triple.weaken (h : Triple P x Q E) (hP : ∀ a, P' a → P a) (hQ : ∀ b a, Q b a → Q' b a) : Triple P' x Q' E := by
  intro a ha
  have h := h a (hP a ha)
  rcases hr : exec x a with ⟨r | r, a'⟩ <;> rw [hr] at h
  · exact h
  · exact hQ _ _ h

lemma Triple.ok (h : Triple P x Q E) (ha : P a) (hx : exec x a = (.ok b, a')) : Q b a' := by
  have h := h a ha
  rw [hx] at h
  exact h

lemma Triple.part {get : s' → s} {set : s → s' → s'} {P' E' : s' → Prop} {R : α → s' → Prop} (h : Triple P x Q E)
    (hP : ∀ whole, P' whole → P (get whole)) (hQ : ∀ whole b a, P' whole → Q b a → R b (set a whole))
    (hE : ∀ whole a, P' whole → E a → E' (set a whole)) : Triple P' (part get set x) R E' := by
  intro whole hw
  have h := h _ (hP whole hw)
  rw [exec_part]
  rcases hr : exec x (get whole) with ⟨e | b, a'⟩ <;> rw [hr] at h
  · exact hE _ _ hw h
  · exact hQ _ _ _ hw h

lemma Triple.forM {γ : Type} {g : γ → Eff ε s PUnit} (I : List γ → s → Prop) (l : List γ)
    (h : ∀ done b rest, l = done ++ b :: rest → Triple (I done) (g b) (fun _ => I (done ++ [b])) E) :
    Triple (I []) (forM l g) (fun _ => I l) E := by
  suffices hgen : ∀ done rest, l = done ++ rest → Triple (I done) (ForM.forM rest g) (fun _ => I l) E from hgen [] l rfl
  intro done rest
  induction rest generalizing done with
  | nil =>
    intro hl
    rw [List.append_nil] at hl
    subst hl
    exact Triple.pure fun _ ha => ha
  | cons b rest ih =>
  intro hl
  refine Triple.bind (h done b rest hl) fun _ => ?_
  exact ih (done ++ [b]) (by rw [hl, List.append_assoc]; rfl)

end

/-- Whenever `x` succeeds, `y` does from a related state, with the same answer and related states. -/
def Follows (R : s → s' → Prop) (x : Eff ε s α) (y : Eff ε s' α) : Prop :=
  ∀ a b, R a b → ∀ c a', exec x a = (.ok c, a') → ∃ b', exec y b = (.ok c, b') ∧ R a' b'

section

variable {R : s → s' → Prop} {y : Eff ε s' α} {g : α → Eff ε s' β}

lemma Follows.pure (b : α) : Follows R (pure b : Eff ε s α) (pure b) := by
  intro a a' h c t hx
  cases hx
  exact ⟨a', rfl, h⟩

lemma Follows.throw (e : ε) : Follows R (throw e : Eff ε s α) y := by
  intro a a' h c t hx
  cases hx

lemma Follows.guard {p q : Prop} [Decidable p] [Decidable q] (hpq : p ↔ q) (h : Follows R x y) :
    Follows R (if p then MonadExcept.throw e else x) (if q then MonadExcept.throw e else y) := by
  rw [if_congr hpq rfl rfl]
  split_ifs
  · exact Follows.throw e
  · exact h

lemma Follows.liftExcept (r : Except ε α) : Follows R (liftExcept r : Eff ε s α) (liftExcept r) := by
  cases r with
  | ok b => exact Follows.pure b
  | error e => exact Follows.throw e

lemma Follows.modify {f : s → s} {g : s' → s'} (h : ∀ a b, R a b → R (f a) (g b)) :
    Follows R (modify f : Eff ε s PUnit) (modify g) := by
  intro a b hr c t hx
  cases hx
  exact ⟨_, rfl, h a b hr⟩

lemma Follows.get_bind {f : s → Eff ε s β} {g : s' → Eff ε s' β} (h : ∀ a b, R a b → Follows R (f a) (g b)) :
    Follows R (get >>= f) (get >>= g) := by
  intro a b hr c t hx
  exact h a b hr a b hr c t hx

lemma Follows.bind (hx : Follows R x y) (hf : ∀ b, Follows R (f b) (g b)) : Follows R (x >>= f) (y >>= g) := by
  intro a b h c t hr
  obtain ⟨d, a', h1, h2⟩ := bind_ok_iff.mp hr
  obtain ⟨b', h3, h4⟩ := hx a b h d a' h1
  obtain ⟨b'', h5, h6⟩ := hf d a' b' h4 c t h2
  exact ⟨b'', bind_ok_iff.mpr ⟨d, b', h3, h5⟩, h6⟩

lemma Follows.part {t t' : Type} {R' : t → t' → Prop} {get : t → s} {set : s → t → t} {get' : t' → s'} {set' : s' → t' → t'}
    (h : Follows R x y) (hget : ∀ w w', R' w w' → R (get w) (get' w'))
    (hset : ∀ w w' a a', R' w w' → R a a' → R' (set a w) (set' a' w')) : Follows R' (part get set x) (part get' set' y) := by
  intro w w' hw c later hx
  rw [exec_part] at hx
  rcases hr : exec x (get w) with ⟨e | b, a⟩ <;> rw [hr] at hx <;> cases hx
  obtain ⟨a', h1, h2⟩ := h _ _ (hget w w' hw) _ _ hr
  exact ⟨_, by rw [exec_part, h1], hset w w' _ _ hw h2⟩

lemma Follows.forM {γ : Type} {f : γ → Eff ε s PUnit} {g : γ → Eff ε s' PUnit} (hf : ∀ b, Follows R (f b) (g b))
    (l : List γ) : Follows R (forM l f) (forM l g) := by
  induction l with
  | nil => exact Follows.pure _
  | cons b l ih => exact Follows.bind (hf b) fun _ => ih

end

end Eff

end ObfuscationKernel.Library
