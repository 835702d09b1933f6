import ObfuscationKernel.Library.Effect

/-! Accounts of what code takes and gives back: a balance on states, and rules for the code of a balance. -/

namespace ObfuscationKernel.Library.Eff

variable {ε s s' α β M : Type} [AddCommGroup M] {μ : s → M} {x : Eff ε s α} {f : α → Eff ε s β} {h k : M} {g : α → M} {g' : β → M}

/-- `x` starts with `h` to its name; if it succeeds it leaves `g` of its answer, and if it fails it leaves nothing. -/
def Owes (μ : s → M) (h : M) (x : Eff ε s α) (g : α → M) : Prop :=
  ∀ a, match exec x a with
    | (.ok b, a') => μ a' + h = μ a + g b
    | (.error _, a') => μ a' + h = μ a

lemma Owes.pure {b : α} (hb : g b = h) : Owes μ h (pure b : Eff ε s α) g := by
  intro a
  exact congrArg (μ a + ·) hb.symm

lemma Owes.throw {e : ε} : Owes μ 0 (throw e : Eff ε s α) g := by
  intro a
  exact add_zero _

lemma Owes.guard {c : Prop} [Decidable c] {e : ε} (hx : Owes μ 0 x g) : Owes μ 0 (if c then MonadExcept.throw e else x) g := by
  split
  · exact .throw
  · exact hx

lemma Owes.liftExcept {r : Except ε α} (hr : ∀ b, r = .ok b → g b = 0) : Owes μ 0 (liftExcept r : Eff ε s α) g := by
  cases r with
  | ok b => exact .pure (hr b rfl)
  | error e => exact .throw

lemma Owes.bind_of {P : α → Prop} (hx : Owes μ h x g) (hP : ∀ a b a', exec x a = (.ok b, a') → P b)
    (hf : ∀ b, P b → Owes μ (g b) (f b) g') : Owes μ h (x >>= f) g' := by
  intro a
  have hx := hx a
  rw [exec_bind]
  rcases hr : exec x a with ⟨e | b, a'⟩ <;> rw [hr] at hx
  · exact hx
  dsimp only at hx ⊢
  have hf := hf b (hP a b a' hr) a'
  rcases hr' : exec (f b) a' with ⟨e | c, a''⟩ <;> rw [hr'] at hf <;> dsimp only at hf ⊢
  · rw [← add_right_cancel_iff (a := g b), add_right_comm, hf, hx]
  · rw [← add_right_cancel_iff (a := g b), add_right_comm, hf, add_right_comm, hx]
    abel

lemma Owes.bind (hx : Owes μ h x g) (hf : ∀ b, Owes μ (g b) (f b) g') : Owes μ h (x >>= f) g' :=
  hx.bind_of (P := fun _ => True) (fun _ _ _ _ => trivial) fun b _ => hf b

lemma Owes.tryCatch {handler : ε → Eff ε s α} (hx : Owes μ h x g) (hh : ∀ e, Owes μ 0 (handler e) g) :
    Owes μ h (tryCatch x handler) g := by
  intro a
  have hx := hx a
  rw [exec_tryCatch]
  rcases hr : exec x a with ⟨e | b, a'⟩ <;> rw [hr] at hx <;> dsimp only at hx ⊢
  · have hh := hh e a'
    rcases hr' : exec (handler e) a' with ⟨e' | c, a''⟩ <;> rw [hr'] at hh <;> dsimp only at hh ⊢ <;> rw [add_zero] at hh
    · rw [hh, hx]
    · rw [hh, add_right_comm, hx]
  · exact hx

lemma Owes.get_bind {f : s → Eff ε s β} (hf : ∀ b, Owes μ h (f b) g') : Owes μ h (get >>= f) g' := by
  intro a
  exact hf a a

lemma Owes.modify {m : s → s} (hm : ∀ a, μ (m a) = μ a) : Owes μ h (modify m : Eff ε s PUnit) fun _ => h := by
  intro a
  exact congrArg (· + h) (hm a)

lemma Owes.frame (hx : Owes μ h x g) (hok : ∀ a, ∃ b a', exec x a = (.ok b, a')) : Owes μ (h + k) x fun b => g b + k := by
  intro a
  obtain ⟨b, a', hr⟩ := hok a
  have hx := hx a
  rw [hr] at hx ⊢
  dsimp only at hx ⊢
  rw [← add_assoc, hx, add_assoc]

lemma Owes.onFailure {cleanup : Eff ε s PUnit} (hx : Owes μ h x g) (hc : Owes μ k cleanup fun _ => 0) :
    Owes μ (h + k) (MonadExcept.tryCatch x fun e => cleanup >>= fun _ => MonadExcept.throw e) fun b => g b + k := by
  intro a
  have hx := hx a
  rw [exec_tryCatch]
  rcases hr : exec x a with ⟨e | b, a'⟩ <;> rw [hr] at hx <;> dsimp only at hx ⊢
  · have hc := hc a'
    rw [exec_bind]
    rcases hr' : exec cleanup a' with ⟨e' | u, a''⟩ <;> rw [hr'] at hc <;> dsimp only [exec_throw] at hc ⊢
    · rw [add_comm h, ← add_assoc, hc, hx]
    · rw [add_zero] at hc
      rw [add_comm h, ← add_assoc, hc, hx]
  · rw [← add_assoc, hx, add_assoc]

lemma Owes.part {get : s' → s} {set : s → s' → s'} {ν : s' → M} {x : Eff ε s α}
    (hset : ∀ whole a, ν (set a whole) + μ (get whole) = ν whole + μ a) (hx : Owes μ h x g) : Owes ν h (part get set x) g := by
  intro whole
  have hx := hx (get whole)
  rw [exec_part]
  have hs := hset whole (exec x (get whole)).2
  rcases hr : exec x (get whole) with ⟨e | b, a'⟩ <;> rw [hr] at hx hs <;> dsimp only at hx hs ⊢
  · rw [← add_right_cancel_iff (a := μ (get whole)), add_right_comm, hs, add_assoc, hx]
  · rw [← add_right_cancel_iff (a := μ (get whole)), add_right_comm, hs, add_assoc, hx]
    abel

lemma Owes.weaken {g₁ g₂ : α → M} (hx : Owes μ h x g₁) (hg : ∀ b, g₁ b = g₂ b) : Owes μ h x g₂ := by
  rw [← funext hg]
  exact hx

lemma Owes.of_eq {h' : M} (heq : h = h') (hx : Owes μ h x g) : Owes μ h' x g := heq ▸ hx

lemma Owes.map {m : α → β} (hx : Owes μ h x g) (hm : ∀ b, g' (m b) = g b) : Owes μ h (m <$> x) g' := by
  exact hx.bind fun b => .pure (hm b)

lemma owes_iff : Owes μ h x g ↔ ∀ m, Triple (fun a => μ a = m + h) x (fun b a => μ a = m + g b) fun a => μ a = m := by
  constructor
  · intro hx m a ha
    have hx := hx a
    rcases hr : exec x a with ⟨e | b, a'⟩ <;> rw [hr] at hx <;> dsimp only at hx ⊢ <;> rw [ha] at hx
    · exact add_right_cancel hx
    · rw [add_right_comm] at hx
      exact add_right_cancel hx
  intro hx a
  have hx := hx (μ a - h) a (by rw [sub_add_cancel])
  rcases hr : exec x a with ⟨e | b, a'⟩ <;> rw [hr] at hx <;> dsimp only at hx ⊢ <;> rw [hx]
  · exact sub_add_cancel _ _
  · abel

end ObfuscationKernel.Library.Eff
