/-!
# Actions on a state

Two things that can be said of an action without running it: that it leaves the state as it is
(`Keeps`), and which results it can have (`Yields`). Both follow the way in which actions are put
together. On a machine where a run may end without a result, what can be said is what a run comes to
if it comes to anything (`Comes`), and this can be taken apart in the same way.
-/

namespace EntitySchema

variable {σ α β : Type}

/-! ## Actions that change nothing -/

/-- An action that leaves the state as it is. -/
def Keeps (a : StateM σ α) : Prop := ∀ s, (a.run s).2 = s

namespace Keeps

variable {a : StateM σ α} {f : α → StateM σ β}

theorem pure (x : α) : Keeps (Pure.pure x : StateM σ α) := fun _ => rfl

theorem bind (ha : Keeps a) (hf : ∀ x, Keeps (f x)) : Keeps (a >>= f) := by
  intro s
  show ((f (a.run s).1).run (a.run s).2).2 = s
  rw [hf, ha]

/-- What follows an action that changes nothing starts where that action started. -/
theorem run_bind (ha : Keeps a) (f : α → StateM σ β) (s : σ) :
    (a >>= f).run s = (f (a.run s).1).run s := by
  show (f (a.run s).1).run (a.run s).2 = _
  rw [ha]

end Keeps

/-! ## Results of an action -/

/-- An action with results of this kind only. -/
def Yields (P : α → Prop) (a : StateM σ α) : Prop := ∀ s, P (a.run s).1

namespace Yields

variable {P : α → Prop} {Q : β → Prop} {a : StateM σ α} {f : α → StateM σ β}

theorem pure {x : α} (h : P x) : Yields P (Pure.pure x : StateM σ α) := fun _ => h

theorem bind (ha : Yields P a) (hf : ∀ x, P x → Yields Q (f x)) : Yields Q (a >>= f) :=
  fun s => hf _ (ha s) _

/-- An action of which nothing is known counts only through what follows it. -/
theorem bind_any (hf : ∀ x, Yields Q (f x)) : Yields Q (a >>= f) :=
  fun _ => hf _ _

end Yields

/-! ## Runs that may come to nothing -/

/-- Machines on which a run comes to one result at most, and only if each part of it comes to one. -/
class Stepwise (n : Type → Type) [Monad n] : Prop where
  pure_inj : ∀ {α : Type} {x y : α}, (Pure.pure x : n α) = Pure.pure y → x = y
  of_bind : ∀ {α β : Type} {a : n α} {f : α → n β} {y : β},
    a >>= f = Pure.pure y → ∃ x, a = Pure.pure x ∧ f x = Pure.pure y

instance : Stepwise Id where
  pure_inj h := h
  of_bind h := ⟨_, rfl, h⟩

instance : Stepwise Option where
  pure_inj h := Option.some.inj h
  of_bind h := Option.bind_eq_some_iff.mp h

section Comes

variable {n : Type → Type} [Monad n] {a : StateT σ n α} {f : α → StateT σ n β} {s s₁ s₂ : σ}
  {x x' : α} {y : β}

/-- The action, begun in a state, comes to this result and leaves this state. -/
def Comes (a : StateT σ n α) (s : σ) (x : α) (s' : σ) : Prop := a.run s = Pure.pure (x, s')

/-- Without a machine that could end it, a run comes to what it comes to. -/
theorem comes_run (a : StateM σ α) (s : σ) : Comes a s (a.run s).1 (a.run s).2 := rfl

theorem Comes.run_eq {a : StateM σ α} (h : Comes a s x s₁) : a.run s = (x, s₁) := h

/-- On a machine a run comes to what it ends with, if it is not ended. -/
theorem Comes.run_some {a : StateT σ Option α} (h : Comes a s x s₁) : a.run s = some (x, s₁) := h

namespace Comes

theorem pure [LawfulMonad n] (x : α) (s : σ) : Comes (Pure.pure x : StateT σ n α) s x s :=
  StateT.run_pure x s

theorem bind [LawfulMonad n] (ha : Comes a s x s₁) (hf : Comes (f x) s₁ y s₂) :
    Comes (a >>= f) s y s₂ := by
  unfold Comes at *
  rw [StateT.run_bind, ha, pure_bind, hf]

theorem map [LawfulMonad n] (ha : Comes a s x s₁) (g : α → β) : Comes (g <$> a) s (g x) s₁ := by
  rw [← bind_pure_comp]
  exact ha.bind (.pure _ _)

variable [Stepwise n]

theorem unique (h : Comes a s x s₁) (h' : Comes a s x' s₂) : x = x' ∧ s₁ = s₂ :=
  Prod.mk.inj (Stepwise.pure_inj (h.symm.trans h'))

theorem of_pure [LawfulMonad n] (h : Comes (Pure.pure x : StateT σ n α) s x' s₁) :
    x' = x ∧ s₁ = s := h.unique (.pure x s)

/-- What a run comes to that has two parts, the first one comes to something from which the second
one gets there. -/
theorem of_bind [LawfulMonad n] (h : Comes (a >>= f) s y s₂) :
    ∃ x s₁, Comes a s x s₁ ∧ Comes (f x) s₁ y s₂ := by
  unfold Comes at h
  rw [StateT.run_bind] at h
  obtain ⟨⟨x, s₁⟩, ha, hf⟩ := Stepwise.of_bind h
  exact ⟨x, s₁, ha, hf⟩

end Comes

/-! ## Actions that come to something -/

/-- From every state, the action comes to a result. -/
def Answered (a : StateT σ n α) : Prop := ∀ s, ∃ x s', Comes a s x s'

namespace Answered

variable [LawfulMonad n]

theorem pure (x : α) : Answered (Pure.pure x : StateT σ n α) := fun s => ⟨x, s, .pure x s⟩

theorem bind (ha : Answered a) (hf : ∀ x, Answered (f x)) : Answered (a >>= f) := by
  intro s
  obtain ⟨x, s₁, hfirst⟩ := ha s
  obtain ⟨y, s₂, hrest⟩ := hf x s₁
  exact ⟨y, s₂, hfirst.bind hrest⟩

end Answered

end Comes

end EntitySchema
