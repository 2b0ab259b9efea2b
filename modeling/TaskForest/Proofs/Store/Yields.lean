import TaskForest.Hierarchy.Error

/-!
What a step on a state leads to, success and failure side by side, and how that is put together along a
sequence of steps. A failure keeps the state that it was raised in, so both sides speak of the state.
-/

namespace TaskForest

variable {ε ε' σ α β : Type} {m : EStateM ε σ α} {s s' : σ}
  {post : α → σ → Prop} {fail : ε → σ → Prop}

/-- From `s`, a success satisfies `post` and a failure satisfies `fail`. -/
def Yields (m : EStateM ε σ α) (s : σ) (post : α → σ → Prop) (fail : ε → σ → Prop) : Prop :=
  match m s with
  | .ok a s' => post a s'
  | .error e s' => fail e s'

/-- The state that a step leaves, whether it succeeds or not. -/
def leaves (m : EStateM ε σ α) (s : σ) : σ :=
  match m s with
  | .ok _ s' => s'
  | .error _ s' => s'

section Steps

variable {f : α → EStateM ε σ β} {e : ε}

theorem bind_of_ok {a : α} (h : m s = .ok a s') : (m >>= f) s = f a s' := by
  simp only [bind, EStateM.bind, h]

theorem bind_of_error (h : m s = .error e s') : (m >>= f) s = .error e s' := by
  simp only [bind, EStateM.bind, h]

/-- A sequence fails by its first step or by what follows it. -/
theorem error_of_bind (h : (m >>= f) s = .error e s') :
    m s = .error e s' ∨ ∃ a s₁, m s = .ok a s₁ ∧ f a s₁ = .error e s' := by
  cases k : m s with
  | ok a s₁ => exact .inr ⟨a, s₁, rfl, (bind_of_ok k).symm.trans h⟩
  | error e₁ s₁ =>
      rw [bind_of_error k] at h
      cases h
      exact .inl rfl

theorem error_of_map {g : α → β} (h : (g <$> m) s = .error e s') : m s = .error e s' := by
  simp only [Functor.map, EStateM.map] at h
  cases k : m s with
  | ok a s₁ =>
      rw [k] at h
      cases h
  | error e₁ s₁ =>
      rw [k] at h
      cases h
      rfl

theorem map_of_ok {g : α → β} {a : α} (h : m s = .ok a s') : (g <$> m) s = .ok (g a) s' := by
  simp only [Functor.map, EStateM.map, h]

theorem map_of_error {g : α → β} (h : m s = .error e s') : (g <$> m) s = .error e s' := by
  simp only [Functor.map, EStateM.map, h]

theorem map_congr_at {m' : EStateM ε σ α} {g : α → β} (h : m s = m' s) : (g <$> m) s = (g <$> m') s := by
  simp only [Functor.map, EStateM.map, h]

theorem lift_of_ok {m : StoreM σ α} {a : α} (h : m s = .ok a s') :
    (liftM m : HierarchyM σ α) s = .ok a s' := by
  change m.adaptExcept HierarchyError.store s = _
  simp only [EStateM.adaptExcept, h]

theorem lift_of_error {m : StoreM σ α} {e : StoreError} (h : m s = .error e s') :
    (liftM m : HierarchyM σ α) s = .error (.store e) s' := by
  change m.adaptExcept HierarchyError.store s = _
  simp only [EStateM.adaptExcept, h]

end Steps

namespace Yields

theorem of_ok {a : α} (h : Yields m s post fail) (k : m s = .ok a s') : post a s' := by
  simpa only [Yields, k] using h

theorem of_error {e : ε} (h : Yields m s post fail) (k : m s = .error e s') : fail e s' := by
  simpa only [Yields, k] using h

theorem intro (ok : ∀ a s', m s = .ok a s' → post a s')
    (error : ∀ e s', m s = .error e s' → fail e s') : Yields m s post fail := by
  rw [Yields]
  cases h : m s with
  | ok a s' => exact ok a s' h
  | error e s' => exact error e s' h

theorem of_eq_ok {a : α} (k : m s = .ok a s') (h : post a s') : Yields m s post fail := by
  simpa only [Yields, k] using h

theorem mono {post' : α → σ → Prop} {fail' : ε → σ → Prop} (h : Yields m s post fail)
    (hp : ∀ a s', post a s' → post' a s') (hf : ∀ e s', fail e s' → fail' e s') :
    Yields m s post' fail' :=
  .intro (fun a s' k => hp a s' (h.of_ok k)) (fun e s' k => hf e s' (h.of_error k))

/-- Two things said of the same step. -/
theorem and {post' : α → σ → Prop} {fail' : ε → σ → Prop} (h : Yields m s post fail)
    (k : Yields m s post' fail') :
    Yields m s (fun a s' => post a s' ∧ post' a s') (fun e s' => fail e s' ∧ fail' e s') :=
  .intro (fun _ _ ok => ⟨h.of_ok ok, k.of_ok ok⟩) (fun _ _ failed => ⟨h.of_error failed, k.of_error failed⟩)

theorem leaves {P : σ → Prop} (h : Yields m s (fun _ s' => P s') (fun _ s' => P s')) :
    P (leaves m s) := by
  rw [TaskForest.leaves]
  cases k : m s with
  | ok a s' => exact h.of_ok k
  | error e s' => exact h.of_error k

theorem pure {a : α} (h : post a s) : Yields (pure a) s post fail := h

theorem throw {e : ε} (h : fail e s) : Yields (throw e) s post fail := h

theorem modify {f : σ → σ} {post : Unit → σ → Prop} (h : post () (f s)) :
    Yields (modify f : EStateM ε σ Unit) s post fail := h

theorem bind {f : α → EStateM ε σ β} {post : β → σ → Prop}
    (h : Yields m s (fun a s' => Yields (f a) s' post fail) fail) : Yields (m >>= f) s post fail := by
  rw [Yields] at h ⊢
  simp only [Bind.bind, EStateM.bind]
  cases k : m s with
  | ok a s' => simpa only [k, Yields] using h
  | error e s' => simpa only [k] using h

/-- What is done with the state as it is. -/
theorem read {f : σ → EStateM ε σ α} (h : Yields (f s) s post fail) :
    Yields (MonadState.get >>= f) s post fail := h

theorem map {f : α → β} {post : β → σ → Prop}
    (h : Yields m s (fun a s' => post (f a) s') fail) : Yields (f <$> m) s post fail := by
  rw [Yields] at h ⊢
  simp only [Functor.map, EStateM.map]
  cases k : m s with
  | ok a s' => simpa only [k] using h
  | error e s' => simpa only [k] using h

theorem adapt {wrap : ε → ε'} {fail : ε' → σ → Prop}
    (h : Yields m s post (fun e s' => fail (wrap e) s')) :
    Yields (m.adaptExcept wrap) s post fail := by
  rw [Yields, EStateM.adaptExcept] at *
  cases k : m s with
  | ok a s' => simpa only [k] using h
  | error e s' => simpa only [k] using h

theorem lift {m : StoreM σ α} {fail : HierarchyError → σ → Prop}
    (h : Yields m s post (fun e s' => fail (.store e) s')) :
    Yields (liftM m : HierarchyM σ α) s post fail :=
  adapt h

theorem ofExcept {x : Except ε α} (ok : ∀ a, x = .ok a → post a s)
    (error : ∀ e, x = .error e → fail e s) :
    Yields (MonadExcept.ofExcept x : EStateM ε σ α) s post fail := by
  cases x with
  | ok a => exact ok a rfl
  | error e => exact error e rfl

/-- A check that is passed or fails, in front of the steps that follow it. -/
theorem check {c : Prop} [Decidable c] {e : ε} {rest : Unit → EStateM ε σ β} {post : β → σ → Prop}
    (bad : c → fail e s) (good : ¬ c → Yields (rest ()) s post fail) :
    Yields (if c then (MonadExcept.throw e >>= rest) else rest ()) s post fail := by
  split
  · next h => exact bad h
  · next h => exact good h

end Yields
end TaskForest
