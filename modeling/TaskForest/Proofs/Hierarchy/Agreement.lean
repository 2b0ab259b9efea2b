import TaskForest.Hierarchy.Delete
import TaskForest.Hierarchy.Move
import TaskForest.Hierarchy.TreeView

/-!
Two stores that agree: from related states every operation gives the same answer, or fails in the same way, and
leaves related states. The operations on the hierarchy are put together from those of the store, so stores that
agree on the latter agree on the former.
-/

namespace TaskForest

variable {ε ε' σ τ α β : Type} {R : σ → τ → Prop} {P : α → Prop} {Q : β → Prop}

/-- The same answer, of which `P` holds, or the same failure. -/
inductive Alike (R : σ → τ → Prop) (P : α → Prop) : EStateM.Result ε σ α → EStateM.Result ε τ α → Prop
  | ok {a : α} {s : σ} {t : τ} (answer : P a) (states : R s t) : Alike R P (.ok a s) (.ok a t)
  | error {e : ε} {s : σ} {t : τ} (states : R s t) : Alike R P (.error e s) (.error e t)

theorem Alike.of_ok {a : α} {s : σ} {result : EStateM.Result ε τ α} (h : Alike R P (.ok a s) result) :
    ∃ t, result = .ok a t ∧ P a ∧ R s t := by
  cases h with
  | ok answer states => exact ⟨_, rfl, answer, states⟩

theorem Alike.of_error {e : ε} {s : σ} {result : EStateM.Result ε τ α} (h : Alike R P (.error e s) result) :
    ∃ t, result = .error e t ∧ R s t := by
  cases h with
  | error states => exact ⟨_, rfl, states⟩

def Agree (R : σ → τ → Prop) (P : α → Prop) (m : EStateM ε σ α) (n : EStateM ε τ α) : Prop :=
  ∀ s t, R s t → Alike R P (m s) (n t)

/-- What is asked of an answer of which nothing is asked. -/
abbrev anything : α → Prop := fun _ => True

namespace Agree

variable {m : EStateM ε σ α} {n : EStateM ε τ α}

theorem pure {a : α} (h : P a) : Agree R P (Pure.pure a : EStateM ε σ α) (Pure.pure a : EStateM ε τ α) :=
  fun _ _ states => .ok h states

theorem throw (e : ε) : Agree R P (MonadExcept.throw e : EStateM ε σ α) (MonadExcept.throw e : EStateM ε τ α) :=
  fun _ _ states => .error states

theorem bind {f : α → EStateM ε σ β} {g : α → EStateM ε τ β} (h : Agree R P m n)
    (next : ∀ a, P a → Agree R Q (f a) (g a)) : Agree R Q (m >>= f) (n >>= g) := by
  intro s t states
  have first := h s t states
  simp only [Bind.bind, EStateM.bind]
  generalize m s = left at first ⊢
  generalize n t = right at first ⊢
  cases first with
  | ok answer states => exact next _ answer _ _ states
  | error states => exact .error states

theorem map {f : α → β} (h : Agree R P m n) (answer : ∀ a, P a → Q (f a)) :
    Agree R Q (f <$> m) (f <$> n) := by
  intro s t states
  have first := h s t states
  simp only [Functor.map, EStateM.map]
  generalize m s = left at first ⊢
  generalize n t = right at first ⊢
  cases first with
  | ok holds states => exact .ok (answer _ holds) states
  | error states => exact .error states

theorem lift {m : StoreM σ α} {n : StoreM τ α} (h : Agree R P m n) :
    Agree R P (liftM m : HierarchyM σ α) (liftM n : HierarchyM τ α) := by
  intro s t states
  have first := h s t states
  change Alike R P (m.adaptExcept HierarchyError.store s) (n.adaptExcept HierarchyError.store t)
  simp only [EStateM.adaptExcept]
  generalize m s = left at first ⊢
  generalize n t = right at first ⊢
  cases first with
  | ok holds states => exact .ok holds states
  | error states => exact .error states

/-- A check in front of steps, which is made on both sides. -/
theorem check {c : Prop} [Decidable c] {e : ε} {f : Unit → EStateM ε σ α} {g : Unit → EStateM ε τ α}
    (good : ¬ c → Agree R P (f ()) (g ())) :
    Agree R P (if c then (MonadExcept.throw e >>= f) else f ())
      (if c then (MonadExcept.throw e >>= g) else g ()) := by
  intro s t states
  split
  · exact .error states
  · next h => exact good h s t states

end Agree

/-- Stores of which the operations agree. The tasks that are written have to be `Fit`, which lasts when they
are moved, and those that are found are. -/
structure Agreement [TaskStore σ] [TaskStore τ] (R : σ → τ → Prop) (Fit : Task → Prop) : Prop where
  get (id : String) : Agree R (fun found => ∀ t, found = some t → Fit t)
    (TaskStore.get id : StoreM σ _) (TaskStore.get id : StoreM τ _)
  create (t : Task) (fit : Fit t) :
    Agree R anything (TaskStore.create t : StoreM σ _) (TaskStore.create t : StoreM τ _)
  update (t : Task) (fit : Fit t) :
    Agree R anything (TaskStore.update t : StoreM σ _) (TaskStore.update t : StoreM τ _)
  query (selection : Selection) (order : SortOrder) : Agree R anything
    (TaskStore.query selection order : StoreM σ _) (TaskStore.query selection order : StoreM τ _)
  deleteMany (ids : List String) (guarded : Bool) : Agree R anything
    (TaskStore.deleteMany ids guarded : StoreM σ _) (TaskStore.deleteMany ids guarded : StoreM τ _)
  moved {t : Task} (fit : Fit t) (parent : Option String) (now : Int64) :
    Fit { t with parent := parent, updatedAt := now }

namespace Agreement

variable [TaskStore σ] [TaskStore τ] {Fit : Task → Prop} (agrees : Agreement R Fit)
include agrees

theorem climb (start : String) (room : Nat) (seen : List String) (parent : Option String) :
    Agree R anything (Ancestors.climb start room seen parent : HierarchyM σ _)
      (Ancestors.climb start room seen parent : HierarchyM τ _) := by
  induction room generalizing seen parent with
  | zero =>
      unfold Ancestors.climb
      cases parent with
      | none => exact .pure trivial
      | some id =>
          refine .bind (.lift (agrees.get id)) fun found _ => ?_
          cases found with
          | none => exact .pure trivial
          | some task => exact .check fun _ => .throw _
  | succ room ih =>
      unfold Ancestors.climb
      cases parent with
      | none => exact .pure trivial
      | some id =>
          refine .bind (.lift (agrees.get id)) fun found _ => ?_
          cases found with
          | none => exact .pure trivial
          | some task =>
              exact .check fun _ => .bind (ih (id :: seen) task.parent) fun _ _ => .pure trivial

theorem ancestors (maxDepth : Nat) (id : String) :
    Agree R anything (ancestors maxDepth id : HierarchyM σ _) (ancestors maxDepth id : HierarchyM τ _) :=
  .bind (.lift (agrees.get id)) fun _ _ => agrees.climb _ _ _ _

/-- The walks make the same visits and end in the same way. -/
theorem drain (maxDepth : Nat) (visited : List String) (stack : List Entry) {s : σ} {t : τ} (states : R s t) :
    (Walk.drain maxDepth visited stack s).1 = (Walk.drain maxDepth visited stack t).1 ∧
      R (Walk.drain maxDepth visited stack s).2 (Walk.drain maxDepth visited stack t).2 := by
  fun_induction Walk.drain maxDepth visited stack s generalizing t with
  | case1 =>
      rw [Walk.drain]
      exact ⟨rfl, states⟩
  | case2 visited s e rest seen =>
      rw [Walk.drain, if_pos seen]
      exact ⟨rfl, states⟩
  | case3 visited s e rest new le err s' k =>
      have asked := agrees.query (.childrenOf e.id) .oldestFirst s t states
      rw [← childrenOf, k] at asked
      obtain ⟨t', k', states⟩ := asked.of_error
      rw [← childrenOf] at k'
      rw [Walk.drain, if_neg new, dif_pos le, k']
      exact ⟨rfl, states⟩
  | case4 visited s e rest new le children s' k w s'' drained ih =>
      have asked := agrees.query (.childrenOf e.id) .oldestFirst s t states
      rw [← childrenOf, k] at asked
      obtain ⟨t', k', _, states⟩ := asked.of_ok
      rw [← childrenOf] at k'
      obtain ⟨same, states⟩ := ih states
      rw [drained] at same states
      rw [Walk.drain, if_neg new, dif_pos le, k']
      exact ⟨congrArg (Walk.visiting _) same, states⟩
  | case5 visited s e rest new deep =>
      rw [Walk.drain, if_neg new, dif_neg deep]
      exact ⟨rfl, states⟩

theorem fullWalk (maxDepth : Nat) (root : String) :
    Agree R anything (fullWalk maxDepth root : HierarchyM σ _) (fullWalk maxDepth root : HierarchyM τ _) := by
  intro s t states
  obtain ⟨same, states⟩ := agrees.drain maxDepth [] [⟨root, 1⟩] states
  simp only [TaskForest.fullWalk, walk]
  generalize Walk.drain maxDepth [] [⟨root, 1⟩] s = left at same states ⊢
  generalize Walk.drain maxDepth [] [⟨root, 1⟩] t = right at same states ⊢
  obtain ⟨w, s'⟩ := left
  obtain ⟨w', t'⟩ := right
  obtain rfl : w = w' := same
  cases failure : w.failure with
  | none => exact .ok trivial states
  | some e => exact .error states

theorem collect (maxDepth : Nat) (root : String) :
    Agree R anything (collect maxDepth root : HierarchyM σ _) (collect maxDepth root : HierarchyM τ _) :=
  .map (agrees.fullWalk maxDepth root) fun _ _ => trivial

theorem loadTree (maxDepth : Nat) (root : String) :
    Agree R anything (loadTree maxDepth root : HierarchyM σ _) (loadTree maxDepth root : HierarchyM τ _) := by
  refine .bind (.lift (agrees.get root)) fun found _ => ?_
  cases found with
  | none => exact .pure trivial
  | some task => exact .bind (agrees.fullWalk maxDepth root) fun _ _ => .pure trivial

theorem moveCheck (maxDepth : Nat) (id parent : String) :
    Agree R anything (Move.check maxDepth id parent : HierarchyM σ _)
      (Move.check maxDepth id parent : HierarchyM τ _) := by
  unfold Move.check
  refine .check fun _ => .bind (.lift (agrees.get parent)) fun found _ => .check fun _ => ?_
  refine .bind (agrees.ancestors maxDepth parent) fun above _ => .check fun _ => ?_
  refine .bind (agrees.collect maxDepth id) fun subtree _ => ?_
  split
  · exact .throw _
  · exact .pure trivial

theorem reparent (maxDepth : Nat) (now : Int64) (id : String) (parent : Option String) :
    Agree R anything (reparent maxDepth now id parent : HierarchyM σ _)
      (reparent maxDepth now id parent : HierarchyM τ _) := by
  refine .bind (.lift (agrees.get id)) fun found fit => ?_
  cases found with
  | none => exact .throw _
  | some task =>
      have write := agrees.update _ (agrees.moved (fit task rfl) parent now)
      cases parent with
      | none => exact .bind (.lift write) fun _ _ => .pure trivial
      | some p =>
          exact .bind (agrees.moveCheck maxDepth id p) fun _ _ =>
            .bind (.lift write) fun _ _ => .pure trivial

theorem deleteAll (guarded : Bool) (ids : List String) :
    Agree R anything (deleteAll guarded ids : HierarchyM σ _) (deleteAll guarded ids : HierarchyM τ _) := by
  intro s t states
  cases ids with
  | nil => exact .ok trivial states
  | cons id rest =>
      have batch := agrees.deleteMany (id :: rest) guarded s t states
      unfold TaskForest.deleteAll
      generalize TaskStore.deleteMany (id :: rest) guarded s = left at batch ⊢
      generalize TaskStore.deleteMany (id :: rest) guarded t = right at batch ⊢
      cases batch with
      | ok _ states => exact .ok trivial states
      | @error e _ _ states => cases e <;> exact .error states

theorem delete (limits : Limits) (root : String) :
    Agree R anything (delete limits root : HierarchyM σ _) (delete limits root : HierarchyM τ _) :=
  .bind (agrees.collect limits.maxDepth root) fun _ _ =>
    .bind (agrees.deleteAll _ _) fun _ _ => .pure trivial

end Agreement
end TaskForest
