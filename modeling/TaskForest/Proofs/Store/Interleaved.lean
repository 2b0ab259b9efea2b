import TaskForest.Hierarchy.Delete
import TaskForest.Proofs.Store.Keeping

/-!
A store that other clients call between what an operation reads and the batch of deletes that it makes. Their
calls may fail, and a call that fails leaves the state that it leaves; the batch is made on what is there
then. Up to the batch an operation sees the store alone.
-/

namespace TaskForest

/-- A call of another client that may change the store. -/
inductive Call where
  | create (task : Task)
  | update (task : Task)
  | deleteMany (ids : List String) (guarded : Bool)

namespace Call

variable {σ : Type} [TaskStore σ]

def run : Call → StoreM σ Unit
  | create t => TaskStore.create t
  | update t => TaskStore.update t
  | deleteMany ids guarded => do
    let _ ← TaskStore.deleteMany ids guarded

/-- The state after one call and the next, whether they succeed or not. -/
def allAfter (s : σ) (calls : List Call) : σ := calls.foldl (fun s c => leaves c.run s) s

end Call

structure Interleaved (σ : Type) where
  store : σ
  /-- The calls that come right before the next batch of deletes. -/
  calls : List Call := []

namespace Interleaved

variable {ε σ α : Type}

def withCalls (calls : List Call) : EStateM.Result ε σ α → EStateM.Result ε (Interleaved σ) α
  | .ok a s => .ok a ⟨s, calls⟩
  | .error e s => .error e ⟨s, calls⟩

theorem error_of_withCalls {calls : List Call} {r : EStateM.Result ε σ α} {e : ε} {left : Interleaved σ}
    (h : withCalls calls r = .error e left) : r = .error e left.store := by
  cases r with
  | ok a s => cases h
  | error e₁ s =>
      cases h
      rfl

/-- An operation on the store alone. -/
def onStore (m : StoreM σ α) : StoreM (Interleaved σ) α := fun c => withCalls c.calls (m c.store)

variable [TaskStore σ]

def deleteMany (ids : List String) (guarded : Bool) : StoreM (Interleaved σ) Nat := do
  modify fun c => ⟨Call.allAfter c.store c.calls, []⟩
  onStore (TaskStore.deleteMany ids guarded)

instance : TaskStore (Interleaved σ) where
  get id := onStore (TaskStore.get id)
  create t := onStore (TaskStore.create t)
  update t := onStore (TaskStore.update t)
  query selection order := onStore (TaskStore.query selection order)
  deleteMany := deleteMany

variable {calls : List Call}

theorem drain_eq (maxDepth : Nat) (visited : List String) (stack : List Entry) (s : σ) :
    Walk.drain maxDepth visited stack (⟨s, calls⟩ : Interleaved σ) =
      ((Walk.drain maxDepth visited stack s).1, ⟨(Walk.drain maxDepth visited stack s).2, calls⟩) := by
  fun_induction Walk.drain maxDepth visited stack s with
  | case1 => rw [Walk.drain]
  | case2 visited s e rest seen => rw [Walk.drain, if_pos seen]
  | case3 visited s e rest new le err s' k =>
      have answer : childrenOf e.id (⟨s, calls⟩ : Interleaved σ) = .error err ⟨s', calls⟩ := by
        change withCalls calls (childrenOf e.id s) = _
        rw [k]
        rfl
      rw [Walk.drain, if_neg new, dif_pos le, answer]
  | case4 visited s e rest new le children s' k w s'' drained ih =>
      have answer : childrenOf e.id (⟨s, calls⟩ : Interleaved σ) = .ok children ⟨s', calls⟩ := by
        change withCalls calls (childrenOf e.id s) = _
        rw [k]
        rfl
      rw [Walk.drain, if_neg new, dif_pos le, answer]
      simp only [ih, drained]
  | case5 visited s e rest new deep => rw [Walk.drain, if_neg new, dif_neg deep]

theorem collect_eq (maxDepth : Nat) (root : String) (s : σ) (calls : List Call) :
    collect maxDepth root (⟨s, calls⟩ : Interleaved σ) = withCalls calls (collect maxDepth root s) := by
  have walked : fullWalk maxDepth root (⟨s, calls⟩ : Interleaved σ) =
      withCalls calls (fullWalk maxDepth root s) := by
    unfold fullWalk walk
    rw [drain_eq]
    generalize Walk.drain maxDepth [] [⟨root, 1⟩] s = result
    obtain ⟨w, s'⟩ := result
    dsimp only
    cases w.failure <;> rfl
  simp only [collect, Functor.map, EStateM.map, walked]
  cases fullWalk maxDepth root s <;> rfl

theorem deleteAll_eq {guarded : Bool} {ids : List String} (some_ids : ids ≠ []) (s : σ)
    (calls : List Call) :
    deleteAll guarded ids (⟨s, calls⟩ : Interleaved σ) =
      withCalls [] (deleteAll guarded ids (Call.allAfter s calls)) := by
  cases ids with
  | nil => exact absurd rfl some_ids
  | cons id rest =>
      have batch : TaskStore.deleteMany (id :: rest) guarded (⟨s, calls⟩ : Interleaved σ) =
          withCalls [] (TaskStore.deleteMany (id :: rest) guarded (Call.allAfter s calls)) := rfl
      simp only [deleteAll, batch]
      cases TaskStore.deleteMany (id :: rest) guarded (Call.allAfter s calls) with
      | ok removed s' => rfl
      | error e s' => cases e <;> rfl

theorem delete_eq {limits : Limits} {root : String} {s s' : σ} {subtree : Subtree}
    (walked : preview limits root s = .ok subtree s') (some_ids : subtree.leavesFirst ≠ [])
    (calls : List Call) :
    delete limits root (⟨s, calls⟩ : Interleaved σ) =
      withCalls [] ((do
        let deleted ← deleteAll limits.orphanGuard subtree.leavesFirst
        pure ⟨root, subtree.ids.length, deleted, subtree.depth⟩ : HierarchyM σ Report)
          (Call.allAfter s' calls)) := by
  have read : preview limits root (⟨s, calls⟩ : Interleaved σ) = .ok subtree ⟨s', calls⟩ := by
    rw [preview]
    rw [collect_eq, ← preview, walked]
    rfl
  simp only [delete, bind, EStateM.bind, read, deleteAll_eq some_ids]
  cases deleteAll limits.orphanGuard subtree.leavesFirst (Call.allAfter s' calls) <;> rfl

end Interleaved

/-- What every call keeps is kept by all of them. -/
theorem Governs.allAfter {σ : Type} [TaskStore σ] {P : σ → Prop} (governs : Governs P P) (calls : List Call)
    {s : σ} (h : P s) : P (Call.allAfter s calls) := by
  have one : ∀ c : Call, ∀ s : σ, P s → P (leaves c.run s) := fun c s h => by
    refine Yields.leaves ?_
    cases c with
    | create t => exact governs.create t h
    | update t => exact governs.update t h
    | deleteMany ids guarded => exact .bind (governs.deleteMany ids guarded h)
  induction calls generalizing s with
  | nil => exact h
  | cons c rest ih => exact ih (one c s h)

end TaskForest
