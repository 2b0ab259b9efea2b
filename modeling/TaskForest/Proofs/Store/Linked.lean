import TaskForest.Proofs.Pointers.Change
import TaskForest.Proofs.Store.Yields
import TaskForest.Hierarchy.Walk

/-!
What operations on the hierarchy rely on, said of the parent pointers that a store holds: reading tells
them and leaves them as they are, a write that succeeds changes them as it should, and one that fails does
not change them. Reading may fail. Both the store in memory and the table of rows are such stores.
-/

namespace TaskForest

/-- What is found under an id, as the pointers have it. -/
def Pointers.Shows (f : Pointers) (id : String) (found : Option Task) : Prop :=
  f.entry id = found.map Task.parent ∧ ∀ t, found = some t → t.id = id

/-- The stored children of an id, each once. -/
def Pointers.ShowsChildren (f : Pointers) (id : String) (children : List Task) : Prop :=
  (children.map Task.id).Nodup ∧ ∀ x, x ∈ children.map Task.id ↔ f.Step x id

class LinkedStore (σ : Type) [TaskStore σ] where
  pointers : σ → Pointers
  get_yields (id : String) (s : σ) :
    Yields (TaskStore.get id) s
      (fun found s' => pointers s' = pointers s ∧ (pointers s).Shows id found)
      (fun _ s' => pointers s' = pointers s)
  query_yields (selection : Selection) (order : SortOrder) (s : σ) :
    Yields (TaskStore.query selection order) s
      (fun _ s' => pointers s' = pointers s)
      (fun _ s' => pointers s' = pointers s)
  childrenOf_shows (id : String) (s : σ) :
    Yields (childrenOf id) s (fun found _ => (pointers s).ShowsChildren id found) (fun _ _ => True)
  create_yields (t : Task) (s : σ) :
    Yields (TaskStore.create t) s
      (fun _ s' => ¬ (pointers s).Stored t.id ∧ pointers s' = (pointers s).put t.id t.parent)
      (fun _ s' => pointers s' = pointers s)
  update_yields (t : Task) (s : σ) :
    Yields (TaskStore.update t) s
      (fun _ s' => pointers s' = (pointers s).put t.id t.parent)
      (fun _ s' => pointers s' = pointers s)
  deleteMany_yields (ids : List String) (guarded : Bool) (s : σ) :
    Yields (TaskStore.deleteMany ids guarded) s
      (fun _ s' => pointers s' = (pointers s).without ids)
      (fun _ s' => pointers s' = pointers s)

namespace Pointers.Shows

variable {f : Pointers} {id : String}

theorem stored {t : Task} (h : f.Shows id (some t)) : f.Stored id := by
  simp [Stored, h.1]

theorem missing (h : f.Shows id none) : ¬ f.Stored id := by
  simp [Stored, h.1]

theorem parent {found : Option Task} (h : f.Shows id found) : f.parent id = found.bind Task.parent := by
  rw [Pointers.parent, h.1]
  cases found <;> rfl

end Pointers.Shows

end TaskForest
