import TaskForest.Hierarchy.Error

/-!
The way up from a task. It ends at a task without parent and at a parent that is not stored. It fails at
a parent that was met before, and where the task would be below the greatest level.
-/

namespace TaskForest

variable {σ : Type} [TaskStore σ]

namespace Ancestors

/-- The stored parents from `parent` upwards. The ids met so far are `seen`, and `room` more ancestors
are allowed. -/
def climb (start : String) : (room : Nat) → (seen : List String) → (parent : Option String) →
    HierarchyM σ (List String)
  | _, _, none => pure []
  | room, seen, some id => do
    match ← (TaskStore.get id : StoreM σ (Option Task)) with
    | none => pure []
    | some task =>
      if id ∈ seen then throw (.cycle id)
      match room with
      | 0 => throw (.tooDeep start)
      | room + 1 => do
        let above ← climb start room (id :: seen) task.parent
        pure (id :: above)

end Ancestors

def ancestors (maxDepth : Nat) (id : String) : HierarchyM σ (List String) := do
  let task ← (TaskStore.get id : StoreM σ (Option Task))
  Ancestors.climb id (maxDepth - 1) [id] (task.bind Task.parent)

end TaskForest
