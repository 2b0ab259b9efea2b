import TaskForest.Store.Error
import TaskForest.Store.Query

/-!
The operations of a store of tasks. An operation that fails may still have changed the state, in the
counters that the store keeps of itself.
-/

namespace TaskForest

abbrev StoreM (σ : Type) := EStateM StoreError σ

class TaskStore (σ : Type) where
  get : String → StoreM σ (Option Task)
  /-- Fails if the id is taken. -/
  create : Task → StoreM σ Unit
  /-- Replaces the task of the same id; fails if there is none. -/
  update : Task → StoreM σ Unit
  query : Selection → SortOrder → StoreM σ (List Task)
  /-- Removes the tasks of these ids, all or none, and counts those that there were. Guarded, it fails
  if a task that stays has its parent among the ids. -/
  deleteMany : List String → (guarded : Bool) → StoreM σ Nat

inductive Write where
  | create (task : Task)
  | update (task : Task)
  /-- Without the guard. -/
  | delete (ids : List String)

namespace Write

variable {σ : Type} [TaskStore σ]

def run : Write → StoreM σ Unit
  | create t => TaskStore.create t
  | update t => TaskStore.update t
  | delete ids => do
    let _ ← TaskStore.deleteMany ids false

/-- One after the other, up to the first that fails. -/
def runAll : List Write → StoreM σ Unit
  | [] => pure ()
  | w :: rest => do
    w.run
    runAll rest

end Write
end TaskForest
