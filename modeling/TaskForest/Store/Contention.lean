import TaskForest.Store.Basic

/-!
A store that another client writes to. Its writes are pending until the next batch of deletes, and come
right before it.
-/

namespace TaskForest

structure Contended (σ : Type) where
  store : σ
  pending : List Write := []

namespace Contended

variable {σ : Type}

def onStore {α : Type} (m : StoreM σ α) : StoreM (Contended σ) α := fun c =>
  match m c.store with
  | .ok a s => .ok a { c with store := s }
  | .error e s => .error e { c with store := s }

variable [TaskStore σ]

/-- The pending writes are made once. The first that fails is the failure of the batch, and those behind
it are dropped. -/
def deleteMany (ids : List String) (guarded : Bool) : StoreM (Contended σ) Nat := do
  let writes := (← get).pending
  modify fun c => { c with pending := [] }
  onStore (Write.runAll writes)
  onStore (TaskStore.deleteMany ids guarded)

instance : TaskStore (Contended σ) where
  get id := onStore (TaskStore.get id)
  create t := onStore (TaskStore.create t)
  update t := onStore (TaskStore.update t)
  query selection order := onStore (TaskStore.query selection order)
  deleteMany := deleteMany

end Contended
end TaskForest
