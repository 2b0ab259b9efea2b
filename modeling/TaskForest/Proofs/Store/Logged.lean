import TaskForest.Hierarchy.Walk

/-!
A store that notes what it is asked. In all else it is the store that it is made of, so an operation comes to the
same on both, and what it asked can be read off afterwards.
-/

namespace TaskForest

structure Logged (σ : Type) where
  store : σ
  /-- The queries so far, the latest at the end. -/
  asked : List (Selection × SortOrder) := []

namespace Logged

variable {ε σ α : Type}

def withLog (asked : List (Selection × SortOrder)) :
    EStateM.Result ε σ α → EStateM.Result ε (Logged σ) α
  | .ok a s => .ok a ⟨s, asked⟩
  | .error e s => .error e ⟨s, asked⟩

/-- An operation that asks nothing. -/
def onStore (m : StoreM σ α) : StoreM (Logged σ) α := fun l => withLog l.asked (m l.store)

variable [TaskStore σ]

/-- A query is noted whether it is answered or not. -/
def query (selection : Selection) (order : SortOrder) : StoreM (Logged σ) (List Task) := do
  modify fun l => ⟨l.store, l.asked ++ [(selection, order)]⟩
  onStore (TaskStore.query selection order)

instance : TaskStore (Logged σ) where
  get id := onStore (TaskStore.get id)
  create t := onStore (TaskStore.create t)
  update t := onStore (TaskStore.update t)
  query := query
  deleteMany ids guarded := onStore (TaskStore.deleteMany ids guarded)

/-- How the children of an id are asked for. -/
def asking (id : String) : Selection × SortOrder := (.childrenOf id, .oldestFirst)

theorem childrenOf_eq (id : String) (s : σ) (asked : List (Selection × SortOrder)) :
    childrenOf id (⟨s, asked⟩ : Logged σ) = withLog (asked ++ [asking id]) (childrenOf id s) := rfl

end Logged
end TaskForest
