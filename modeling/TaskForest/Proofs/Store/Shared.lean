import TaskForest.Proofs.Hierarchy.Subtree
import TaskForest.Proofs.Store.Interleaved

/-!
A store that other clients call between the queries of an operation. Each query is made on what is there then, and
the states that the store was in up to it are noted. So an answer is right for one of these states, but two answers
may be right for different ones.
-/

namespace TaskForest

open LinkedStore (pointers)

variable {σ : Type} [TaskStore σ]

/-- The state before the calls and the one behind each of them. -/
def Call.states (s : σ) : List Call → List σ
  | [] => [s]
  | c :: rest => s :: states (leaves c.run s) rest

theorem Call.allAfter_mem_states (s : σ) (calls : List Call) : allAfter s calls ∈ states s calls := by
  induction calls generalizing s with
  | nil => exact List.mem_singleton_self s
  | cons c rest ih => exact List.mem_cons_of_mem _ (ih (leaves c.run s))

structure Shared (σ : Type) where
  store : σ
  /-- The calls that come right before the next query, before the one that follows it, and so on. -/
  calls : List (List Call)
  /-- The states of the store up to its last query. -/
  states : List σ := []

namespace Shared

def onStore {α : Type} (m : StoreM σ α) : StoreM (Shared σ) α := fun c =>
  match m c.store with
  | .ok a s => .ok a { c with store := s }
  | .error e s => .error e { c with store := s }

/-- The calls that are due have been made. -/
def catchUp (c : Shared σ) : Shared σ :=
  let due := c.calls.headD []
  ⟨Call.allAfter c.store due, c.calls.tail, c.states ++ Call.states c.store due⟩

def query (selection : Selection) (order : SortOrder) : StoreM (Shared σ) (List Task) := do
  modify catchUp
  onStore (TaskStore.query selection order)

instance : TaskStore (Shared σ) where
  get id := onStore (TaskStore.get id)
  create t := onStore (TaskStore.create t)
  update t := onStore (TaskStore.update t)
  query := query
  deleteMany ids guarded := onStore (TaskStore.deleteMany ids guarded)

variable [LinkedStore σ] {c : Shared σ} {x p : String}

/-- In some state up to the last query the parent of `x` was `p`. -/
def HadParent (c : Shared σ) (x p : String) : Prop := ∃ s ∈ c.states, (pointers s).Step x p

/-- An answer that is right for one of the states. -/
def Tells (c : Shared σ) (id : String) (r : Except StoreError (List Task)) : Prop :=
  ∃ s ∈ c.states, (pointers s).Tells id r

theorem Tells.hadParent {id : String} {children : List Task} (h : c.Tells id (.ok children)) {t : Task}
    (listed : t ∈ children) : c.HadParent t.id id := by
  obtain ⟨s, hs, shows⟩ := h
  exact ⟨s, hs, (shows.2 t.id).1 (List.mem_map_of_mem listed)⟩

theorem Tells.nodup {id : String} {children : List Task} (h : c.Tells id (.ok children)) :
    (children.map Task.id).Nodup := by
  obtain ⟨s, hs, shows⟩ := h
  exact shows.1

/-- A query notes the states up to it, and its answer is right for the last of them. -/
theorem childrenOf_yields (id : String) (c : Shared σ) :
    Yields (childrenOf id) c
      (fun found c' => c.states ⊆ c'.states ∧ c'.Tells id (.ok found))
      (fun e c' => c.states ⊆ c'.states ∧ c'.Tells id (.error e)) := by
  have grown : c.states ⊆ c.catchUp.states := List.subset_append_left _ _
  have here : c.catchUp.store ∈ c.catchUp.states :=
    List.mem_append_right _ (Call.allAfter_mem_states _ _)
  have shown := LinkedStore.childrenOf_shows id c.catchUp.store
  have start : childrenOf id c = onStore (childrenOf id) c.catchUp := rfl
  rw [Yields, start, onStore]
  cases k : childrenOf id c.catchUp.store with
  | ok found s => exact ⟨grown, _, here, shown.of_ok k⟩
  | error e s => exact ⟨grown, _, here, trivial⟩

/-- A walk is told of the children of each id as they were at one of the states. -/
theorem drain_run (maxDepth : Nat) (visited : List String) (stack : List Entry) (c : Shared σ) :
    c.states ⊆ (Walk.drain maxDepth visited stack c).2.states ∧
      Walk.Run (Walk.drain maxDepth visited stack c).2.Tells maxDepth visited stack
        (Walk.drain maxDepth visited stack c).1 := by
  fun_induction Walk.drain maxDepth visited stack c with
  | case1 visited c => exact ⟨List.Subset.refl _, .done⟩
  | case2 visited c e rest seen => exact ⟨List.Subset.refl _, .cycle seen⟩
  | case3 visited c e rest new le err c' k =>
      obtain ⟨grown, told⟩ := (childrenOf_yields e.id c).of_error k
      exact ⟨grown, .refused new le told⟩
  | case4 visited c e rest new le children c' k w c'' drained ih =>
      obtain ⟨grown, s, hs, told⟩ := (childrenOf_yields e.id c).of_ok k
      rw [drained] at ih
      obtain ⟨further, next⟩ := ih
      exact ⟨List.Subset.trans grown further, .visit new le ⟨s, further hs, told⟩ next⟩
  | case5 visited c e rest new deep => exact ⟨List.Subset.refl _, .tooDeep new (by omega)⟩

end Shared
end TaskForest
