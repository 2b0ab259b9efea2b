import TaskForest.Proofs.Store.Linked

/-!
What the walk down visits. `Run` tells the result of the loop from the answers to its queries alone, one
rule for each way in which a turn of the loop ends. On answers that agree with parent pointers, a walk that
is not stopped visits what reaches the root, each id once and at its level; a walk is stopped by a visited
id only at its root, which is then on a cycle.
-/

namespace TaskForest
namespace Walk

variable {Answer : String → Except StoreError (List Task) → Prop} {maxDepth : Nat}
  {visited : List String} {stack : List Entry} {w : Walk}

inductive Run (Answer : String → Except StoreError (List Task) → Prop) (maxDepth : Nat) :
    List String → List Entry → Walk → Prop
  | done {visited : List String} : Run Answer maxDepth visited [] ⟨[], none⟩
  | cycle {visited : List String} {e : Entry} {rest : List Entry} (seen : e.id ∈ visited) :
      Run Answer maxDepth visited (e :: rest) (stopped (.cycle e.id))
  | tooDeep {visited : List String} {e : Entry} {rest : List Entry} (new : e.id ∉ visited)
      (deep : maxDepth < e.level) : Run Answer maxDepth visited (e :: rest) (stopped (.tooDeep e.id))
  | refused {visited : List String} {e : Entry} {rest : List Entry} {err : StoreError}
      (new : e.id ∉ visited) (le : e.level ≤ maxDepth) (answer : Answer e.id (.error err)) :
      Run Answer maxDepth visited (e :: rest) (stopped (.store err))
  | visit {visited : List String} {e : Entry} {rest : List Entry} {children : List Task} {w : Walk}
      (new : e.id ∉ visited) (le : e.level ≤ maxDepth) (answer : Answer e.id (.ok children))
      (next : Run Answer maxDepth (e.id :: visited) (below e.level children ++ rest) w) :
      Run Answer maxDepth visited (e :: rest) (w.visiting ⟨e.id, e.level, children⟩)

@[simp] theorem visits_visiting (v : Visit) (w : Walk) : (w.visiting v).visits = v :: w.visits := rfl

@[simp] theorem failure_visiting (v : Visit) (w : Walk) : (w.visiting v).failure = w.failure := rfl

@[simp] theorem ids_visiting (v : Visit) (w : Walk) : (w.visiting v).ids = v.id :: w.ids := rfl

@[simp] theorem ids_stopped (e : HierarchyError) : (stopped e).ids = [] := rfl

theorem mem_ids {x : String} : x ∈ w.ids ↔ ∃ v ∈ w.visits, v.id = x := by
  simp [ids]

theorem depth_visiting (v : Visit) (w : Walk) : (w.visiting v).depth = max v.level w.depth := by
  simp only [depth, visits_visiting, List.map_cons, List.foldl_cons]
  rw [Nat.max_comm, List.foldl_assoc]

theorem level_le_depth {v : Visit} (h : v ∈ w.visits) : v.level ≤ w.depth := by
  obtain ⟨visits, failure⟩ := w
  induction visits with
  | nil => cases h
  | cons u rest ih =>
      have deepest : Walk.depth ⟨u :: rest, failure⟩ = max u.level (Walk.depth ⟨rest, failure⟩) :=
        depth_visiting u ⟨rest, failure⟩
      rw [deepest]
      rcases List.mem_cons.1 h with rfl | h
      · exact Nat.le_max_left _ _
      · exact Nat.le_trans (ih h) (Nat.le_max_right _ _)

theorem exists_level_eq_depth (h : w.visits ≠ []) : ∃ v ∈ w.visits, v.level = w.depth := by
  obtain ⟨visits, failure⟩ := w
  induction visits with
  | nil => exact absurd rfl h
  | cons u rest ih =>
      have deepest : Walk.depth ⟨u :: rest, failure⟩ = max u.level (Walk.depth ⟨rest, failure⟩) :=
        depth_visiting u ⟨rest, failure⟩
      rw [deepest]
      by_cases k : Walk.depth ⟨rest, failure⟩ ≤ u.level
      · exact ⟨u, List.mem_cons_self, (Nat.max_eq_left k).symm⟩
      · have some_rest : rest ≠ [] := by
          intro same
          subst same
          exact k (Nat.zero_le _)
        obtain ⟨v, hv, level⟩ := ih some_rest
        exact ⟨v, List.mem_cons_of_mem _ hv, by rw [Nat.max_eq_right (by omega)]; exact level⟩

theorem mem_below {level : Nat} {children : List Task} {e : Entry} :
    e ∈ below level children ↔ ∃ t ∈ children, e = ⟨t.id, level + 1⟩ := by
  simp [below, eq_comm]

/-- What holds of the stack, and of the children of the entry that is visited, holds of the stack behind it. -/
theorem forall_mem_pushed {Q : Entry → Prop} {e : Entry} {rest : List Entry} {children : List Task}
    (pushed : ∀ t ∈ children, Q ⟨t.id, e.level + 1⟩) (start : ∀ e' ∈ e :: rest, Q e') :
    ∀ e' ∈ below e.level children ++ rest, Q e' := by
  refine List.forall_mem_append.2 ⟨fun e' he' => ?_, (List.forall_mem_cons.1 start).2⟩
  obtain ⟨t, ht, rfl⟩ := mem_below.1 he'
  exact pushed t ht

theorem map_id_below (level : Nat) (children : List Task) :
    (below level children).map Entry.id = children.map Task.id := by
  simp [below, Function.comp_def]

section Loop

variable {σ : Type} [TaskStore σ] {P : σ → Prop}

/-- Every query for children keeps `P`, and its answer is one that `Answer` allows. -/
def Answered (P : σ → Prop) (Answer : String → Except StoreError (List Task) → Prop) : Prop :=
  ∀ id s, P s → Yields (childrenOf id) s
    (fun found s' => P s' ∧ Answer id (.ok found))
    (fun e s' => P s' ∧ Answer id (.error e))

/-- The loop is described by `Run`, and keeps what every query keeps. -/
theorem drain_run (answers : Answered P Answer) (maxDepth : Nat) (visited : List String)
    (stack : List Entry) (s : σ) (h : P s) :
    P (drain maxDepth visited stack s).2 ∧
      Run Answer maxDepth visited stack (drain maxDepth visited stack s).1 := by
  fun_induction drain maxDepth visited stack s with
  | case1 => exact ⟨h, .done⟩
  | case2 visited s e rest seen => exact ⟨h, .cycle seen⟩
  | case3 visited s e rest new le err s' k =>
      obtain ⟨kept, answer⟩ := (answers e.id s h).of_error k
      exact ⟨kept, .refused new le answer⟩
  | case4 visited s e rest new le children s' k w s'' drained ih =>
      obtain ⟨kept, answer⟩ := (answers e.id s h).of_ok k
      rw [drained] at ih
      obtain ⟨kept, next⟩ := ih kept
      exact ⟨kept, .visit new le answer next⟩
  | case5 visited s e rest new deep => exact ⟨h, .tooDeep new (by omega)⟩

theorem fullWalk_yields (answers : Answered P Answer) (maxDepth : Nat) (root : String) (s : σ)
    (h : P s) :
    Yields (fullWalk maxDepth root) s
      (fun w s' => P s' ∧ Run Answer maxDepth [] [⟨root, 1⟩] w ∧ w.failure = none)
      (fun e s' => P s' ∧ ∃ w, Run Answer maxDepth [] [⟨root, 1⟩] w ∧ w.failure = some e) := by
  obtain ⟨kept, run⟩ := drain_run answers maxDepth [] [⟨root, 1⟩] s h
  rw [Yields, fullWalk, walk]
  generalize drain maxDepth [] [⟨root, 1⟩] s = result at kept run
  obtain ⟨w, s'⟩ := result
  dsimp only
  cases k : w.failure with
  | none => exact ⟨kept, run, k⟩
  | some e => exact ⟨kept, w, run, k⟩

end Loop

end Walk
end TaskForest
