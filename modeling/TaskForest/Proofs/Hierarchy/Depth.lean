import TaskForest.Proofs.Hierarchy.Failure
import TaskForest.Proofs.Hierarchy.Moves
import TaskForest.Proofs.Pointers.Evolution
import TaskForest.Proofs.Store.Readable

/-!
Forests that are too deep. In a forest a walk down is never stopped by a cycle, and a level stops it only if
some task is below the greatest one. If there is such a task, the walk from the root above it is stopped, so
long as the store can tell the children of every id.
-/

namespace TaskForest

open LinkedStore (pointers)

namespace Pointers.Grounded

variable {f : Pointers} {m : Nat} {root : String} {e : HierarchyError}

/-- The way up from a task that is too deep ends at a root, and counts its level. -/
theorem exists_deep (forest : f.Grounded) (deep : ¬ f.Within m) :
    ∃ root x n, f.Stored root ∧ f.AtLevel root x n ∧ m < n := by
  obtain ⟨x, stored, below⟩ : ∃ x, f.Stored x ∧ ¬ f.level x ≤ m := by
    simpa only [Within, not_forall, exists_prop] using deep
  obtain ⟨root, up, top⟩ := forest x stored
  obtain ⟨n, level⟩ := exists_atLevel_iff.2 up
  have root_stored : f.Stored root := by simp [Stored, top]
  have first : f.level root = 1 := by
    refine level_eq_one fun p step => ?_
    rw [Step, top] at step
    cases step
  have sum : f.level x + 1 = 1 + n :=
    first ▸ level.level_add (forest.acyclic.cycleFree root) root_stored
  refine ⟨root, x, n, root_stored, level, Nat.lt_of_not_le fun le => below ?_⟩
  refine (ENat.add_le_add_iff_right ENat.one_ne_top).1 ?_
  rw [sum, add_comm]
  exact_mod_cast Nat.add_le_add_right le 1

theorem tooDeep_of_refuses (forest : f.Grounded) (stored : f.Stored root) (refuses : f.Refuses root m e)
    (structural : e.isStructural = true) : (∃ x, e = .tooDeep x) ∧ ¬ f.Within m := by
  refine ⟨?_, fun within => ?_⟩
  · cases e with
    | cycle x => exact absurd refuses.2 (forest.acyclic root)
    | tooDeep x => exact ⟨x, rfl⟩
    | subtreeChanged _ | store _ => cases structural
  · have clear := ForestWithin.not_structural ⟨forest.acyclic, within⟩ stored refuses
    rw [clear] at structural
    cases structural

end Pointers.Grounded

namespace Table.Readable

variable {t : Table} {m : Nat}

theorem childrenOf_answers (h : t.Readable) :
    Walk.Answered (fun t' => t' = t)
      fun id r => ∃ found, r = .ok found ∧ t.parents.ShowsChildren id found := by
  rintro id _ rfl
  refine (query_yields (.childrenOf id) .oldestFirst _).mono ?_ ?_
  · intro found t' got
    exact ⟨got.1, found, rfl, parents_showsChildren id .oldestFirst got.2⟩
  · intro e t' got
    exact absurd got.2 h.not_damaged

theorem collect_yields (h : t.Readable) (m : Nat) (root : String) :
    Yields (collect m root) t (fun subtree t' => t' = t ∧ t.parents.Spans root m subtree)
      (fun e t' => t' = t ∧ t.parents.Refuses root m e ∧ e.isStructural = true) := by
  refine collect_yields_of_faultless h.childrenOf_answers ?_ ?_ m root t rfl
  · rintro id _ ⟨found, rfl, shows⟩
    exact shows
  · rintro id e ⟨found, same, _⟩
    cases same

theorem get_stored (h : t.Readable) {id : String} (stored : t.parents.Stored id) :
    ∃ task, TaskStore.get id t = .ok (some task) t := by
  have outcome : Yields (TaskStore.get id) t _ _ := get_yields id t
  cases read : TaskStore.get id t with
  | error e t' => exact absurd (outcome.of_error read).2 h.not_damaged
  | ok found t' =>
      obtain ⟨rfl, shows, _⟩ := outcome.of_ok read
      cases found with
      | none => exact absurd stored shows.missing
      | some task => exact ⟨task, rfl⟩

/-- The walk from some stored id is stopped by a level. -/
theorem exists_tooDeep (h : t.Readable) (forest : t.parents.Grounded) (deep : ¬ t.parents.Within m) :
    ∃ root x, t.parents.Stored root ∧ collect m root t = .error (.tooDeep x) t := by
  obtain ⟨root, x, n, stored, level, beyond⟩ := forest.exists_deep deep
  have outcome := h.collect_yields m root
  cases walked : collect m root t with
  | ok subtree t' =>
      obtain ⟨_, spans⟩ := outcome.of_ok walked
      have low : n ≤ subtree.depth := spans.depth.2 ⟨x, level⟩
      have le := spans.le
      omega
  | error e t' =>
      obtain ⟨rfl, refuses, structural⟩ := outcome.of_error walked
      obtain ⟨⟨x, rfl⟩, _⟩ := forest.tooDeep_of_refuses stored refuses structural
      exact ⟨root, x, stored, walked⟩

end Table.Readable

theorem loadTree_of_collect_error {σ : Type} [TaskStore σ] {s s' : σ} {m : Nat} {root : String}
    {task : Task} {e : HierarchyError} (found : TaskStore.get root s = .ok (some task) s)
    (failed : collect m root s = .error e s') : loadTree m root s = .error e s' := by
  rw [loadTree, bind_of_ok (lift_of_ok found)]
  exact bind_of_error (error_of_map failed)

end TaskForest
