import TaskForest.Proofs.Hierarchy.Delete

/-!
Deletes of an id that is not stored. The walk asks for the children of the root and never for the root itself,
so tasks whose parent dangles to the id are collected and taken away with what is below them. Where there are
none, the id alone is collected and nothing is taken away.
-/

namespace TaskForest

namespace Pointers

variable {f : Pointers} {root x : String} {n : Nat}

theorem reaches_iff_eq_of_childless (childless : ∀ y, ¬ f.Step y root) : f.Reaches x root ↔ x = root := by
  constructor
  · intro up
    rcases Relation.ReflTransGen.cases_tail_iff _ _ _ |>.1 up with same | ⟨y, _, step⟩
    · exact same.symm
    · exact absurd step (childless y)
  · intro same
    subst same
    exact .refl

theorem AtLevel.eq_one_of_childless (childless : ∀ y, ¬ f.Step y root) (h : f.AtLevel root x n) :
    n = 1 := by
  induction h with
  | root => rfl
  | @child x p n above step _ =>
      obtain rfl := (reaches_iff_eq_of_childless childless).1 above.reaches
      exact absurd step (childless x)

end Pointers

open LinkedStore (pointers)
open ItemStore (items idOf Faultless TellsChildren)

section Items

variable {σ : Type} [TaskStore σ] [ItemStore σ] {s : σ} {limits : Limits} {root : String}

theorem delete_missing_of_childless (faultless : Faultless s) (missing : ¬ (pointers s).Stored root)
    (room : 1 ≤ limits.maxDepth) (childless : ∀ y, ¬ (pointers s).Step y root) :
    Yields (delete limits root) s
      (fun report after => report.deleted = 0 ∧ items after = items s) (fun _ _ => False) := by
  have alone : ∀ x, (pointers s).Reaches x root ↔ x = root := fun x =>
    Pointers.reaches_iff_eq_of_childless childless
  refine (delete_takes limits root faultless).mono ?_ ?_
  · intro report after got
    obtain ⟨subtree, spans, left, _, _, _, count⟩ := got
    have kept : items after = items s := by
      rw [left, List.filter_eq_self]
      intro a stored
      rw [decide_eq_true_eq, spans.mem_iff, alone]
      rintro rfl
      exact missing ((ItemStore.stored_iff s _).2 (List.mem_map_of_mem stored))
    rw [kept] at count
    exact ⟨by omega, kept⟩
  · intro e after got
    obtain ⟨_, refuses, unread⟩ := got
    cases e with
    | cycle _ => exact missing refuses.2.stored
    | tooDeep x =>
        have shallow := Pointers.AtLevel.eq_one_of_childless childless refuses
        omega
    | subtreeChanged _ | store _ =>
        obtain ⟨x, below, silent⟩ := unread rfl
        obtain rfl := (alone x).1 below
        exact silent fun a _ step => absurd step (childless (idOf a))

/-- A delete of an id that is not stored changes nothing exactly if nothing names it as its parent; what does is
gone behind every delete that succeeds. -/
theorem delete_missing_keeps_iff (s : σ) (faultless : Faultless s) (limits : Limits) (root : String)
    (missing : ¬ (pointers s).Stored root) (room : 1 ≤ limits.maxDepth) :
    ((∃ report after, delete limits root s = .ok report after ∧ report.deleted = 0 ∧ items after = items s) ↔
      ∀ y, ¬ (pointers s).Step y root) ∧
    ∀ report after, delete limits root s = .ok report after →
      ∀ a ∈ items s, (pointers s).Step (idOf a) root → a ∉ items after := by
  have takes : ∀ report after, delete limits root s = .ok report after →
      ∀ a ∈ items s, (pointers s).Step (idOf a) root → a ∉ items after := by
    intro report after ok a _ step stays
    obtain ⟨subtree, spans, left, _⟩ := (delete_takes limits root faultless).of_ok ok
    rw [left, List.mem_filter, decide_eq_true_eq, spans.mem_iff] at stays
    exact stays.2 (.single step)
  refine ⟨⟨?_, fun childless => ?_⟩, takes⟩
  · intro got y step
    obtain ⟨report, after, ok, _, kept⟩ := got
    obtain ⟨a, stored, rfl⟩ := List.mem_map.1 ((ItemStore.stored_iff s y).1 step.stored)
    exact takes report after ok a stored step (kept ▸ stored)
  · have outcome := delete_missing_of_childless faultless missing room childless
    cases result : delete limits root s with
    | ok report after => exact ⟨report, after, rfl, outcome.of_ok result⟩
    | error e after => exact (outcome.of_error result).elim

end Items

/-- An id that no task names. -/
theorem delete_missing_keeps_iff_of_one :
    let ash : Task := .new "ash" "Ash" 1
    ¬ (Records.ofList [ash]).parents.Stored "oak" ∧
    ∃ report after, delete {} "oak" (InMemory.ofList [ash]) = .ok report after ∧
      report.deleted = 0 ∧ after.records.tasks = [ash] := by
  intro ash
  have tasks : (Records.ofList [ash]).tasks = [ash] := by cbv
  have missing : ¬ (Records.ofList [ash]).parents.Stored "oak" := by
    rw [Records.parents_stored, tasks]
    simp [ash, Task.new]
  obtain ⟨report, after, ok, none_gone, kept⟩ :=
    (delete_missing_keeps_iff (InMemory.ofList [ash]) rfl {} "oak" missing (by decide)).1.2 fun y step => by
      obtain ⟨t, stored, _, parent⟩ := Records.parents_step.1 step
      change t ∈ (Records.ofList [ash]).tasks at stored
      rw [tasks, List.mem_singleton] at stored
      subst stored
      cases parent
  exact ⟨missing, report, after, ok, none_gone, kept.trans tasks⟩

/-- A task whose parent is not stored goes with a delete of that parent. -/
theorem delete_missing_takes_dangling :
    let twig : Task := { Task.new "twig" "Twig" 1 with parent := some "oak" }
    let store : InMemory := .ofList [twig]
    store.records.find? "oak" = none ∧
    ∃ after, delete {} "oak" store = .ok ⟨"oak", 2, 1, 2⟩ after ∧ after.records.tasks = [] := by
  intro twig store
  let left : InMemory :=
    { records := .empty, counters := { queries := 2, deletesAttempted := 2, commits := 1 } }
  have ok : delete {} "oak" store = .ok ⟨"oak", 2, 1, 2⟩ left := by cbv
  exact ⟨by cbv, left, ok, rfl⟩

end TaskForest
