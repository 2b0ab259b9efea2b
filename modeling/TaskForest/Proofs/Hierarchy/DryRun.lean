import TaskForest.Proofs.Hierarchy.Delete

/-!
Deletes and their dry runs on a store of items of which nothing is planned to fail. The dry run is the walk, and
the walk decides: if it is refused the delete is refused in the same way, and otherwise the delete takes away
the items of the ids that the dry run lists. These are closed under children, so the guard never finds anything
and makes no difference.
-/

namespace TaskForest

open LinkedStore (pointers)
open ItemStore (items idOf Faultless)

variable {σ : Type} [TaskStore σ] [ItemStore σ] {s : σ} {root : String}

theorem ItemStore.deleteAll_of_closed {ids : List String} (closed : (pointers s).Closed ids) (guarded : Bool) :
    deleteAll guarded ids s = deleteAll false ids s := by
  unfold deleteAll
  cases ids with
  | nil => rfl
  | cons id rest => rw [ItemStore.guard_unseen closed]

theorem delete_guard_eq (limits : Limits) (root : String) (h : Faultless s) (guarded : Bool) :
    delete { limits with orphanGuard := guarded } root s =
      delete { limits with orphanGuard := false } root s := by
  have walk := ItemStore.collect_yields limits.maxDepth root h
  have first : ∀ guarded, delete { limits with orphanGuard := guarded } root s =
      (preview limits root >>= fun subtree => do
        let deleted ← deleteAll guarded subtree.leavesFirst
        pure ⟨root, subtree.ids.length, deleted, subtree.depth⟩ : HierarchyM σ Report) s := fun _ => rfl
  rw [first, first]
  cases walked : preview limits root s with
  | error e seen => rw [bind_of_error walked, bind_of_error walked]
  | ok subtree seen =>
      obtain ⟨kept, spans, _⟩ := walk.of_ok walked
      have closed : (pointers seen).Closed subtree.leavesFirst :=
        kept.pointers ▸ Pointers.closed_of_reaches fun _ => spans.mem_leavesFirst
      have batch := ItemStore.deleteAll_of_closed closed guarded
      rw [bind_of_ok walked, bind_of_ok walked]
      simp only [bind, EStateM.bind, batch]

/-- Where nothing is planned to fail, a delete does what its dry run says, and changes nothing if the dry run
is refused. It is never refused for a change of the subtree, and the guard makes no difference to it. -/
theorem delete_follows_preview (s : σ) (h : Faultless s) (limits : Limits) (root : String) :
    (∀ e seen, preview limits root s = .error e seen →
      items seen = items s ∧ delete limits root s = .error e seen) ∧
    (∀ subtree seen, preview limits root s = .ok subtree seen →
      items seen = items s ∧
      ∃ report after, delete limits root s = .ok report after ∧
        report.collected = subtree.ids.length ∧ report.depth = subtree.depth ∧
        items after = (items s).filter fun a => idOf a ∉ subtree.ids) ∧
    (∀ orphans after, delete limits root s ≠ .error (.subtreeChanged orphans) after) ∧
    delete { limits with orphanGuard := true } root s =
      delete { limits with orphanGuard := false } root s := by
  have walk := ItemStore.collect_yields limits.maxDepth root h
  have refused : ∀ e seen, preview limits root s = .error e seen →
      items seen = items s ∧ delete limits root s = .error e seen := fun e seen walked =>
    ⟨(walk.of_error walked).1.items, bind_of_error walked⟩
  refine ⟨refused, ?_, ?_, delete_guard_eq limits root h true⟩
  · intro subtree seen walked
    obtain ⟨report, after, ok, left, _, _, collected, depth, _⟩ := delete_of_preview h walked
    exact ⟨(walk.of_ok walked).1.items, report, after, ok, collected, depth, left⟩
  · intro orphans after failed
    cases walked : preview limits root s with
    | ok subtree seen =>
        obtain ⟨report, after', ok, _⟩ := delete_of_preview h walked
        rw [ok] at failed
        cases failed
    | error e seen =>
        rw [(refused e seen walked).2] at failed
        cases failed
        exact (walk.of_error walked).2.1

/-- A subtree of two that hangs below a cycle, and the dry run of an id on the cycle. -/
theorem delete_follows_preview_beside_cycle :
    let oak : Task := { Task.new "oak" "Oak" 1 with parent := some "elm" }
    let elm : Task := { Task.new "elm" "Elm" 2 with parent := some "oak" }
    let ash : Task := { Task.new "ash" "Ash" 3 with parent := some "elm" }
    let ivy : Task := { Task.new "ivy" "Ivy" 4 with parent := some "ash" }
    let store : Table := .ofList [oak, elm, ash, ivy]
    Faultless store ∧
    (∃ report after, delete {} "ash" store = .ok report after ∧ after.rows.map Row.id = ["elm", "oak"]) ∧
    delete {} "oak" store = .error (.cycle "oak") store := by
  intro oak elm ash ivy store
  have faultless : Faultless store := by cbv
  have listed : preview {} "ash" store = .ok ⟨["ash", "ivy"], 2⟩ store := by cbv
  have cyclic : preview {} "oak" store = .error (.cycle "oak") store := by cbv
  obtain ⟨refused, lists, _⟩ := delete_follows_preview store faultless {} "ash"
  obtain ⟨_, report, after, ok, _, _, left⟩ := lists _ _ listed
  refine ⟨faultless, ⟨report, after, ok, ?_⟩, ?_⟩
  · change (items after).map Row.id = _
    rw [left]
    cbv
  · exact ((delete_follows_preview store faultless {} "oak").1 _ _ cyclic).2

end TaskForest
