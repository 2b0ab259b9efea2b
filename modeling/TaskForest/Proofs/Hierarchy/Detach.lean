import TaskForest.Proofs.Hierarchy.Admission
import TaskForest.Proofs.Hierarchy.Cycles

/-!
A way out of a cycle. A task on a cycle that is taken out of its tree becomes the root of all that led to it, the
rest of the cycle included. The walk that was refused before goes through then, so the whole can be deleted.
-/

namespace TaskForest

open LinkedStore (pointers)
open ItemStore (items idOf)

variable {σ : Type} [TaskStore σ]

/-- A delete of an id that is on no cycle succeeds if as many levels are allowed as there are items. -/
theorem Intact.exists_delete [ItemStore σ] {s : σ} {root : String} {limits : Limits} (h : Intact s)
    (stored : (pointers s).Stored root) (off : ¬ (pointers s).OnCycle root)
    (enough : (items s).length ≤ limits.maxDepth) :
    ∃ report after, delete limits root s = .ok report after ∧
      (∀ a, a ∈ items after ↔ a ∈ items s ∧ ¬ (pointers s).Reaches (idOf a) root) ∧
      report.deleted + (items after).length = (items s).length := by
  obtain ⟨w, seen, walked, _, full, run⟩ := h.exists_fullWalk stored off enough
  have listed : preview limits root s = .ok w.subtree seen := map_of_ok walked
  obtain ⟨report, after, deleted, left, _, _, _, _, counted⟩ := delete_of_preview h.faultless listed
  refine ⟨report, after, deleted, fun a => ?_, counted⟩
  rw [left, List.mem_filter, decide_eq_true_iff, (run.subtree_spans full).mem_iff]

variable [CodedStore σ] {s : σ} {id : String}

/-- To take a task out of its tree it has to be stored only. -/
theorem Intact.exists_detached (h : Intact s) (stored : (pointers s).Stored id) (maxDepth : Nat) (now : Int64) :
    ∃ task s₁, reparent maxDepth now id none s = .ok task s₁ ∧ Intact s₁ ∧ task.id = id ∧
      CodedStore.Replaces s₁ s task ∧ pointers s₁ = (pointers s).put id none := by
  have outcome := h.reparent_yields maxDepth now id none
  cases moved : reparent maxDepth now id none s with
  | ok task s₁ =>
      obtain ⟨intact, replaced, old, _, named, rfl⟩ := outcome.of_ok moved
      have set := (TaskForest.reparent_yields maxDepth now id none s).of_ok moved
      exact ⟨_, s₁, rfl, intact, named, replaced, set.1⟩
  | error e s₁ => exact absurd ⟨stored, Pointers.admitsAt_none⟩ (outcome.of_error moved)

/-- A task on a cycle can be taken out of its tree, whatever the bound. Every id that led to it leads to it still,
and now ends there; no id has come to lead into a cycle, or to be on one. If as many levels are allowed as there
are items, a delete of the task succeeds then. It leaves exactly the items that did not lead to the task, so nothing
of the cycle is left. -/
theorem detach_repairs_cycle (s : σ) (h : Intact s) (id : String) (cyclic : (pointers s).OnCycle id)
    (maxDepth : Nat) (now : Int64) :
    let f := pointers s
    ∃ task s₁, reparent maxDepth now id none s = .ok task s₁ ∧
      (pointers s₁).entry id = some none ∧
      (∀ x, f.Reaches x id → (pointers s₁).Reaches x id ∧ (pointers s₁).CycleFree x) ∧
      (∀ x, f.CycleFree x → (pointers s₁).CycleFree x) ∧
      (∀ x, (pointers s₁).OnCycle x → f.OnCycle x) ∧
      ∀ limits : Limits, (items s).length ≤ limits.maxDepth →
        ∃ report after, delete limits id s₁ = .ok report after ∧
          (∀ a, a ∈ items after ↔ a ∈ items s ∧ ¬ f.Reaches (idOf a) id) ∧
          report.deleted + (items after).length = (items s).length ∧
          ∀ x, f.Reaches id x → ¬ (pointers after).Stored x := by
  intro f
  obtain ⟨task, s₁, moved, intact, named, replaced, set⟩ := h.exists_detached cyclic.stored maxDepth now
  have admits : f.AdmitsAt maxDepth id none := Pointers.admitsAt_none
  refine ⟨task, s₁, moved, ?_, ?_, ?_, ?_, fun limits enough => ?_⟩
  · rw [set, Pointers.put_entry_self]
  · rw [set]
    exact fun x up => ⟨Pointers.put_reaches_self.2 up, admits.cycleFree_below up⟩
  · rw [set]
    exact fun x => admits.cycleFree
  · rw [set]
    exact fun x => admits.onCycle
  · have stored : (pointers s₁).Stored id := set ▸ Pointers.put_stored.2 (.inl rfl)
    have off : ¬ (pointers s₁).OnCycle id := set ▸ admits.cycleFree_self.not_onCycle
    rw [← replaced.length_eq] at enough ⊢
    obtain ⟨report, after, deleted, left, counted⟩ := intact.exists_delete stored off enough
    have kept : ∀ a, a ∈ items after ↔ a ∈ items s ∧ ¬ f.Reaches (idOf a) id := by
      intro a
      rw [left, set, Pointers.put_reaches_self]
      -- the item of the task itself is a new one, but it is not among those that stay
      refine and_congr_left fun apart => replaced.mem_iff fun same => apart ?_
      rw [same, named]
      exact .refl
    refine ⟨report, after, deleted, kept, counted, fun x around there => ?_⟩
    obtain ⟨a, ha, rfl⟩ := List.mem_map.1 ((ItemStore.stored_iff after x).1 there)
    exact ((kept a).1 ha).2 (cyclic.reaches_back around)

/-- A cycle of two with a subtree of two below it, beside a task that has nothing to do with them. -/
theorem detach_repairs_cycle_of_two :
    let oak : Task := { Task.new "oak" "Oak" 1 with parent := some "elm" }
    let elm : Task := { Task.new "elm" "Elm" 2 with parent := some "oak" }
    let ash : Task := { Task.new "ash" "Ash" 3 with parent := some "elm" }
    let ivy : Task := { Task.new "ivy" "Ivy" 4 with parent := some "ash" }
    let fir : Task := .new "fir" "Fir" 5
    let store : InMemory := .ofList [oak, elm, ash, ivy, fir]
    ∃ task s₁, reparent 0 9 "oak" none store = .ok task s₁ ∧
      (pointers s₁).Reaches "ivy" "oak" ∧ (pointers s₁).CycleFree "ivy" ∧
      ∃ report after, delete { maxDepth := 5 } "oak" s₁ = .ok report after ∧
        fir ∈ items after ∧ ivy ∉ items after ∧ ¬ (pointers after).Stored "elm" := by
  intro oak elm ash ivy fir store
  have intact : Intact store := InMemory.intact_ofList _
  have up : (pointers store).Step "oak" "elm" := by cbv
  have back : (pointers store).Step "elm" "oak" := by cbv
  have ash_up : (pointers store).Step "ash" "elm" := by cbv
  have ivy_up : (pointers store).Step "ivy" "ash" := by cbv
  have top : (pointers store).entry "fir" = some none := by cbv
  have below : (pointers store).Reaches "ivy" "oak" := .head ivy_up (.head ash_up (.single back))
  have listed : fir ∈ items store := by decide +kernel
  have apart : ¬ (pointers store).Reaches "fir" "oak" := by
    intro reaches
    rcases Relation.ReflTransGen.cases_head_iff.1 reaches with same | ⟨p, step, _⟩
    · exact absurd same (by decide)
    · cases top.symm.trans step
  obtain ⟨task, s₁, moved, _, chain, _, _, deletes⟩ :=
    detach_repairs_cycle store intact "oak" (.head up (.single back)) 0 9
  obtain ⟨report, after, deleted, left, _, gone⟩ := deletes { maxDepth := 5 } (by decide)
  obtain ⟨leads, free⟩ := chain "ivy" below
  refine ⟨task, s₁, moved, leads, free, report, after, deleted, (left fir).2 ⟨listed, apart⟩, ?_, ?_⟩
  · exact fun there => ((left ivy).1 there).2 below
  · exact gone "elm" (.single up)

end TaskForest
