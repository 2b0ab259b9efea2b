import TaskForest.Proofs.Hierarchy.Delete
import TaskForest.Proofs.Store.Interleaved

/-!
A delete that other clients interrupt between the walk and the batch. The ids were collected from the store as it
was, and the batch is made on the store as it is then; what the guard reports is exactly what would lose its
parent.
-/

namespace TaskForest

open LinkedStore (pointers)
open ItemStore (items idOf Faultless)

namespace Pointers

variable {f : Pointers} {ids orphans : List String} {x : String}

theorem attached_reverse : f.Attached ids.reverse x ↔ f.Attached ids x := by
  simp only [Attached, List.mem_reverse]

theorem closed_reverse : f.Closed ids.reverse ↔ f.Closed ids := by
  simp only [Closed, List.mem_reverse]

theorem Orphans.of_reverse (h : f.Orphans ids.reverse orphans) : f.Orphans ids orphans :=
  ⟨h.ascending, fun x => (h.mem_iff x).trans attached_reverse⟩

end Pointers

/-- Whatever other clients do after the walk, where nothing is planned to fail: guarded, the delete fails exactly
if a task that is then stored and was not collected has its parent among the collected ids. It then tells the ids
of those tasks and leaves the store to the other clients. Otherwise it takes away the collected ids, wherever they
are. -/
theorem delete_interrupted {σ : Type} [TaskStore σ] [ItemStore σ] (s : σ) (faultless : Faultless s)
    (limits : Limits) (root : String) (calls : List Call) (subtree : Subtree) (seen : σ)
    (collected : preview limits root s = .ok subtree seen) :
    let between := Call.allAfter seen calls
    let attached := (pointers between).Attached subtree.ids
    let outcome := delete limits root (⟨s, calls⟩ : Interleaved σ)
    ((limits.orphanGuard = true ∧ ∃ x, attached x) →
      ∃ orphans left, outcome = .error (.subtreeChanged orphans) left ∧
        Ascending orphans ∧ (∀ x, x ∈ orphans ↔ attached x) ∧ items left.store = items between) ∧
    (¬ (limits.orphanGuard = true ∧ ∃ x, attached x) →
      ∃ report left, outcome = .ok report left ∧
        items left.store = (items between).filter (fun a => idOf a ∉ subtree.ids) ∧
        report.root = root ∧ report.collected = subtree.ids.length ∧ report.depth = subtree.depth ∧
        {x | x ∈ subtree.ids ∧ (pointers between).Stored x}.encard = report.deleted ∧
        (limits.orphanGuard = true → ∀ x, ∀ p ∈ subtree.ids, ¬ (pointers left.store).Step x p)) := by
  intro between attached outcome
  obtain ⟨kept, spans, _⟩ := (ItemStore.collect_yields limits.maxDepth root faultless).of_ok collected
  have here : Faultless between := ItemStore.faultless_governs.allAfter calls kept.faultless
  have batch := ItemStore.deleteAll_takes limits.orphanGuard subtree.leavesFirst here
  have linked := deleteAll_pointers limits.orphanGuard subtree.leavesFirst between
  have whole : outcome = _ := Interleaved.delete_eq collected spans.leavesFirst_ne_nil calls
  simp only [Subtree.leavesFirst, List.mem_reverse, Pointers.closed_reverse] at batch linked whole
  rw [whole]
  simp only [bind, EStateM.bind]
  cases made : deleteAll limits.orphanGuard subtree.ids.reverse between with
  | ok removed left =>
      obtain ⟨taken, _, closed, count⟩ := batch.of_ok made
      have quiet : ¬ (limits.orphanGuard = true ∧ ∃ x, attached x) :=
        fun loud => Pointers.closed_iff_not_attached.1 (closed loud.1) loud.2
      refine ⟨fun loud => absurd loud quiet, fun _ => ?_⟩
      have counted := ItemStore.encard_removed taken count
      refine ⟨_, _, rfl, taken, rfl, rfl, rfl, counted, fun on x p hp step => ?_⟩
      change (pointers left).Step x p at step
      rw [linked.of_ok made] at step
      obtain ⟨before, stays⟩ := Pointers.without_step.1 step
      exact stays (List.mem_reverse.2 (closed on x p before hp))
  | error e left =>
      obtain ⟨same, on, opened, orphans, named, rfl⟩ := batch.of_error made
      have loud : limits.orphanGuard = true ∧ ∃ x, attached x :=
        ⟨on, not_not.1 (mt Pointers.closed_iff_not_attached.2 opened)⟩
      refine ⟨fun _ => ?_, fun quiet => absurd loud quiet⟩
      have told := named.of_reverse
      exact ⟨orphans, _, rfl, told.ascending, told.mem_iff, same⟩

/-- A child that comes below a collected task after the walk. -/
theorem delete_interrupted_by_child :
    let oak : Task := .new "oak" "Oak" 1
    let twig : Task := { Task.new "twig" "Twig" 2 with parent := some "oak" }
    let bud : Task := { Task.new "bud" "Bud" 3 with parent := some "twig" }
    ∃ orphans left,
      delete {} "oak" (⟨.ofList [oak, twig], [.create bud]⟩ : Interleaved InMemory) =
        .error (.subtreeChanged orphans) left ∧ "bud" ∈ orphans := by
  intro oak twig bud
  let seen : InMemory := { InMemory.ofList [oak, twig] with counters := { queries := 2 } }
  have collected : preview {} "oak" (InMemory.ofList [oak, twig]) =
      .ok ⟨["oak", "twig"], 2⟩ seen := by cbv
  have attached : (pointers (Call.allAfter seen [.create bud])).Attached ["oak", "twig"] "bud" :=
    ⟨by decide, "twig", by decide, by cbv⟩
  obtain ⟨orphans, left, failed, _, named, _⟩ :=
    (delete_interrupted (InMemory.ofList [oak, twig]) rfl {} "oak" [.create bud] _ seen collected).1
      ⟨rfl, "bud", attached⟩
  exact ⟨orphans, left, failed, (named "bud").2 attached⟩

end TaskForest
