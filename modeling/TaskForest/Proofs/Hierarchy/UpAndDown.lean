import TaskForest.Proofs.Hierarchy.Cycles
import TaskForest.Proofs.Hierarchy.Moves

/-!
The way up against the walk down. One follows single pointers and the other asks for children, and they tell the
same: an id is met below a root exactly if the root is met above the id, and the levels in between are counted
alike. Where no cycle is stored, as many levels as there are items are enough for both.
-/

namespace TaskForest

open LinkedStore (pointers)
open ItemStore (items idOf)

namespace Pointers

variable {f : Pointers} {root x : String} {as : List String} {n : Nat}

/-- The nearest id above stands at position 0 and two levels are counted up to it, its own and that of its child. -/
theorem AtLevel.eq_idxOf_add_two (k : f.AtLevel root x n) (h : f.Lineage (f.parent x) as)
    (stored : f.Stored root) (other : x ≠ root) : n = as.idxOf root + 2 := by
  -- from the root down: the way up from a child is its parent and then the way up from that
  induction k generalizing as with
  | root => exact absurd rfl other
  | @child x p n above step ih =>
      rw [parent_eq_some.2 step] at h
      obtain ⟨rest, rfl, upper⟩ := h.cons_of_stored (above.reaches.stored stored)
      by_cases top : p = root
      · subst top
        rw [above.unique upper.cycleFree_of_parent.not_onCycle .root, List.idxOf_cons_self]
      · rw [ih upper top, List.idxOf_cons_ne _ top]

end Pointers

variable {σ : Type} [TaskStore σ]

/-- The stored ids above an id that is on no cycle are distinct items, and it is one more. -/
theorem level_le_items [ItemStore σ] {s : σ} {x : String} (stored : (pointers s).Stored x)
    (off : ¬ (pointers s).OnCycle x) : (pointers s).level x ≤ (items s).length := by
  have new : x ∉ (pointers s).ancestors x := fun above => off above.2
  have listed : insert x ((pointers s).ancestors x) ⊆ (((items s).map idOf).toFinset : Set String) := by
    intro y hy
    rw [List.coe_toFinset]
    rcases Set.mem_insert_iff.1 hy with rfl | above
    · exact (ItemStore.stored_iff s y).1 stored
    · exact (ItemStore.stored_iff s y).1 above.1
  calc (pointers s).level x = (insert x ((pointers s).ancestors x)).encard :=
        (Set.encard_insert_of_notMem new).symm
    _ ≤ (((items s).map idOf).toFinset : Set String).encard := Set.encard_le_encard listed
    _ ≤ (items s).length := by
        rw [Set.encard_coe_eq_coe_finsetCard, Nat.cast_le, ← List.length_map idOf]
        exact List.toFinset_card_le _

variable [CodedStore σ]

theorem Intact.exists_ancestors {s : σ} {x : String} {maxDepth : Nat} (h : Intact s)
    (acyclic : (pointers s).Acyclic) (stored : (pointers s).Stored x)
    (enough : (items s).length ≤ maxDepth) : ∃ above, ancestors maxDepth x s = .ok above s := by
  have low : (pointers s).level x ≤ maxDepth :=
    (level_le_items stored (acyclic x)).trans (by exact_mod_cast enough)
  obtain ⟨as, lineage, short⟩ := acyclic.exists_lineage low
  have outcome := h.ancestors_yields maxDepth x
  cases climbed : ancestors maxDepth x s with
  | ok above s' =>
      obtain ⟨rfl, _⟩ := outcome.of_ok climbed
      exact ⟨above, rfl⟩
  | error e s' => exact absurd ((outcome.of_error climbed).2 as lineage) (Nat.not_le.2 short)

/-- Another id is collected below a stored root exactly if the root is among the ids that are met on the way up from
it, and the level of its visit is then two more than the position of the root on that way. This holds of any store
and any bounds under which both succeed. On an intact store without cycles they do, if as many levels are
allowed as there are items. -/
theorem collected_iff_ancestor (s : σ) (root x : String) (stored : (pointers s).Stored root) (other : x ≠ root) :
    (∀ down up w s₁ above s₂, fullWalk down root s = .ok w s₁ → ancestors up x s = .ok above s₂ →
      collect down root s = .ok w.subtree s₁ ∧ (x ∈ w.subtree.ids ↔ root ∈ above) ∧
      ∀ v ∈ w.visits, v.id = x → v.level = above.idxOf root + 2) ∧
    (Intact s → (pointers s).Acyclic → (pointers s).Stored x → ∀ maxDepth, (items s).length ≤ maxDepth →
      (∃ w s₁, fullWalk maxDepth root s = .ok w s₁) ∧
        ∃ above s₂, ancestors maxDepth x s = .ok above s₂) := by
  refine ⟨?_, fun h acyclic here maxDepth enough => ⟨?_, ?_⟩⟩
  · intro down up w s₁ above s₂ walked climbed
    obtain ⟨_, run, full⟩ := (Walk.fullWalk_yields childrenOf_tells down root s rfl).of_ok walked
    obtain ⟨_, lineage⟩ := (ancestors_yields up x s).of_ok climbed
    refine ⟨map_of_ok walked, ?_, ?_⟩
    · rw [(run.subtree_spans full).mem_iff, lineage.mem_iff_reaches stored other]
    · intro v hv same
      subst same
      exact (run.visit_atLevel v hv).eq_idxOf_add_two lineage stored other
  · obtain ⟨w, s₁, walked, _⟩ := h.exists_fullWalk stored (acyclic root) enough
    exact ⟨w, s₁, walked⟩
  · obtain ⟨above, climbed⟩ := h.exists_ancestors acyclic here enough
    exact ⟨above, s, climbed⟩

/-- Two levels lie between the lowest id and the root, and the pointer of the last one dangles. -/
theorem collected_iff_ancestor_of_four :
    let oak : Task := .new "oak" "Oak" 1
    let elm : Task := { Task.new "elm" "Elm" 2 with parent := some "oak" }
    let twig : Task := { Task.new "twig" "Twig" 3 with parent := some "elm" }
    let ash : Task := { Task.new "ash" "Ash" 4 with parent := some "ghost" }
    let store : InMemory := .ofList [oak, elm, twig, ash]
    ∃ w s₁, fullWalk 4 "oak" store = .ok w s₁ ∧ "twig" ∈ w.subtree.ids ∧ "ash" ∉ w.subtree.ids ∧
      ∀ v ∈ w.visits, v.id = "twig" → v.level = 3 := by
  intro oak elm twig ash store
  have intact : Intact store := InMemory.intact_ofList _
  have ids : (items store).map idOf = ["ash", "twig", "elm", "oak"] := by cbv
  have on : ∀ x, (pointers store).Stored x ↔ x ∈ ["ash", "twig", "elm", "oak"] := fun x =>
    ids ▸ ItemStore.stored_iff store x
  have top : (pointers store).Stored "oak" := (on "oak").2 (by decide)
  have forest : (pointers store).ForestWithin 4 := by
    refine .of_lineages fun x stored => ?_
    have parent_elm : (pointers store).parent "elm" = some "oak" := by cbv
    have above_elm : (pointers store).Lineage (some "oak") ["oak"] := .step top .root
    have some_of : x = "ash" ∨ x = "twig" ∨ x = "elm" ∨ x = "oak" := by simpa using (on x).1 stored
    rcases some_of with rfl | rfl | rfl | rfl
    · exact ⟨[], .dangling fun ghost => absurd ((on "ghost").1 ghost) (by decide), by decide⟩
    · exact ⟨["elm", "oak"], .step ((on "elm").2 (by decide)) (parent_elm ▸ above_elm), by decide⟩
    · exact ⟨["oak"], above_elm, by decide⟩
    · exact ⟨[], .root, by decide⟩
  obtain ⟨agree, succeed⟩ := collected_iff_ancestor store "oak" "twig" top (by decide)
  obtain ⟨agree', _⟩ := collected_iff_ancestor store "oak" "ash" top (by decide)
  obtain ⟨⟨w, s₁, walked⟩, above, s₂, climbed⟩ :=
    succeed intact forest.acyclic ((on "twig").2 (by decide)) 4 (by decide)
  have climbed_twig : ancestors 4 "twig" store = .ok ["elm", "oak"] store := by cbv
  have climbed_ash : ancestors 4 "ash" store = .ok [] store := by cbv
  cases climbed_twig.symm.trans climbed
  obtain ⟨_, twig_iff, level⟩ := agree 4 4 w s₁ _ _ walked climbed
  obtain ⟨_, ash_iff, _⟩ := agree' 4 4 w s₁ _ _ walked climbed_ash
  exact ⟨w, s₁, walked, twig_iff.2 (by decide), fun there => absurd (ash_iff.1 there) (by decide), level⟩

end TaskForest
