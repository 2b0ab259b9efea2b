import TaskForest.Proofs.Hierarchy.Crowd
import TaskForest.Proofs.Hierarchy.Intact
import TaskForest.Proofs.Hierarchy.Moves

/-!
The roots of a forest. Every stored id hangs below exactly one of them, so the walks from the roots share the
store among them. A delete of one root takes nothing from below another, and when all of them are deleted, in
whatever order, nothing is left.
-/

namespace TaskForest

open LinkedStore (pointers)
open ItemStore (items idOf Faultless Resembles)

namespace Pointers

variable {f : Pointers} {m : Nat} {root : String} {roots : List String} {part : Subtree}
  {parts : List Subtree}

/-- The subtrees of some roots, one after the other, of which no two share an id. -/
structure Parts (f : Pointers) (roots : List String) (parts : List Subtree) : Prop where
  nodup : ∀ part ∈ parts, part.ids.Nodup
  apart : parts.Pairwise fun a b => List.Disjoint a.ids b.ids
  mem_iff : ∀ x, x ∈ parts.flatMap Subtree.ids ↔ ∃ r ∈ roots, f.Reaches x r

namespace Parts

theorem nil : f.Parts [] [] := ⟨by simp, .nil, by simp⟩

theorem cons (h : f.Parts roots parts) (spans : f.Spans root m part)
    (apart : ∀ x, f.Reaches x root → ∀ r ∈ roots, ¬ f.Reaches x r) :
    f.Parts (root :: roots) (part :: parts) := by
  refine ⟨List.forall_mem_cons.2 ⟨spans.nodup, h.nodup⟩, .cons (fun other among x here there => ?_) h.apart,
    fun x => ?_⟩
  · obtain ⟨r, hr, up⟩ := (h.mem_iff x).1 (List.mem_flatMap.2 ⟨other, among, there⟩)
    exact apart x ((spans.mem_iff x).1 here) r hr up
  · rw [List.flatMap_cons, List.mem_append, spans.mem_iff, h.mem_iff, List.exists_mem_cons_iff]

theorem flatMap_nodup (h : f.Parts roots parts) : (parts.flatMap Subtree.ids).Nodup :=
  List.nodup_flatMap.2 ⟨h.nodup, h.apart⟩

end Parts
end Pointers

variable {σ : Type} [TaskStore σ]

section Items

variable [ItemStore σ] {s t u : σ} {maxDepth : Nat} {root : String} {gone : String → Prop}

theorem ItemStore.Resembles.trans (h : Resembles u t) (k : Resembles t s) : Resembles u s :=
  ⟨h.items.trans k.items, h.encode.trans k.encode, h.pointers.trans k.pointers, h.faultless⟩

theorem Intact.exists_collect (h : Intact s) (forest : (pointers s).ForestWithin maxDepth)
    (stored : (pointers s).Stored root) :
    ∃ subtree s', collect maxDepth root s = .ok subtree s' ∧ Resembles s' s ∧
      (pointers s).Spans root maxDepth subtree := by
  have outcome := h.collect_yields maxDepth root
  cases walked : collect maxDepth root s with
  | ok subtree s' => exact ⟨subtree, s', rfl, outcome.of_ok walked⟩
  | error e s' =>
      obtain ⟨_, refuses, structural⟩ := outcome.of_error walked
      cases structural.symm.trans (forest.not_structural stored refuses)

/-- The walks from some roots, one after another. -/
theorem Intact.exists_parts (h : Intact s) (forest : (pointers s).ForestWithin maxDepth)
    {found : List String} (distinct : found.Nodup) (tops : ∀ r ∈ found, (pointers s).entry r = some none)
    (same : Resembles t s) :
    ∃ parts t', found.mapM (collect maxDepth) t = .ok parts t' ∧ Resembles t' s ∧
      (pointers s).Parts found parts := by
  induction found generalizing t with
  | nil => exact ⟨[], t, rfl, same, .nil⟩
  | cons r rest ih =>
      obtain ⟨new, distinct⟩ := List.nodup_cons.1 distinct
      obtain ⟨top, tops⟩ := List.forall_mem_cons.1 tops
      have stored : (pointers s).Stored r := by simp [Pointers.Stored, top]
      obtain ⟨part, t₁, walked, kept, spans⟩ := (h.of_resembles same).exists_collect
        (same.pointers.symm ▸ forest) (same.pointers.symm ▸ stored)
      obtain ⟨parts, t₂, others, kept', shared⟩ := ih distinct tops (kept.trans same)
      refine ⟨part :: parts, t₂, ?_, kept', ?_⟩
      · rw [List.mapM_cons, bind_of_ok walked, bind_of_ok others]
        rfl
      · rw [same.pointers] at spans
        refine shared.cons spans fun x up r' hr' up' => new ?_
        exact Pointers.eq_of_reaches_roots up up' top (tops r' hr') ▸ hr'

/-- Deletes of some roots, one after another, each of which would succeed alone. -/
theorem Trimmed.exists_deletes (faultless : Faultless s) (limits : Limits) {order : List String}
    (alone : ∀ r ∈ order, ∃ subtree seen, preview limits r s = .ok subtree seen) (h : Trimmed gone s t) :
    ∃ reports after, order.mapM (delete limits) t = .ok reports after ∧
      Trimmed (fun x => gone x ∨ ∃ r ∈ order, (pointers s).Reaches x r) s after ∧
      (reports.map Report.deleted).sum + (items after).length = (items t).length := by
  induction order generalizing gone t with
  | nil => exact ⟨[], t, rfl, by simpa using h, Nat.zero_add _⟩
  | cons r rest ih =>
      obtain ⟨first, alone⟩ := List.forall_mem_cons.1 alone
      obtain ⟨report, t₁, deleted, left, counted⟩ := h.delete_ok (c := ⟨r, limits⟩) faultless first
      obtain ⟨reports, after, others, left', counted'⟩ := ih alone left
      refine ⟨report :: reports, after, ?_, ?_, ?_⟩
      · rw [List.mapM_cons, bind_of_ok deleted, bind_of_ok others]
        rfl
      · simpa only [List.exists_mem_cons_iff, or_assoc] using left'
      · rw [List.map_cons, List.sum_cons]
        omega

end Items

/-- In a forest within the bound the subtrees of the roots have each stored id, in one of them and there once. The
roots can be deleted in any order, which leaves nothing and counts every item once. -/
theorem roots_share_store [CodedStore σ] (s : σ) (h : Intact s) (limits : Limits)
    (linked : ∀ x p, (pointers s).Step x p → (pointers s).Stored p)
    (forest : (pointers s).ForestWithin limits.maxDepth) :
    ∃ found seen, roots s = .ok found seen ∧
      (∃ parts after, (found.map Task.id).mapM (collect limits.maxDepth) seen = .ok parts after ∧
        (parts.Pairwise fun a b => List.Disjoint a.ids b.ids) ∧
        (parts.flatMap Subtree.ids).Perm ((items s).map idOf)) ∧
      ∀ order : List String, order.Perm (found.map Task.id) →
        ∃ reports after, order.mapM (delete limits) seen = .ok reports after ∧ items after = [] ∧
          (reports.map Report.deleted).sum = (items s).length := by
  obtain ⟨found, seen, told, kept, distinct, mem_iff⟩ : ∃ found seen, roots s = .ok found seen ∧
      Resembles seen s ∧ (pointers s).ShowsRoots found := by
    cases told : roots s with
    | ok found seen => exact ⟨found, seen, rfl, h.roots_yields.of_ok told⟩
    | error e seen => exact (h.roots_yields.of_error told).elim
  have stored_of_mem : ∀ r ∈ found.map Task.id, (pointers s).Stored r := fun r hr => by
    simp [Pointers.Stored, (mem_iff r).1 hr]
  have below : ∀ x, (∃ r ∈ found.map Task.id, (pointers s).Reaches x r) ↔ (pointers s).Stored x := by
    intro x
    constructor
    · intro got
      obtain ⟨r, hr, up⟩ := got
      exact up.stored (stored_of_mem r hr)
    · intro stored
      obtain ⟨_, lineage, _⟩ := forest.acyclic.exists_lineage (forest.within x stored)
      obtain ⟨r, up, top⟩ := lineage.endsAtRoot stored linked
      exact ⟨r, (mem_iff r).2 top, up⟩
  refine ⟨found, seen, told, ?_, fun order same => ?_⟩
  · obtain ⟨parts, after, walked, _, shared⟩ :=
      h.exists_parts forest distinct (fun r hr => (mem_iff r).1 hr) kept
    refine ⟨parts, after, walked, shared.apart, ?_⟩
    refine (List.perm_ext_iff_of_nodup shared.flatMap_nodup (ItemStore.distinct s)).2 fun x => ?_
    rw [shared.mem_iff, below, ItemStore.stored_iff]
  · have alone : ∀ r ∈ order, ∃ subtree s', preview limits r s = .ok subtree s' := fun r hr => by
      obtain ⟨subtree, s', walked, _⟩ := h.exists_collect forest (stored_of_mem r (same.mem_iff.1 hr))
      exact ⟨subtree, s', walked⟩
    obtain ⟨reports, after, deleted, trimmed, counted⟩ :=
      ((Trimmed.refl h.faultless).of_resembles kept).exists_deletes h.faultless limits alone
    have nothing : items after = [] := by
      refine List.eq_nil_iff_forall_not_mem.2 fun a left => ?_
      obtain ⟨stored, stays⟩ := trimmed.mem_items.1 left
      obtain ⟨r, hr, up⟩ :=
        (below (idOf a)).2 ((ItemStore.stored_iff s _).2 (List.mem_map_of_mem stored))
      exact stays (.inr ⟨r, same.mem_iff.2 hr, up⟩)
    refine ⟨reports, after, deleted, nothing, ?_⟩
    rw [nothing, kept.items] at counted
    exact counted

/-- Two trees of two, the younger of which is deleted first. -/
theorem roots_share_store_of_four :
    let oak : Task := .new "oak" "Oak" 1
    let elm : Task := { Task.new "elm" "Elm" 2 with parent := some "oak" }
    let ash : Task := .new "ash" "Ash" 3
    let ivy : Task := { Task.new "ivy" "Ivy" 4 with parent := some "ash" }
    let store : Table := .ofList [oak, elm, ash, ivy]
    let limits : Limits := { maxDepth := 2 }
    roots store = .ok [oak, ash] store ∧
    (∃ parts after, ["oak", "ash"].mapM (collect 2) store = .ok parts after ∧
      (parts.flatMap Subtree.ids).Perm ["ivy", "ash", "elm", "oak"]) ∧
    ∃ reports after, ["ash", "oak"].mapM (delete limits) store = .ok reports after ∧
      after.rows = [] ∧ (reports.map Report.deleted).sum = 4 := by
  intro oak elm ash ivy store limits
  have ids : (items store).map idOf = ["ivy", "ash", "elm", "oak"] := by cbv
  have told : roots store = .ok [oak, ash] store := by cbv
  have cases_on : ∀ x, (pointers store).Stored x → x = "ivy" ∨ x = "ash" ∨ x = "elm" ∨ x = "oak" := by
    intro x stored
    rw [ItemStore.stored_iff, ids] at stored
    simpa using stored
  have ivy_up : (pointers store).Step "ivy" "ash" := by cbv
  have elm_up : (pointers store).Step "elm" "oak" := by cbv
  have grounded : (pointers store).Grounded := by
    intro x stored
    rcases cases_on x stored with rfl | rfl | rfl | rfl
    · exact ⟨"ash", .single ivy_up, by cbv⟩
    · exact ⟨"ash", .refl, by cbv⟩
    · exact ⟨"oak", .single elm_up, by cbv⟩
    · exact ⟨"oak", .refl, by cbv⟩
  have forest : (pointers store).ForestWithin 2 := by
    refine .of_lineages fun x stored => ?_
    rcases cases_on x stored with rfl | rfl | rfl | rfl
    · exact ⟨["ash"], .step (grounded.parent_stored ivy_up) .root, by decide⟩
    · exact ⟨[], .root, by decide⟩
    · exact ⟨["oak"], .step (grounded.parent_stored elm_up) .root, by decide⟩
    · exact ⟨[], .root, by decide⟩
  obtain ⟨found, seen, told', ⟨parts, after, walked, _, shared⟩, deletes⟩ :=
    roots_share_store store (Table.intact_ofList _) limits (fun _ _ => grounded.parent_stored) forest
  cases told.symm.trans told'
  exact ⟨told, ⟨parts, after, walked, ids ▸ shared⟩, deletes ["ash", "oak"] (by decide)⟩

end TaskForest
