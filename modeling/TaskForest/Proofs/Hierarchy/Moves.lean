import Mathlib
import TaskForest.Hierarchy.TreeView
import TaskForest.Proofs.Hierarchy.Move
import TaskForest.Proofs.Store.InMemory

/-!
Moves one after another. A move that succeeds closes no cycle and puts nothing below the greatest level, and
one that fails changes nothing. So a forest within a level stays one, and no walk up or down within that level
ever finds fault with it.
-/

namespace TaskForest

open LinkedStore (pointers)

/-- A call to move a task, made at a time. -/
structure Relocation where
  id : String
  parent : Option String
  now : Int64

namespace Relocation

variable {σ : Type} [TaskStore σ]

/-- The state after one move and the next, whether they succeed or not. -/
def allAfter (maxDepth : Nat) (s : σ) (moves : List Relocation) : σ :=
  moves.foldl (fun s r => leaves (reparent maxDepth r.now r.id r.parent) s) s

end Relocation

namespace Pointers

variable {f : Pointers} {maxDepth : Nat} {root id : String} {q : Option String}
  {e : HierarchyError}

structure ForestWithin (f : Pointers) (maxDepth : Nat) : Prop where
  acyclic : f.Acyclic
  within : f.Within maxDepth

namespace ForestWithin

theorem of_lineages (h : ∀ x, f.Stored x → ∃ as, f.Lineage (f.parent x) as ∧ as.length < maxDepth) :
    f.ForestWithin maxDepth where
  acyclic x cyclic := by
    obtain ⟨p, step, _⟩ := Relation.TransGen.head'_iff.1 cyclic
    obtain ⟨as, lineage, _⟩ := h x step.stored
    exact lineage.cycleFree_of_parent.not_onCycle cyclic
  within x stored := by
    obtain ⟨as, lineage, short⟩ := h x stored
    rw [lineage.level_eq]
    exact_mod_cast short

theorem put (h : f.ForestWithin maxDepth) (stored : f.Stored id)
    (fits : f.AdmitsAt maxDepth id q) : (f.put id q).ForestWithin maxDepth :=
  ⟨fits.acyclic h.acyclic, fits.within h.acyclic h.within stored⟩

theorem not_structural (h : f.ForestWithin maxDepth) (stored : f.Stored root)
    (refuses : f.Refuses root maxDepth e) : e.isStructural = false := by
  cases e with
  | cycle x => exact absurd refuses.2 (h.acyclic root)
  | tooDeep x =>
      -- an id right below the greatest level, counted from the root, is at a greater level itself
      have sum : f.level x + 1 = f.level root + (maxDepth + 1 : Nat) :=
        refuses.level_add (h.acyclic.cycleFree root) stored
      have low : f.level x ≤ maxDepth := h.within x ((AtLevel.reaches refuses).stored stored)
      have high : 1 + ((maxDepth + 1 : Nat) : ℕ∞) ≤ (maxDepth + 1 : Nat) := by
        calc 1 + ((maxDepth + 1 : Nat) : ℕ∞) ≤ f.level root + (maxDepth + 1 : Nat) := by
              gcongr
              exact one_le_level f root
          _ = f.level x + 1 := sum.symm
          _ ≤ maxDepth + 1 := by gcongr
          _ = (maxDepth + 1 : Nat) := by norm_cast
      have absurdity : 1 + (maxDepth + 1) ≤ maxDepth + 1 := by exact_mod_cast high
      omega
  | subtreeChanged _ | store _ => rfl

end ForestWithin
end Pointers

variable {σ : Type} [TaskStore σ] [LinkedStore σ]

theorem loadTree_refuses (maxDepth : Nat) (root : String) (s : σ) :
    Yields (loadTree maxDepth root) s
      (fun _ s' => pointers s' = pointers s)
      (fun e s' => pointers s' = pointers s ∧ (pointers s).Refuses root maxDepth e) := by
  rw [loadTree]
  refine .bind (.lift ((LinkedStore.get_yields root s).mono ?_ (fun _ _ kept => ⟨kept, trivial⟩)))
  intro found s₁ got
  obtain ⟨kept, _⟩ := got
  cases found with
  | none => exact .pure kept
  | some task =>
      rw [← kept]
      exact .bind ((fullWalk_refuses maxDepth root s₁).mono (fun _ _ h => .pure h) (fun _ _ h => h))

theorem allAfter_forestWithin (maxDepth : Nat) (moves : List Relocation) (s : σ)
    (h : (pointers s).ForestWithin maxDepth) :
    (pointers (Relocation.allAfter maxDepth s moves)).ForestWithin maxDepth := by
  induction moves generalizing s with
  | nil => exact h
  | cons r rest ih =>
      refine ih (leaves (reparent maxDepth r.now r.id r.parent) s) ?_
      refine Yields.leaves (P := fun s' : σ => (pointers s').ForestWithin maxDepth) ?_
      refine (reparent_yields maxDepth r.now r.id r.parent s).mono ?_ ?_
      · intro _ s' got
        obtain ⟨moved, stored, fits⟩ := got
        rw [moved]
        exact h.put stored fits
      · intro _ s' kept
        rwa [kept]

theorem reads_not_structural {maxDepth : Nat} {s : σ} (h : (pointers s).ForestWithin maxDepth)
    {id : String} (stored : (pointers s).Stored id) :
    (∀ e s', collect maxDepth id s = .error e s' → e.isStructural = false) ∧
    (∀ e s', loadTree maxDepth id s = .error e s' → e.isStructural = false) ∧
    ∀ e s', ancestors maxDepth id s = .error e s' → e.isStructural = false := by
  refine ⟨fun e s' failed => ?_, fun e s' failed => ?_, fun e s' failed => ?_⟩
  · exact h.not_structural stored ((collect_yields maxDepth id s).of_error failed).2
  · exact h.not_structural stored ((loadTree_refuses maxDepth id s).of_error failed).2
  · obtain ⟨above, lineage, short⟩ := h.acyclic.exists_lineage (h.within id stored)
    exact ((ancestors_yields maxDepth id s).of_error failed).2 above lineage short

/-- A move that succeeds sets one pointer. It leaves every chain of parents without a cycle that had none, and
those of the moved subtree, and keeps a forest within the level. So however many moves are made of such a
forest, and whether they succeed or not, a walk from a stored id does not fail by a cycle or a level. -/
theorem reparent_keeps_forest (maxDepth : Nat) :
    (∀ (s s' : σ) (now : Int64) (id : String) (parent : Option String) (task : Task),
      reparent maxDepth now id parent s = .ok task s' →
        pointers s' = (pointers s).put id parent ∧
        (∀ x, (pointers s).CycleFree x → (pointers s').CycleFree x) ∧
        (∀ x, (pointers s).Reaches x id ∨ (pointers s').Reaches x id → (pointers s').CycleFree x) ∧
        ((pointers s).ForestWithin maxDepth → (pointers s').ForestWithin maxDepth)) ∧
    ∀ (s : σ) (moves : List Relocation), (pointers s).ForestWithin maxDepth →
      ∀ id, (pointers (Relocation.allAfter maxDepth s moves)).Stored id →
        (∀ e s', collect maxDepth id (Relocation.allAfter maxDepth s moves) = .error e s' →
          e.isStructural = false) ∧
        (∀ e s', loadTree maxDepth id (Relocation.allAfter maxDepth s moves) = .error e s' →
          e.isStructural = false) ∧
        ∀ e s', ancestors maxDepth id (Relocation.allAfter maxDepth s moves) = .error e s' →
          e.isStructural = false := by
  refine ⟨?_, fun s moves h id stored => ?_⟩
  · intro s s' now id parent task ok
    obtain ⟨moved, stored, fits⟩ := (reparent_yields maxDepth now id parent s).of_ok ok
    rw [moved]
    refine ⟨rfl, fun x free => fits.cycleFree free, ?_, fun forest => forest.put stored fits⟩
    rintro x (before | after)
    · exact fits.cycleFree_below before
    · exact fits.cycleFree_self.below after
  · exact reads_not_structural (allAfter_forestWithin maxDepth moves s h) stored

/-- A task is taken out of a tree of two, and then a move fails. -/
theorem reparent_keeps_forest_of_two :
    let oak : Task := .new "oak" "Oak" 1
    let twig : Task := { Task.new "twig" "Twig" 2 with parent := some "oak" }
    let store : InMemory := .ofList [oak, twig]
    let apart : InMemory := .ofList [oak, { twig with parent := none, updatedAt := 3 }]
    (pointers store).ForestWithin 2 ∧
    (∃ task, reparent 2 3 "twig" none store = .ok task apart) ∧ (pointers apart).ForestWithin 2 ∧
    ∀ e s', collect 2 "twig"
      (Relocation.allAfter 2 store [⟨"twig", none, 3⟩, ⟨"oak", some "ash", 4⟩]) = .error e s' →
        e.isStructural = false := by
  intro oak twig store apart
  have tasks : store.records.tasks = [twig, oak] := by cbv
  have top : (pointers store).Lineage ((pointers store).parent "oak") [] := .root
  have stored : (pointers store).Stored "oak" :=
    Records.parents_stored.2 ⟨oak, by rw [tasks]; simp, rfl⟩
  have start : (pointers store).ForestWithin 2 := by
    refine .of_lineages fun x hx => ?_
    obtain ⟨t, ht, rfl⟩ := Records.parents_stored.1 hx
    rw [tasks] at ht
    rcases List.mem_pair.1 ht with rfl | rfl
    · exact ⟨["oak"], .step stored top, by decide⟩
    · exact ⟨[], top, by decide⟩
  have moved : reparent 2 3 "twig" none store =
      .ok { twig with parent := none, updatedAt := 3 } apart := by cbv
  refine ⟨start, ⟨_, moved⟩, ((reparent_keeps_forest 2).1 _ _ _ _ _ _ moved).2.2.2 start, ?_⟩
  have kept : (Relocation.allAfter 2 store
      [⟨"twig", none, 3⟩, ⟨"oak", some "ash", 4⟩]).records.tasks =
        [{ twig with parent := none, updatedAt := 3 }, oak] := by cbv
  refine ((reparent_keeps_forest 2).2 store _ start "twig" ?_).1
  exact Records.parents_stored.2 ⟨_, kept ▸ List.mem_cons_self, rfl⟩

end TaskForest
