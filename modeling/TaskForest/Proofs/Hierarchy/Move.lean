import TaskForest.Hierarchy.Move
import TaskForest.Proofs.Hierarchy.Ancestors
import TaskForest.Proofs.Hierarchy.Subtree

/-!
Moves on parent pointers. The way up from the new parent and the walk below the task are taken one after
the other; together they say that the pointer may be set, because no level below the task comes to stand
below the greatest one and no cycle is closed. A move that fails sets nothing.
-/

namespace TaskForest

open LinkedStore (pointers)

variable {σ : Type} [TaskStore σ]

/-- The task is looked up, a move below another one is checked, and then there is one write. -/
theorem reparent_yields_of {maxDepth : Nat} {now : Int64} {id : String} {parent : Option String} {s : σ}
    {post : Task → σ → Prop} {fail : HierarchyError → σ → Prop} (ready : Task → σ → Prop)
    (look : Yields (TaskStore.get id) s
      (fun found s₁ => (found = none → fail (.store (.notFound id)) s₁) ∧
        ∀ old, found = some old → match parent with
          | none => ready old s₁
          | some p => Yields (Move.check maxDepth id p) s₁ (fun _ => ready old) fail)
      (fun e s₁ => fail (.store e) s₁))
    (write : ∀ old s₂, ready old s₂ →
      Yields (TaskStore.update { old with parent := parent, updatedAt := now }) s₂
        (fun _ => post { old with parent := parent, updatedAt := now })
        (fun e s₃ => fail (.store e) s₃)) :
    Yields (reparent maxDepth now id parent) s post fail := by
  rw [reparent]
  refine .bind (.lift (look.mono ?_ (fun _ _ h => h)))
  intro found s₁ got
  obtain ⟨missing, checked⟩ := got
  cases found with
  | none => exact .throw (missing rfl)
  | some old =>
      have update : ∀ s₂, ready old s₂ →
          Yields (do
              let moved := { old with parent := parent, updatedAt := now }
              (TaskStore.update moved : StoreM σ Unit)
              pure moved : HierarchyM σ Task) s₂ post fail := fun s₂ h =>
        .bind (.lift ((write old s₂ h).mono (fun _ _ k => .pure k) (fun _ _ k => k)))
      have next := checked old rfl
      cases parent with
      | none => exact update s₁ next
      | some p => exact .bind (next.mono (fun _ s₂ k => update s₂ k) (fun _ _ k => k))

variable [LinkedStore σ]

/-- What the way up and the walk down found, put together. -/
theorem Pointers.Admits.of_lineage {f : Pointers} {maxDepth : Nat} {id p : String}
    {above : List String} {subtree : Subtree} (stored : f.Stored p) (hid : f.Stored id) (ne : p ≠ id)
    (lineage : f.Lineage (f.parent p) above) (apart : id ∉ above)
    (spans : f.Spans id maxDepth subtree) (fits : above.length + 1 + subtree.depth ≤ maxDepth) :
    f.Admits maxDepth id p where
  stored := stored
  free := lineage.cycleFree_of_parent
  apart up := apart ((lineage.mem_iff_reaches hid ne).2 up)
  room := by
    intro x n h
    have low : n ≤ subtree.depth := spans.depth.2 ⟨x, h⟩
    rw [lineage.level_eq]
    exact_mod_cast Nat.le_trans (Nat.add_le_add_left low _) fits

theorem Move.check_yields (maxDepth : Nat) (id p : String) (s : σ)
    (hid : (pointers s).Stored id) :
    Yields (Move.check maxDepth id p) s
      (fun _ s' => pointers s' = pointers s ∧ (pointers s).Admits maxDepth id p)
      (fun _ s' => pointers s' = pointers s) := by
  rw [Move.check]
  refine .check (fun _ => rfl) (fun ne => ?_)
  refine .bind (.lift ((LinkedStore.get_yields p s).mono ?_ (fun _ _ kept => kept)))
  intro found s₁ got
  obtain ⟨kept₁, shows⟩ := got
  refine .check (fun _ => kept₁) (fun present => ?_)
  obtain ⟨task, rfl⟩ : ∃ task, found = some task := by
    cases found with
    | none => exact absurd rfl present
    | some task => exact ⟨task, rfl⟩
  rw [← kept₁] at hid shows ⊢
  refine .bind ((ancestors_yields maxDepth p s₁).mono ?_ (fun _ _ h => h.1))
  intro above s₂ got
  obtain ⟨kept₂, lineage⟩ := got
  refine .check (fun _ => kept₂) (fun apart => ?_)
  rw [← kept₂] at hid shows lineage ⊢
  refine .bind ((collect_yields maxDepth id s₂).mono ?_ (fun _ _ h => h.1))
  intro subtree s₃ got
  obtain ⟨kept₃, spans⟩ := got
  change Yields (if _ then _ else _) _ _ _
  split
  · exact .throw kept₃
  · next fits =>
      exact .pure ⟨kept₃, .of_lineage shows.stored hid ne lineage apart spans (by omega)⟩

theorem reparent_yields (maxDepth : Nat) (now : Int64) (id : String) (parent : Option String)
    (s : σ) :
    Yields (reparent maxDepth now id parent) s
      (fun _ s' => pointers s' = (pointers s).put id parent ∧ (pointers s).Stored id ∧
        (pointers s).AdmitsAt maxDepth id parent)
      (fun _ s' => pointers s' = pointers s) := by
  refine reparent_yields_of (fun old s₂ => pointers s₂ = pointers s ∧ old.id = id ∧
    (pointers s).Stored id ∧ (pointers s).AdmitsAt maxDepth id parent) ?_ ?_
  · refine (LinkedStore.get_yields id s).mono ?_ (fun _ _ kept => kept)
    intro found s₁ got
    obtain ⟨kept, shows⟩ := got
    refine ⟨fun _ => kept, fun old here => ?_⟩
    subst here
    cases parent with
    | none => exact ⟨kept, shows.2 old rfl, shows.stored, Pointers.admitsAt_none⟩
    | some p =>
        rw [← kept] at shows ⊢
        refine (Move.check_yields maxDepth id p s₁ shows.stored).mono ?_ (fun _ _ kept => kept)
        intro _ s₂ got
        obtain ⟨kept₂, admits⟩ := got
        exact ⟨kept₂, shows.2 old rfl, shows.stored, fun _ h => by cases h; exact admits⟩
  · intro old s₂ got
    obtain ⟨kept, same, stored, admits⟩ := got
    refine (LinkedStore.update_yields _ s₂).mono ?_ (fun _ _ kept' => kept'.trans kept)
    intro _ s₃ written
    rw [kept, same] at written
    exact ⟨written, stored, admits⟩

end TaskForest
