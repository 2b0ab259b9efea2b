import TaskForest.Proofs.Hierarchy.Ancestors
import TaskForest.Proofs.Hierarchy.DryRun
import TaskForest.Proofs.Store.Coded

/-!
Stores of which nothing is planned to fail and every item stands for a task. All that is read of them is told, so
a walk, up or down, is refused for the structure of the hierarchy only, and an update is refused only if there
is nothing to update.
-/

namespace TaskForest

open LinkedStore (pointers)
open OrderedStore (holds)
open ItemStore (items idOf encode Readable Faultless Resembles)
open CodedStore (Lossless Replaces)

structure Intact {σ : Type} [TaskStore σ] [ItemStore σ] (s : σ) : Prop where
  faultless : Faultless s
  readable : ∀ a ∈ items s, Readable a

theorem InMemory.intact_ofList (tasks : List Task) : Intact (InMemory.ofList tasks) :=
  ⟨rfl, fun _ _ => trivial⟩

theorem Table.intact_ofList (tasks : List Task) (orders : Nat → KeyOrder := fun _ => .ascending) :
    Intact (Table.ofList tasks orders) := by
  have added : ∀ t : Table, Intact t →
      Intact (tasks.foldl (fun t task => t.advance.add (.ofTask (t.orders 0) task)) t) := by
    induction tasks with
    | nil => exact fun _ h => h
    | cons task rest ih =>
        refine fun t h => ih _ ⟨?_, Readable.add (t := t.advance) h.readable (t.orders 0) task⟩
        change (t.advance.add _).refusals = []
        rw [add]
        split <;> exact h.faultless
  exact added _ ⟨rfl, readable_of_no_rows rfl⟩

/-- Where every id can be looked up, the way up is refused by a cycle or a level. -/
theorem Ancestors.climb_structural {σ : Type} [TaskStore σ] {s : σ}
    (told : ∀ id, ∃ found, TaskStore.get id s = .ok found s) (start : String) (room : Nat)
    (seen : List String) (parent : Option String) :
    Yields (climb start room seen parent) s (fun _ s' => s' = s)
      (fun e s' => s' = s ∧ e.isStructural = true) := by
  induction room using Nat.strong_induction_on generalizing seen parent with
  | _ room ih =>
      unfold climb
      cases parent with
      | none => exact .pure rfl
      | some id =>
          obtain ⟨found, same⟩ := told id
          refine .bind (.lift (.of_eq_ok same ?_))
          cases found with
          | none => exact .pure rfl
          | some task =>
              refine .check (fun _ => ⟨rfl, rfl⟩) (fun _ => ?_)
              cases room with
              | zero => exact .throw ⟨rfl, rfl⟩
              | succ room =>
                  exact .bind ((ih room (Nat.lt_succ_self _) (id :: seen) task.parent).mono
                    (fun _ _ kept => .pure kept) (fun _ _ h => h))

/-- What is written after a read is what would have been written before it. -/
theorem ItemStore.Resembles.replaces {σ : Type} [TaskStore σ] [CodedStore σ] {s s₁ s' : σ} {t : Task}
    (same : Resembles s₁ s) (h : Replaces s' s₁ t) : Replaces s' s t := by
  rw [Replaces, ← same.items, ← same.encode]
  exact h

namespace Intact

variable {σ : Type} [TaskStore σ]

section Items

variable [ItemStore σ] {s s' : σ}

theorem of_resembles (h : Intact s) (same : Resembles s' s) : Intact s' :=
  ⟨same.faultless, same.items ▸ h.readable⟩

theorem fullWalk_yields (h : Intact s) (maxDepth : Nat) (root : String) :
    Yields (fullWalk maxDepth root) s
      (fun w s' => Resembles s' s ∧ w.failure = none ∧
        Walk.Run (pointers s).Tells maxDepth [] [⟨root, 1⟩] w)
      (fun e s' => Resembles s' s ∧ e.isStructural = true ∧
        ∃ w, w.failure = some e ∧ Walk.Run (pointers s).Tells maxDepth [] [⟨root, 1⟩] w) := by
  have tells : ∀ id r, ItemStore.Answers s id r → (pointers s).Tells id r := fun _ _ told => told.tells
  refine (Walk.fullWalk_yields (ItemStore.childrenOf_answered s) maxDepth root s
    ⟨rfl, rfl, rfl, h.faultless⟩).mono ?_ ?_
  · intro w s' got
    obtain ⟨kept, run, full⟩ := got
    exact ⟨kept, full, run.mono tells⟩
  · intro e s' got
    obtain ⟨kept, w, run, failed⟩ := got
    refine ⟨kept, ?_, w, failed, run.mono tells⟩
    cases e with
    | cycle _ | tooDeep _ => rfl
    | subtreeChanged _ => exact ((run.mono tells).refuses failed).elim
    | store err =>
        obtain ⟨id, silent⟩ := run.failure_answered failed
        exact absurd (fun a stored _ => h.readable a stored) silent

theorem collect_yields (h : Intact s) (maxDepth : Nat) (root : String) :
    Yields (collect maxDepth root) s
      (fun subtree s' => Resembles s' s ∧ (pointers s).Spans root maxDepth subtree)
      (fun e s' => Resembles s' s ∧ (pointers s).Refuses root maxDepth e ∧ e.isStructural = true) := by
  refine .map ((h.fullWalk_yields maxDepth root).mono ?_ ?_)
  · intro w s' got
    obtain ⟨kept, full, run⟩ := got
    exact ⟨kept, run.subtree_spans full⟩
  · intro e s' got
    obtain ⟨kept, structural, w, failed, run⟩ := got
    exact ⟨kept, run.refuses failed, structural⟩

end Items

variable [CodedStore σ] {s s' : σ} {t u : Task} {id : String}

theorem get_yields (h : Intact s) (id : String) :
    Yields (TaskStore.get id) s
      (fun found s' => s' = s ∧ ∀ t, found = some t ↔ holds s t ∧ t.id = id) (fun _ _ => False) := by
  obtain ⟨found, read, shown⟩ := CodedStore.exists_get h.readable id
  exact .of_eq_ok read ⟨rfl, shown⟩

theorem ancestors_yields (h : Intact s) (maxDepth : Nat) (id : String) :
    Yields (ancestors maxDepth id) s
      (fun above s' => s' = s ∧ (pointers s).Lineage ((pointers s).parent id) above)
      (fun _ s' => s' = s ∧
        ∀ as, (pointers s).Lineage ((pointers s).parent id) as → maxDepth ≤ as.length) := by
  have told : ∀ id, ∃ found, TaskStore.get id s = .ok found s := fun id =>
    (CodedStore.exists_get h.readable id).imp fun _ got => got.1
  obtain ⟨found, read⟩ := told id
  have structural : Yields (ancestors maxDepth id) s (fun _ s' => s' = s)
      (fun e s' => s' = s ∧ e.isStructural = true) :=
    .bind (.lift (.of_eq_ok read (Ancestors.climb_structural told id (maxDepth - 1) [id] _)))
  refine (structural.and (TaskForest.ancestors_yields maxDepth id s)).mono
    (fun _ _ got => ⟨got.1, got.2.2⟩) (fun e s' got => ⟨got.1.1, fun as lineage => ?_⟩)
  by_contra short
  cases got.1.2.symm.trans (got.2.2 as lineage (Nat.lt_of_not_le short))

theorem roots_yields (h : Intact s) :
    Yields roots s (fun found s' => Resembles s' s ∧ (pointers s).ShowsRoots found)
      (fun _ _ => False) := by
  refine ((CodedStore.roots_tells h.faultless).and
    ((LinkedStore.query_yields .roots .oldestFirst s).and (ItemStore.query_encode .roots .oldestFirst s))).mono ?_ ?_
  · intro found s' got
    obtain ⟨⟨same, faultless, shows⟩, kept, written⟩ := got
    exact ⟨⟨same, written, kept, faultless⟩, shows⟩
  · intro e s' got
    obtain ⟨⟨a, stored, unread⟩, _⟩ := got
    exact unread (h.readable a stored)

theorem update_yields (h : Intact s) (t : Task) :
    Yields (TaskStore.update t) s (fun _ s' => Replaces s' s t ∧ Intact s')
      (fun _ _ => ¬ (pointers s).Stored t.id) := by
  refine (CodedStore.update_replaces t h.faultless).mono ?_ (fun _ _ missing => missing)
  intro _ s' got
  obtain ⟨replaced, faultless⟩ := got
  refine ⟨replaced, faultless, fun a stored => ?_⟩
  rw [replaced] at stored
  obtain ⟨old, before, rfl⟩ := List.mem_map.1 stored
  split
  · exact CodedStore.readable_encode s t
  · exact h.readable old before

theorem get_of_replaces (intact : Intact s') (h : Replaces s' s t) (stored : (pointers s).Stored t.id)
    (lossless : Lossless σ t) : TaskStore.get t.id s' = .ok (some t) s' := by
  obtain ⟨a, ha, same⟩ := List.mem_map.1 ((ItemStore.stored_iff s t.id).1 stored)
  have replaced : items s' = _ := h
  have written : encode s t ∈ items s' := replaced ▸ List.mem_map.2 ⟨a, ha, if_pos same⟩
  obtain ⟨found, read, shown⟩ := CodedStore.exists_get intact.readable t.id
  rw [read, (shown t).2 ⟨(CodedStore.holds_iff s' t).2 ⟨_, written, lossless s⟩, rfl⟩]

end Intact
end TaskForest
