import TaskForest.Hierarchy.Ancestors
import TaskForest.Proofs.Store.Linked

/-!
The way up as a store tells it. What it gives is the lineage of the task, and where the lineage is short
enough only a failing read can stop it.
-/

namespace TaskForest

open LinkedStore (pointers)

variable {σ : Type} [TaskStore σ] [LinkedStore σ]

theorem Pointers.Lineage.cons_of_stored {f : Pointers} {p : String} {as : List String}
    (h : f.Lineage (some p) as) (stored : f.Stored p) :
    ∃ above, as = p :: above ∧ f.Lineage (f.parent p) above := by
  cases h with
  | dangling missing => exact absurd stored missing
  | step _ above => exact ⟨_, rfl, above⟩

namespace Ancestors

/-- What is known of a climb that fails: a lineage that fits was not the reason. -/
def Hindered (f : Pointers) (room : Nat) (seen : List String) (parent : Option String)
    (e : HierarchyError) : Prop :=
  ∀ as, f.Lineage parent as → (∀ a ∈ as, a ∉ seen) → as.length ≤ room → e.isStructural = false

theorem Hindered.step {f : Pointers} {room : Nat} {seen : List String} {id : String}
    {e : HierarchyError} (h : Hindered f room (id :: seen) (f.parent id) e) (stored : f.Stored id) :
    Hindered f (room + 1) seen (some id) e := by
  intro as lineage apart short
  obtain ⟨above, rfl, rest⟩ := lineage.cons_of_stored stored
  refine h above rest (fun a ha => ?_) (Nat.le_of_succ_le_succ short)
  rw [List.mem_cons, not_or]
  refine ⟨?_, apart a (List.mem_cons_of_mem _ ha)⟩
  intro same
  subst same
  exact (List.nodup_cons.1 lineage.nodup).1 ha

theorem climb_yields (start : String) (room : Nat) (seen : List String) (parent : Option String)
    (s : σ) :
    Yields (climb start room seen parent) s
      (fun above s' => pointers s' = pointers s ∧ (pointers s).Lineage parent above ∧
        above.length ≤ room)
      (fun e s' => pointers s' = pointers s ∧ Hindered (pointers s) room seen parent e) := by
  induction room using Nat.strong_induction_on generalizing seen parent s with
  | _ room ih =>
      unfold climb
      cases parent with
      | none => exact .pure ⟨rfl, .root, Nat.zero_le _⟩
      | some id =>
          refine .bind (.lift ((LinkedStore.get_yields id s).mono ?_
            (fun e s' kept => ⟨kept, fun _ _ _ _ => rfl⟩)))
          intro found s' got
          obtain ⟨kept, shows⟩ := got
          rw [← kept] at shows ⊢
          cases found with
          | none => exact .pure ⟨rfl, .dangling shows.missing, Nat.zero_le _⟩
          | some task =>
              have up : (pointers s').parent id = task.parent := shows.parent
              refine .check (fun met => ⟨rfl, fun as lineage apart _ => ?_⟩) (fun new => ?_)
              · obtain ⟨above, rfl, _⟩ := lineage.cons_of_stored shows.stored
                exact absurd met (apart id List.mem_cons_self)
              · cases room with
                | zero =>
                    refine .throw ⟨rfl, fun as lineage _ short => ?_⟩
                    obtain ⟨above, rfl, _⟩ := lineage.cons_of_stored shows.stored
                    cases short
                | succ room =>
                    have rest := ih room (Nat.lt_succ_self _) (id :: seen) task.parent s'
                    rw [← up] at rest ⊢
                    refine .bind (rest.mono ?_ ?_)
                    · intro above s'' got
                      obtain ⟨kept', lineage, short⟩ := got
                      exact .pure ⟨kept', .step shows.stored lineage, Nat.succ_le_succ short⟩
                    · intro e s'' got
                      obtain ⟨kept', hindered⟩ := got
                      exact ⟨kept', hindered.step shows.stored⟩

end Ancestors

theorem ancestors_yields (maxDepth : Nat) (id : String) (s : σ) :
    Yields (ancestors maxDepth id) s
      (fun above s' => pointers s' = pointers s ∧
        (pointers s).Lineage ((pointers s).parent id) above)
      (fun e s' => pointers s' = pointers s ∧
        ∀ as, (pointers s).Lineage ((pointers s).parent id) as → as.length < maxDepth →
          e.isStructural = false) := by
  refine .bind (.lift ((LinkedStore.get_yields id s).mono ?_ ?_))
  · intro found s' got
    obtain ⟨kept, shows⟩ := got
    have up : (pointers s).parent id = found.bind Task.parent := shows.parent
    rw [up]
    refine (Ancestors.climb_yields id (maxDepth - 1) [id] _ s').mono ?_ ?_
    · intro above s'' got
      obtain ⟨kept', lineage, _⟩ := got
      exact ⟨kept'.trans kept, kept ▸ lineage⟩
    · intro e s'' got
      obtain ⟨kept', hindered⟩ := got
      refine ⟨kept'.trans kept, fun as lineage short => ?_⟩
      rw [kept] at hindered
      refine hindered as lineage ?_ (by omega)
      intro a ha same
      rw [List.mem_singleton] at same
      subst same
      rw [← up] at lineage
      exact lineage.notMem_self ha
  · exact fun e s' kept => ⟨kept, fun _ _ _ => rfl⟩

end TaskForest
