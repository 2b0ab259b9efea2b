import TaskForest.Proofs.Store.Records
import TaskForest.Store.InMemory

/-!
The operations of the store in memory, on its records. None of them changes the plan of faults, and only the
plan and the guard make a batch of deletes fail. A failure leaves the records as they were.
-/

namespace TaskForest
namespace InMemory

variable {s : InMemory}

/-- The plan and nothing else fails a delete of a batch. -/
def MayFail (s : InMemory) : Prop := ∃ done id, s.faults.failsDelete done id = true

theorem not_mayFail (h : s.faults = {}) : ¬ s.MayFail := by
  intro got
  obtain ⟨done, id, fails⟩ := got
  rw [h] at fails
  cases fails

theorem create_yields (t : Task) (s : InMemory) :
    Yields (create t) s
      (fun _ s' => s.records.find? t.id = none ∧ s' = { s with records := s.records.add t })
      (fun _ s' => s' = s) := by
  rw [create]
  refine .bind (.check (fun _ => rfl) (fun free => ⟨?_, rfl⟩))
  simpa using free

theorem update_yields (t : Task) (s : InMemory) :
    Yields (update t) s
      (fun _ s' => s.records.find? t.id ≠ none ∧ s' = { s with records := s.records.replace t })
      (fun _ s' => s' = s) := by
  rw [update]
  refine .bind (.check (fun _ => rfl) (fun taken => ⟨?_, rfl⟩))
  simpa using taken

theorem query_yields (selection : Selection) (order : SortOrder) (s : InMemory) :
    Yields (query selection order) s
      (fun found s' => s' = s.countQuery ∧ found = s.records.select selection order ∧
        s.faults.failsQuery selection = none)
      (fun e s' => s' = s.countQuery ∧ ∃ id, s.faults.failsQuery selection = some id ∧
        e = .planned ("children query for " ++ id)) := by
  rw [query]
  refine .bind (.modify (.read ?_))
  cases h : s.countQuery.faults.failsQuery selection with
  | none => exact .pure ⟨rfl, rfl, h⟩
  | some id => exact .throw ⟨rfl, id, h, rfl⟩

theorem deletes_yields (done : Nat) (batch : Batch) (ids : List String) (s : InMemory) :
    Yields (deletes done batch ids) s
      (fun after s' => s'.records = s.records ∧ s'.faults = s.faults ∧
        after.records = batch.records.without ids ∧
        after.removed + after.records.ids.length = batch.removed + batch.records.ids.length)
      (fun _ s' => s'.records = s.records ∧ s'.faults = s.faults ∧ s.MayFail) := by
  induction ids generalizing done batch s with
  | nil => exact .pure ⟨rfl, rfl, batch.records.without_nil.symm, rfl⟩
  | cons id rest ih =>
      rw [deletes]
      refine .bind (.bind ?_)
      change Yields (if s.faults.failsDelete done id = true then _ else _) s.countDelete _ _
      split
      · next fails => exact ⟨rfl, rfl, done, id, fails⟩
      · refine (ih (done + 1) (batch.delete id) s.countDelete).mono ?_ (fun _ _ h => h)
        intro after s' got
        obtain ⟨kept, faults, left, count⟩ := got
        refine ⟨kept, faults, left.trans (batch.records.erase_without id rest), count.trans ?_⟩
        have one := batch.records.length_erase id
        change (if (batch.records.find? id).isSome then batch.removed + 1 else batch.removed) +
          (batch.records.erase id).ids.length = _
        split at one
        · next found =>
            rw [if_pos found]
            omega
        · next missing =>
            rw [if_neg missing]
            omega

/-- The ids of the records that a batch would leave without their parent. -/
def orphans (s : InMemory) (ids : List String) : List String :=
  (s.records.without ids).attachedTo ids

theorem deleteMany_yields (ids : List String) (guarded : Bool) (s : InMemory) :
    Yields (deleteMany ids guarded) s
      (fun removed s' => s'.records = s.records.without ids ∧ s'.faults = s.faults ∧
        (guarded = true → s.orphans ids = []) ∧
        removed + (s.records.without ids).ids.length = s.records.ids.length)
      (fun e s' => s'.records = s.records ∧ s'.faults = s.faults ∧
        (s.MayFail ∨ guarded = true ∧ s.orphans ids ≠ [] ∧ e = .orphaned (s.orphans ids))) := by
  rw [deleteMany]
  refine .bind (.bind ((deletes_yields 0 ⟨s.records, 0⟩ ids s).mono ?_
    (fun _ _ h => ⟨h.1, h.2.1, .inl h.2.2⟩)))
  intro batch s' got
  obtain ⟨_, removed⟩ := batch
  obtain ⟨kept, faults, same, count⟩ := got
  subst same
  replace count := count.trans (Nat.zero_add _)
  change Yields (if (if guarded = true then s.orphans ids else []).isEmpty = true then _ else _) s' _ _
  cases guarded with
  | false => exact ⟨rfl, faults, nofun, count⟩
  | true =>
      rw [if_pos rfl]
      split
      · next none_left => exact ⟨rfl, faults, fun _ => List.isEmpty_iff.1 none_left, count⟩
      · next some_left =>
          refine ⟨kept, faults, .inr ⟨rfl, fun none_left => some_left ?_, rfl⟩⟩
          rw [none_left]
          rfl

instance : LinkedStore InMemory where
  pointers s := s.records.parents
  get_yields id s := ⟨rfl, s.records.parents_shows id⟩
  query_yields selection order s := by
    refine (query_yields selection order s).mono ?_ ?_
    · intro found _ got
      obtain ⟨same, _⟩ := got
      subst same
      rfl
    · intro e _ got
      obtain ⟨same, _⟩ := got
      subst same
      rfl
  childrenOf_shows id s := by
    refine (query_yields (.childrenOf id) .oldestFirst s).mono ?_ (fun _ _ _ => trivial)
    intro _ s' got
    obtain ⟨_, same, _⟩ := got
    subst same
    exact s.records.parents_showsChildren id .oldestFirst
  create_yields t s := by
    refine (create_yields t s).mono ?_ ?_
    · intro _ _ got
      obtain ⟨free, same⟩ := got
      subst same
      exact ⟨(free ▸ s.records.parents_shows t.id).missing, Records.parents_add free⟩
    · intro e _ same
      subst same
      rfl
  update_yields t s := by
    refine (update_yields t s).mono ?_ ?_
    · intro _ _ got
      obtain ⟨taken, same⟩ := got
      subst same
      exact Records.parents_replace taken
    · intro e _ same
      subst same
      rfl
  deleteMany_yields ids guarded s := by
    refine (deleteMany_yields ids guarded s).mono ?_ ?_
    · intro removed s' got
      obtain ⟨left, _⟩ := got
      rw [left, Records.parents_without]
    · intro e s' got
      obtain ⟨kept, _⟩ := got
      rw [kept]

end InMemory
end TaskForest
