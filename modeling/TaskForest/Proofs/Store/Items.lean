import TaskForest.Proofs.Pointers.Grounded
import TaskForest.Proofs.Store.Keeping
import TaskForest.Proofs.Store.Sorted

/-!
Stores as lists of items, one for each id: the tasks that are held in memory, and the rows of a table, of which
some may be damaged. So long as nothing is planned to fail, the children of an id are told exactly if all of
them can be read, and a batch of deletes takes the items of its ids away and counts them; it fails only if it
is guarded and something that stays points at one of the ids, and it tells what does.
-/

namespace TaskForest

open LinkedStore (pointers)

/-- A store whose content is a list of items. -/
class ItemStore (σ : Type) [TaskStore σ] extends LinkedStore σ, OrderedStore σ where
  Item : Type
  items : σ → List Item
  idOf : Item → String
  /-- The item that is written for a task, if it is written next. -/
  encode : σ → Task → Item
  /-- The item stands for a task. -/
  Readable : Item → Prop
  /-- No operation is planned to fail. -/
  Faultless : σ → Prop
  distinct (s : σ) : ((items s).map idOf).Nodup
  stored_iff (s : σ) (x : String) : (pointers s).Stored x ↔ x ∈ (items s).map idOf
  get_tells (id : String) (s : σ) :
    Yields (TaskStore.get id) s
      (fun found s' => s' = s ∧ ∀ t, found = some t ↔ holds s t ∧ t.id = id)
      (fun _ s' => s' = s ∧ (pointers s).Stored id ∧ ∀ t, holds s t → t.id ≠ id)
  faultless_governs : Governs Faultless Faultless
  query_encode (selection : Selection) (order : SortOrder) (s : σ) :
    Yields (TaskStore.query selection order) s (fun _ s' => encode s' = encode s)
      (fun _ s' => encode s' = encode s)
  childrenOf_tells (id : String) {s : σ} (h : Faultless s) :
    Yields (childrenOf id) s
      (fun _ s' => items s' = items s ∧ Faultless s' ∧
        ∀ a ∈ items s, (pointers s).Step (idOf a) id → Readable a)
      (fun _ s' => items s' = items s ∧ Faultless s' ∧
        ∃ a ∈ items s, (pointers s).Step (idOf a) id ∧ ¬ Readable a)
  deleteMany_takes (ids : List String) (guarded : Bool) {s : σ} (h : Faultless s) :
    Yields (TaskStore.deleteMany ids guarded) s
      (fun removed s' => items s' = (items s).filter (fun a => idOf a ∉ ids) ∧
        (guarded = true → (pointers s).Closed ids) ∧ removed + (items s').length = (items s).length)
      (fun e s' => items s' = items s ∧ guarded = true ∧ ¬ (pointers s).Closed ids ∧
        ∃ orphans, (pointers s).Orphans ids orphans ∧ e = .orphaned orphans)
  /-- The guard makes no difference where nothing that stays points at one of the ids. -/
  guard_unseen {ids : List String} {s : σ} (closed : (pointers s).Closed ids) (guarded : Bool) :
    TaskStore.deleteMany ids guarded s = TaskStore.deleteMany ids false s

/-- Distinct stored ids are no more than the items. -/
theorem ItemStore.length_le_items {σ : Type} [TaskStore σ] [ItemStore σ] {s : σ} {ids : List String}
    (nodup : ids.Nodup) (stored : ∀ x ∈ ids, (pointers s).Stored x) : ids.length ≤ (items s).length := by
  have listed : ids ⊆ (items s).map idOf := fun x hx => (stored_iff s x).1 (stored x hx)
  rw [← List.length_map idOf]
  exact (List.subperm_of_subset nodup listed).length_le

/-- A removal that is counted by what remains takes away the stored ones of the ids. -/
theorem ItemStore.encard_removed {σ : Type} [TaskStore σ] [ItemStore σ] {s s' : σ} {ids : List String}
    {removed : Nat} (left : items s' = (items s).filter fun a => idOf a ∉ ids)
    (count : removed + (items s').length = (items s).length) :
    {x | x ∈ ids ∧ (pointers s).Stored x}.encard = removed := by
  simp only [stored_iff]
  exact Pointers.encard_removed (ItemStore.distinct s) (left ▸ count)

namespace InMemory

theorem deleteMany_of_closed {s : InMemory} {ids : List String} (closed : s.records.parents.Closed ids)
    (guarded : Bool) : deleteMany ids guarded s = deleteMany ids false s := by
  have start : ∀ guarded, deleteMany ids guarded s = (deletes 0 ⟨s.records, 0⟩ ids >>= fun batch => do
      let orphans := if guarded then batch.records.attachedTo ids else []
      unless orphans.isEmpty do
        modify rollBack
        throw (.orphaned orphans)
      modify (commit · batch.records)
      pure batch.removed) s := fun _ => rfl
  rw [start, start]
  cases made : deletes 0 ⟨s.records, 0⟩ ids s with
  | error e s' => rw [bind_of_error made, bind_of_error made]
  | ok batch s' =>
      obtain ⟨_, _, left, _⟩ := (deletes_yields 0 ⟨s.records, 0⟩ ids s).of_ok made
      have none_left : batch.records.attachedTo ids = [] :=
        left ▸ Records.parents_orphans.eq_nil_iff.2 closed
      rw [bind_of_ok made, bind_of_ok made]
      simp only [none_left, ite_self]

instance : ItemStore InMemory where
  Item := Task
  items s := s.records.tasks
  idOf := Task.id
  encode _ t := t
  Readable _ := True
  Faultless s := s.faults = {}
  distinct s := s.records.distinct
  stored_iff s x := Pointers.listed_stored
  get_tells id s := ⟨rfl, fun _ => Records.find?_eq_some_iff⟩
  faultless_governs := faults_governs {}
  query_encode selection order s :=
    (query_yields selection order s).mono (fun _ _ _ => rfl) (fun _ _ _ => rfl)
  childrenOf_tells id s h := by
    refine (query_yields (.childrenOf id) .oldestFirst s).mono ?_ ?_
    · intro found s' got
      obtain ⟨rfl, _⟩ := got
      exact ⟨rfl, h, fun _ _ _ => trivial⟩
    · intro e s' got
      obtain ⟨_, _, fails, _⟩ := got
      rw [h] at fails
      cases fails
  deleteMany_takes ids guarded s h := by
    refine (deleteMany_yields ids guarded s).mono ?_ ?_
    · intro removed s' got
      obtain ⟨left, _, none_left, count⟩ := got
      rw [← left, Records.ids, Records.ids, List.length_map, List.length_map] at count
      exact ⟨congrArg Records.tasks left, fun on => Records.parents_orphans.eq_nil_iff.1 (none_left on), count⟩
    · intro e s' got
      obtain ⟨kept, _, fails | ⟨on, some_left, named⟩⟩ := got
      · exact absurd fails (not_mayFail h)
      · exact ⟨congrArg Records.tasks kept, on, mt Records.parents_orphans.eq_nil_iff.2 some_left, _,
          Records.parents_orphans, named⟩
  guard_unseen := deleteMany_of_closed

end InMemory

namespace Table

variable {t : Table} {ids : List String}

theorem deleteMany_of_closed (closed : t.parents.Closed ids) (guarded : Bool) :
    deleteMany ids guarded t = deleteMany ids false t := by
  cases made : t.deletes ids with
  | error e => rw [deleteMany_of_refused made, deleteMany_of_refused made]
  | ok got =>
      obtain ⟨left, removed⟩ := got
      have none_left := (parents_orphans (deletes_rows made).1).eq_nil_iff.2 closed
      rw [deleteMany_of_deletes made, deleteMany_of_deletes made, if_neg fun orphaned => orphaned.2 none_left,
        if_neg fun orphaned => orphaned.2 none_left]

/-- Where no row is refused, only the guard makes a batch fail. -/
theorem deleteMany_takes (ids : List String) (guarded : Bool) (unrefused : t.refusals = []) :
    Yields (deleteMany ids guarded) t
      (fun removed t' => t'.rows = t.rows.filter (fun r => r.id ∉ ids) ∧
        (guarded = true → t.parents.Closed ids) ∧ removed + t'.rows.length = t.rows.length)
      (fun e t' => t'.rows = t.rows ∧ guarded = true ∧ ¬ t.parents.Closed ids ∧
        ∃ orphans, t.parents.Orphans ids orphans ∧ e = .orphaned orphans) := by
  obtain ⟨left, removed, made, counted⟩ := exists_deletes unrefused ids
  obtain ⟨rows, _⟩ := deletes_rows made
  have orphans := parents_orphans rows
  rw [Yields, deleteMany_of_deletes made]
  split_ifs with orphaned
  · exact ⟨rfl, orphaned.1, mt orphans.eq_nil_iff.2 orphaned.2, _, orphans, rfl⟩
  · refine ⟨rows, fun on => orphans.eq_nil_iff.1 ?_, counted⟩
    exact not_not.1 fun some_left => orphaned ⟨on, some_left⟩

theorem get_reads (id : String) (t : Table) :
    Yields (get id) t
      (fun found t' => t' = t ∧
        ∀ task, found = some task ↔ (∃ row ∈ t.rows, read row = .ok task) ∧ task.id = id)
      (fun _ t' => t' = t ∧ id ∈ t.rows.map Row.id ∧
        ∀ task, (∃ row ∈ t.rows, read row = .ok task) → task.id ≠ id) := by
  have unique : ∀ row task, t.find? id = some row → (∃ other ∈ t.rows, read other = .ok task) →
      task.id = id → read row = .ok task := by
    rintro row task found ⟨other, stored, same⟩ rfl
    obtain ⟨first, row_id⟩ := (Pointers.find?_id_eq_some t.distinct).1 found
    rw [(read_same same).1] at row_id
    rwa [List.inj_on_of_nodup_map t.distinct first stored row_id]
  rw [get]
  refine .read ?_
  cases h : t.find? id with
  | none =>
      refine .pure ⟨rfl, fun task => ⟨fun absent => ?_, ?_⟩⟩
      · cases absent
      · rintro ⟨⟨row, stored, same⟩, rfl⟩
        have missing := Pointers.find?_id_eq_none.1 h
        rw [(read_same same).1] at missing
        exact absurd (List.mem_map_of_mem stored) missing
  | some row =>
      obtain ⟨stored, row_id⟩ := (Pointers.find?_id_eq_some t.distinct).1 h
      refine .map (.ofExcept (fun task k => ⟨rfl, fun other => ?_⟩) (fun e k => ⟨rfl, ?_, ?_⟩))
      · rw [Option.some.injEq]
        constructor
        · rintro rfl
          exact ⟨⟨row, stored, k⟩, (read_same k).1.trans row_id⟩
        · rintro ⟨held, other_id⟩
          exact Except.ok.inj (k.symm.trans (unique row other h held other_id))
      · exact row_id ▸ List.mem_map_of_mem stored
      · intro task held task_id
        cases k.symm.trans (unique row task h held task_id)

theorem exists_read_of_mem {rows : List Row} {found : List Task} {row : Row}
    (h : List.Forall₂ (fun row task => read row = .ok task) rows found) (selected : row ∈ rows) :
    ∃ task, read row = .ok task := by
  induction h with
  | nil => cases selected
  | @cons first task _ _ same _ ih =>
      rcases List.mem_cons.1 selected with rfl | behind
      · exact ⟨task, same⟩
      · exact ih behind

instance : ItemStore Table where
  Item := Row
  items := Table.rows
  idOf := Row.id
  encode t := Row.ofTask (t.orders 0)
  Readable row := ∃ task, read row = .ok task
  Faultless t := t.refusals = []
  distinct := Table.distinct
  stored_iff t x := Pointers.listed_stored
  faultless_governs := refusals_governs []
  get_tells id t :=
    (get_reads id t).mono (fun _ _ h => h) (fun _ _ h => ⟨h.1, Pointers.listed_stored.2 h.2.1, h.2.2⟩)
  query_encode selection order t :=
    (query_yields selection order t).mono (fun _ _ h => h.1 ▸ rfl) (fun _ _ h => h.1 ▸ rfl)
  childrenOf_tells id t unrefused := by
    refine (query_answers (.childrenOf id) .oldestFirst t).mono ?_ ?_
    · rintro found _ ⟨rfl, answered⟩
      refine ⟨rfl, unrefused, fun row stored step => ?_⟩
      exact exists_read_of_mem answered
        (mem_select_childrenOf.2 ⟨stored, (step_iff_of_mem stored).1 step⟩)
    · rintro e _ ⟨rfl, row, selected, damaged⟩
      obtain ⟨stored, parent⟩ := mem_select_childrenOf.1 selected
      exact ⟨rfl, unrefused, row, stored, (step_iff_of_mem stored).2 parent, not_exists_read damaged⟩
  deleteMany_takes ids guarded _ unrefused := deleteMany_takes ids guarded unrefused
  guard_unseen := deleteMany_of_closed

end Table
end TaskForest
