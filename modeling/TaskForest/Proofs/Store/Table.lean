import TaskForest.Proofs.Pointers.Grounded
import TaskForest.Proofs.Pointers.Listed
import TaskForest.Proofs.Store.Linked
import TaskForest.Proofs.Store.Row
import TaskForest.Proofs.Store.Statement
import TaskForest.Proofs.Text.Ascending
import TaskForest.Store.Table

/-!
The table of rows as parent pointers. Damage of a row, and a refusal, make operations fail and are told
apart from nothing here: what matters is that an operation that fails leaves the rows as they were, and that
an answer, where there is one, shows them.
-/

namespace TaskForest

namespace Table

variable {t t' : Table} {id : String}

def parents (t : Table) : Pointers := .listed Row.id Row.parent t.rows

theorem parents_entry (t : Table) (id : String) :
    t.parents.entry id = (t.find? id).map Row.parent := rfl

theorem read_eq_ok {r : Row} {task : Task} : read r = .ok task ↔ r.ReadsAs task := by
  rw [read, ← Row.toTask_eq_ok]
  cases r.toTask <;> simp [Except.mapError]

theorem read_same {r : Row} {task : Task} (h : read r = .ok task) :
    task.id = r.id ∧ task.parent = r.parent ∧ r.createdAt = .integer task.createdAt :=
  have reads := read_eq_ok.1 h
  ⟨reads.id, reads.parent, reads.createdAt⟩

theorem exists_read_iff {r : Row} : (∃ task, read r = .ok task) ↔ r.Legible :=
  (exists_congr fun _ => read_eq_ok).trans Row.legible_iff.symm

theorem not_exists_read {r : Row} {e : StoreError} (damaged : read r = .error e) : ¬ ∃ task, read r = .ok task := by
  intro got
  obtain ⟨task, same⟩ := got
  cases damaged.symm.trans same

@[simp] theorem rows_advance (t : Table) : t.advance.rows = t.rows := rfl

@[simp] theorem refusals_advance (t : Table) : t.advance.refusals = t.refusals := rfl

@[simp] theorem parents_advance (t : Table) : t.advance.parents = t.parents := rfl

theorem write_insertion (t : Table) (task : Task) (r : Row) :
    t.write task .insertion r = .ok (.ofTask (t.orders 0) task) := by
  rw [write, Row.assign_insertion]
  rfl

theorem write_update (t : Table) {task : Task} {r : Row} (same : r.id = task.id) :
    t.write task .update r = .ok (.ofTask (t.orders 0) task) := by
  rw [write, Row.assign_update, same]
  rfl

/-- A task is created as the row of it, where its id can be told to be free. -/
theorem create_eq (task : Task) (t : Table) : create task t = match get task.id t with
    | .ok none t => .ok () (t.advance.add (.ofTask (t.orders 0) task))
    | .ok (some _) t => .error (.alreadyExists task.id) t
    | .error e t => .error e t := by
  cases found : get task.id t with
  | error e t' => exact bind_of_error found
  | ok found' t' =>
      refine (bind_of_ok found).trans ?_
      cases found' with
      | some _ => rfl
      | none =>
          change ((MonadExcept.ofExcept (t'.write task .insertion .defaults) : StoreM Table Row) >>= fun row =>
            set (t'.advance.add row)) t' = _
          rw [write_insertion]
          rfl

/-- A task is put as the row of it in the place of the row of its id. -/
theorem update_eq (task : Task) (t : Table) : update task t =
    if t.find? task.id = none then .error (.notFound task.id) t
    else .ok () (t.advance.replace task.id (.ofTask (t.orders 0) task)) := by
  have start : (MonadState.get : StoreM Table Table) t = .ok t t := rfl
  rw [update, bind_of_ok start]
  cases found : t.find? task.id with
  | none => rfl
  | some old =>
      have same : old.id = task.id := ((Pointers.find?_id_eq_some t.distinct).1 found).2
      rw [if_neg (Option.some_ne_none old)]
      simp only [write_update t same]
      rfl

theorem get_yields (id : String) (t : Table) :
    Yields (get id) t
      (fun found t' => t' = t ∧ t.parents.Shows id found ∧ (found = none → t.find? id = none))
      (fun e t' => t' = t ∧ ∃ row ∈ t.rows, read row = .error e) := by
  rw [get]
  refine .read ?_
  cases h : t.find? id with
  | none =>
      have shows : t.parents.Shows id none := by
        refine ⟨?_, fun _ found => by cases found⟩
        rw [parents_entry, h]
        rfl
      exact .pure ⟨rfl, shows, fun _ => rfl⟩
  | some row =>
      obtain ⟨stored, row_id⟩ := (Pointers.find?_id_eq_some t.distinct).1 h
      refine .map (.ofExcept (fun task k => ?_) (fun _ k => ⟨rfl, row, stored, k⟩))
      obtain ⟨same_id, same_parent, _⟩ := read_same k
      refine ⟨rfl, ⟨?_, ?_⟩, nofun⟩
      · rw [parents_entry, h, Option.map_some, Option.map_some, same_parent]
      · rintro _ ⟨⟩
        rw [same_id, row_id]

theorem parents_add {row : Row} (free : t.find? row.id = none) :
    (t.add row).parents = t.parents.put row.id row.parent := by
  have missing : row.id ∉ t.rows.map Row.id := Pointers.find?_id_eq_none.1 free
  rw [add, dif_neg missing]
  exact Pointers.listed_cons

theorem rows_replace (t : Table) (row : Row) :
    (t.replace row.id row).rows = t.rows.map fun old => if old.id = row.id then row else old := by
  rw [replace, dif_pos ((Pointers.map_id_replace t.rows row).symm ▸ t.distinct)]

theorem refusals_replace (t : Table) (id : String) (row : Row) : (t.replace id row).refusals = t.refusals := by
  rw [replace]
  split <;> rfl

theorem parents_replace {row : Row} (taken : t.find? row.id ≠ none) :
    (t.replace row.id row).parents = t.parents.put row.id row.parent := by
  rw [parents, rows_replace]
  exact Pointers.listed_replace (not_not.1 (mt Pointers.find?_id_eq_none.2 taken))

theorem mem_select {selection : Selection} {order : SortOrder} {row : Row} :
    row ∈ t.select selection order ↔ row ∈ t.rows ∧ row.isSelected selection = true := by
  rw [select, List.mem_mergeSort, List.mem_filter]

/-- A query answers with the selected rows as they are read, and fails at one of them that is damaged. -/
theorem query_answers (selection : Selection) (order : SortOrder) (t : Table) :
    Yields (query selection order) t
      (fun found t' => t' = t ∧
        List.Forall₂ (fun row task => read row = .ok task) (t.select selection order) found)
      (fun e t' => t' = t ∧ ∃ row ∈ t.select selection order, read row = .error e) := by
  rw [query]
  refine .bind ?_
  change Yields ((t.select selection order).mapM _) t _ _
  generalize t.select selection order = rows
  induction rows with
  | nil => exact .pure ⟨rfl, .nil⟩
  | cons row rest ih =>
      rw [List.mapM_cons]
      refine .bind (.ofExcept (fun task k => ?_) (fun _ k => ⟨rfl, row, List.mem_cons_self, k⟩))
      refine .bind (ih.mono ?_ ?_)
      · rintro others _ ⟨rfl, same⟩
        exact .pure ⟨rfl, .cons k same⟩
      · rintro e _ ⟨rfl, other, behind, damaged⟩
        exact ⟨rfl, other, List.mem_cons_of_mem row behind, damaged⟩

theorem query_yields (selection : Selection) (order : SortOrder) (t : Table) :
    Yields (query selection order) t
      (fun found t' => t' = t ∧
        List.Forall₂ (fun row task => read row = .ok task) (t.select selection order) found)
      (fun e t' => t' = t ∧ ∃ row ∈ t.rows, read row = .error e) := by
  refine (query_answers selection order t).mono (fun _ _ h => h) ?_
  intro e t' got
  obtain ⟨same, row, selected, damaged⟩ := got
  exact ⟨same, row, (mem_select.1 selected).1, damaged⟩

theorem map_id_read {rows : List Row} {found : List Task}
    (h : List.Forall₂ (fun row task => read row = .ok task) rows found) :
    found.map Task.id = rows.map Row.id := by
  induction h with
  | nil => rfl
  | cons k _ ih => rw [List.map_cons, List.map_cons, ih, (read_same k).1]

theorem parents_showsChildren (id : String) (order : SortOrder) {found : List Task}
    (h : List.Forall₂ (fun row task => read row = .ok task) (t.select (.childrenOf id) order) found) :
    t.parents.ShowsChildren id found := by
  refine Pointers.listed_select (q := some id) t.distinct ?_
  rw [map_id_read h]
  refine ((List.mergeSort_perm _ _).trans (.of_eq (List.filter_congr fun row _ => ?_))).map Row.id
  exact row.isSelected_childrenOf id

theorem delete_rows {found : Bool} (h : t.delete id = .ok (t', found)) :
    t'.rows = (t.rows.filter fun r => r.id ≠ id) ∧ t'.refusals = t.refusals := by
  rw [delete] at h
  split at h
  · next missing =>
      cases h
      refine ⟨?_, rfl⟩
      have apart : id ∉ t.rows.map Row.id :=
        Pointers.find?_id_eq_none.1 (Option.isNone_iff_eq_none.1 missing)
      symm
      rw [List.filter_eq_self]
      intro r hr
      rw [decide_eq_true_eq]
      intro same
      subst same
      exact apart (List.mem_map_of_mem hr)
  · split at h
    · cases h
    · cases h
      exact ⟨rfl, rfl⟩

theorem deletes_rows {ids : List String} {removed : Nat} (h : t.deletes ids = .ok (t', removed)) :
    t'.rows = (t.rows.filter fun r => r.id ∉ ids) ∧ t'.refusals = t.refusals := by
  induction ids generalizing t removed with
  | nil =>
      cases h
      simp
  | cons id rest ih =>
      obtain ⟨⟨t₁, found⟩, first, h⟩ := exists_of_bind_eq_ok h
      obtain ⟨⟨t₂, others⟩, second, h⟩ := exists_of_bind_eq_ok h
      cases h
      obtain ⟨first_rows, first_refusals⟩ := delete_rows first
      obtain ⟨rows, refusals⟩ := ih second
      refine ⟨?_, refusals.trans first_refusals⟩
      rw [rows, first_rows, List.filter_filter]
      refine List.filter_congr fun r _ => ?_
      simp only [List.mem_cons, not_or, Bool.decide_and, ne_eq, Bool.and_comm]

/-- Where no row is refused, a delete succeeds and says whether there was a row to take away. -/
theorem exists_delete (unrefused : t.refusals = []) (id : String) :
    ∃ left found, t.delete id = .ok (left, found) ∧
      (if found then 1 else 0) + left.rows.length = t.rows.length := by
  have counted := Pointers.length_filter_ne t.distinct id
  rw [delete]
  split
  · next missing => exact ⟨t, false, rfl, Nat.zero_add _⟩
  · next found =>
      have stored : id ∈ t.rows.map Row.id := by
        by_contra apart
        exact found (Option.isNone_iff_eq_none.2 (Pointers.find?_id_eq_none.2 apart))
      rw [if_pos stored] at counted
      rw [unrefused]
      exact ⟨t.erase id, true, rfl, counted⟩

theorem exists_deletes (unrefused : t.refusals = []) (ids : List String) :
    ∃ left removed, t.deletes ids = .ok (left, removed) ∧ removed + left.rows.length = t.rows.length := by
  induction ids generalizing t with
  | nil => exact ⟨t, 0, rfl, Nat.zero_add _⟩
  | cons id rest ih =>
      obtain ⟨first, found, one, counted⟩ := exists_delete unrefused id
      obtain ⟨left, removed, others, total⟩ := ih ((delete_rows one).2.trans unrefused)
      refine ⟨left, if found then removed + 1 else removed, ?_, ?_⟩
      · rw [deletes, one]
        change (first.deletes rest >>= _) = _
        rw [others]
        rfl
      · cases found with
        | true =>
            simp only [if_true] at counted ⊢
            omega
        | false =>
            simp only [Bool.false_eq_true, if_false] at counted ⊢
            omega

theorem step_iff_of_mem {row : Row} {p : String} (stored : row ∈ t.rows) :
    t.parents.Step row.id p ↔ row.parent = some p := by
  rw [parents, Pointers.listed_step t.distinct]
  constructor
  · intro got
    obtain ⟨other, hother, same, parent⟩ := got
    rwa [← List.inj_on_of_nodup_map t.distinct hother stored same]
  · intro parent
    exact ⟨row, stored, rfl, parent⟩

theorem mem_attachedTo {ids : List String} {x : String} :
    x ∈ t.attachedTo ids ↔ ∃ row ∈ t.rows, row.id = x ∧ ∃ p ∈ ids, row.parent = some p := by
  rw [attachedTo, Ascending.mem_ofList]
  simp only [List.mem_map, List.mem_filter, Option.any_eq_true, decide_eq_true_eq, and_assoc]
  refine exists_congr fun row => and_congr_right fun _ => ?_
  rw [and_comm]
  exact and_congr_right fun _ => exists_congr fun p => and_comm

/-- What is attached to the ids behind their removal was attached to them before. -/
theorem parents_orphans {ids : List String} (left : t'.rows = t.rows.filter fun r => r.id ∉ ids) :
    t.parents.Orphans ids (t'.attachedTo ids) where
  ascending := Ascending.ofList_ascending _
  mem_iff x := by
    rw [mem_attachedTo, left]
    constructor
    · intro got
      obtain ⟨row, kept, rfl, p, hp, parent⟩ := got
      obtain ⟨stored, stays⟩ := List.mem_filter.1 kept
      exact ⟨of_decide_eq_true stays, p, hp, (step_iff_of_mem stored).2 parent⟩
    · intro got
      obtain ⟨stays, p, hp, step⟩ := got
      obtain ⟨row, stored, rfl, parent⟩ := (Pointers.listed_step t.distinct).1 step
      exact ⟨row, List.mem_filter.2 ⟨stored, decide_eq_true stays⟩, rfl, p, hp, parent⟩

/-- A batch that no refusal stops fails only by the guard, and then changes nothing. -/
theorem deleteMany_of_deletes {ids : List String} {left : Table} {removed : Nat}
    (made : t.deletes ids = .ok (left, removed)) (guarded : Bool) :
    deleteMany ids guarded t =
      if guarded = true ∧ left.attachedTo ids ≠ [] then .error (.orphaned (left.attachedTo ids)) t
      else .ok removed left := by
  have start : deleteMany ids guarded t =
      ((MonadExcept.ofExcept (t.deletes ids) : StoreM Table (Table × Nat)) >>= fun made => do
        let orphans := if guarded then made.1.attachedTo ids else []
        unless orphans.isEmpty do throw (.orphaned orphans)
        set made.1
        pure made.2) t := rfl
  rw [start, made]
  change (do
    let orphans := if guarded then left.attachedTo ids else []
    unless orphans.isEmpty do throw (.orphaned orphans)
    set left
    pure removed : StoreM Table Nat) t = _
  cases guarded with
  | false => rfl
  | true => cases left.attachedTo ids <;> rfl

theorem deleteMany_of_refused {ids : List String} {e : StoreError} (failed : t.deletes ids = .error e)
    (guarded : Bool) : deleteMany ids guarded t = .error e t := by
  have start : deleteMany ids guarded t =
      ((MonadExcept.ofExcept (t.deletes ids) : StoreM Table (Table × Nat)) >>= _) t := rfl
  rw [start, failed]
  rfl

theorem deleteMany_yields (ids : List String) (guarded : Bool) (t : Table) :
    Yields (deleteMany ids guarded) t
      (fun _ t' => t'.rows = (t.rows.filter fun r => r.id ∉ ids) ∧ t'.refusals = t.refusals)
      (fun _ t' => t' = t) := by
  rw [Yields]
  cases made : t.deletes ids with
  | error e =>
      rw [deleteMany_of_refused made]
  | ok got =>
      obtain ⟨left, removed⟩ := got
      rw [deleteMany_of_deletes made]
      split_ifs with orphaned
      · rfl
      · exact deletes_rows made

theorem parents_of_rows {ids : List String} (h : t'.rows = t.rows.filter fun r => r.id ∉ ids) :
    t'.parents = t.parents.without ids := by
  rw [parents, h]
  exact Pointers.listed_filter

instance : LinkedStore Table where
  pointers t := t.parents
  get_yields id t := by
    refine (get_yields id t).mono ?_ (fun _ _ kept => congrArg parents kept.1)
    intro found _ got
    obtain ⟨same, shows, _⟩ := got
    subst same
    exact ⟨rfl, shows⟩
  query_yields selection order t :=
    (query_yields selection order t).mono (fun _ _ h => congrArg parents h.1)
      (fun _ _ h => congrArg parents h.1)
  childrenOf_shows id t :=
    (query_yields (.childrenOf id) .oldestFirst t).mono
      (fun _ _ h => parents_showsChildren id .oldestFirst h.2) (fun _ _ _ => trivial)
  create_yields task t := by
    have told := get_yields task.id t
    change Yields (create task) t _ _
    rw [Yields, create_eq]
    cases found : get task.id t with
    | error e t' => exact congrArg parents (told.of_error found).1
    | ok found' t' =>
        obtain ⟨rfl, shows, unread⟩ := told.of_ok found
        cases found' with
        | some _ => rfl
        | none => exact ⟨shows.missing, parents_add (t := t'.advance) (unread rfl)⟩
  update_yields task t := by
    change Yields (update task) t _ _
    rw [Yields, update_eq]
    split_ifs with missing
    · rfl
    · have taken : t.advance.find? (Row.ofTask (t.orders 0) task).id ≠ none := missing
      exact parents_replace taken
  deleteMany_yields ids guarded t :=
    (deleteMany_yields ids guarded t).mono (fun _ _ h => parents_of_rows h.1)
      (fun _ _ kept => congrArg parents kept)

end Table
end TaskForest
