import TaskForest.Proofs.Store.Coded

/-!
What a table answers about a task that was written to it, whatever else it holds and in whatever order the keys of
its metadata were printed. The task comes back equal wherever it is asked for. A query that selects it is answered
exactly if every other row that it selects can be read, so a damaged row hides the tasks that are selected along
with it, and no others.
-/

namespace TaskForest
namespace Table

variable {t t' : Table} {task : Task} {row : Row} {selection : Selection} {order : SortOrder} {found : List Task}

/-- A query is answered exactly if every row that it selects can be read. -/
theorem exists_query_iff :
    (∃ found, query selection order t = .ok found t) ↔
      ∀ row ∈ t.rows, row.isSelected selection = true → row.Legible := by
  have told := query_answers selection order t
  constructor
  · intro got
    obtain ⟨found, made⟩ := got
    obtain ⟨_, answered⟩ := told.of_ok made
    intro row stored selected
    exact exists_read_iff.1 (exists_read_of_mem answered (mem_select.2 ⟨stored, selected⟩))
  · intro legible
    cases made : query selection order t with
    | ok found t' =>
        obtain ⟨rfl, _⟩ := told.of_ok made
        exact ⟨found, rfl⟩
    | error e t' =>
        obtain ⟨_, row, selected, damaged⟩ := told.of_error made
        obtain ⟨stored, selected⟩ := mem_select.1 selected
        exact absurd (exists_read_iff.2 (legible row stored selected)) (not_exists_read damaged)

/-- No two tasks of an answer have the same id. -/
theorem nodup_of_query (made : query selection order t = .ok found t') : (found.map Task.id).Nodup := by
  obtain ⟨_, answered⟩ := (query_answers selection order t).of_ok made
  have sorted : (t.select selection order).Perm (t.rows.filter (Row.isSelected selection)) :=
    List.mergeSort_perm _ _
  rw [map_id_read answered, (sorted.map Row.id).nodup_iff]
  exact t.distinct.sublist (List.filter_sublist.map Row.id)

theorem filter_id_eq_singleton (distinct : (found.map Task.id).Nodup) (held : task ∈ found) :
    (found.filter fun u => u.id = task.id) = [task] := by
  have same : ∀ u ∈ found, decide (u.id = task.id) = decide (u = task) := fun u hu =>
    decide_eq_decide.2 ⟨List.inj_on_of_nodup_map distinct hu held, congrArg Task.id⟩
  rw [List.filter_congr same, List.filter_eq, List.count_eq_one_of_mem distinct.of_map held]
  rfl

/-- The task is answered as it is, by a look-up and by every query that selects it, as long as this meets no
other row that cannot be read. -/
structure Answers (t : Table) (task : Task) : Prop where
  get : Table.get task.id t = .ok (some task) t
  query_iff (selection : Selection) (order : SortOrder) : selection.selects task = true →
    ((∃ found, query selection order t = .ok found t) ↔
      ∀ row ∈ t.rows, row.id ≠ task.id → row.isSelected selection = true → row.Legible)
  query (selection : Selection) (order : SortOrder) (found : List Task) : selection.selects task = true →
    Table.query selection order t = .ok found t → (found.filter fun u => u.id = task.id) = [task]

/-- A task of which a row is in the table is answered as it is. -/
theorem answers_of_mem (storable : task.Storable) (written : row.WrittenFor task) (mem : row ∈ t.rows) :
    t.Answers task := by
  obtain ⟨order, rfl⟩ := written
  have read := read_ofTask storable order
  refine ⟨?_, fun selection sorting selected => ?_, fun selection sorting found selected made => ?_⟩
  · cases made : get task.id t with
    | ok found t' =>
        obtain ⟨rfl, told⟩ := (get_reads task.id t).of_ok made
        rw [(told task).2 ⟨⟨_, mem, read⟩, rfl⟩]
    | error e t' =>
        obtain ⟨_, _, apart⟩ := (get_reads task.id t).of_error made
        exact absurd rfl (apart task ⟨_, mem, read⟩)
  · rw [exists_query_iff]
    constructor
    · exact fun legible row stored _ => legible row stored
    · intro others row stored taken
      by_cases same : row.id = task.id
      · rw [List.inj_on_of_nodup_map t.distinct stored mem same]
        exact Row.legible_ofTask order task
      · exact others row stored same taken
  · obtain ⟨_, answered⟩ := (query_answers selection sorting t).of_ok made
    have chosen : (Row.ofTask order task).isSelected selection = true :=
      (Row.isSelected_ofTask order selection task).trans selected
    have held : task ∈ found := (mem_iff_read answered).2 ⟨_, mem_select.2 ⟨mem, chosen⟩, read⟩
    exact filter_id_eq_singleton (nodup_of_query made) held

theorem get_of_missing (free : task.id ∉ t.ids) : get task.id t = .ok none t := by
  cases made : get task.id t with
  | ok found t' =>
      obtain ⟨rfl, told⟩ := (get_reads task.id t).of_ok made
      cases found with
      | none => rfl
      | some other =>
          obtain ⟨⟨row, stored, same⟩, other_id⟩ := (told other).1 rfl
          exact absurd (List.mem_map.2 ⟨row, stored, (read_same same).1.symm.trans other_id⟩) free
  | error e t' => exact absurd ((get_reads task.id t).of_error made).2.1 free

theorem exists_create (free : task.id ∉ t.ids) :
    ∃ t', create task t = .ok () t' ∧ t'.rows = .ofTask (t.orders 0) task :: t.rows := by
  refine ⟨t.advance.add (.ofTask (t.orders 0) task), ?_, ?_⟩
  · rw [create_eq, get_of_missing free]
  · have fresh : (Row.ofTask (t.orders 0) task).id ∉ t.advance.rows.map Row.id := free
    rw [add, dif_neg fresh]
    rfl

theorem exists_update (taken : task.id ∈ t.ids) :
    ∃ t', update task t = .ok () t' ∧
      t'.rows = t.rows.map fun row => if row.id = task.id then .ofTask (t.orders 0) task else row := by
  cases made : update task t with
  | ok u t' => exact ⟨t', rfl, ((update_replaces task t).of_ok made).1⟩
  | error e t' =>
      have missing := (update_replaces task t).of_error made
      exact absurd (Pointers.listed_stored.2 taken) missing

/-- A task that is written, be it to a table without its id or in the place of any row of its id, is answered as
it was given, and the rows of other ids are left. -/
theorem written_task_answered (t : Table) (task : Task) (storable : task.Storable) :
    (task.id ∉ t.ids → ∃ t', create task t = .ok () t' ∧ t'.Answers task ∧
      ∀ row, row.id ≠ task.id → (row ∈ t'.rows ↔ row ∈ t.rows)) ∧
    (task.id ∈ t.ids → ∃ t', update task t = .ok () t' ∧ t'.Answers task ∧
      ∀ row, row.id ≠ task.id → (row ∈ t'.rows ↔ row ∈ t.rows)) := by
  constructor
  · intro free
    obtain ⟨t', made, rows⟩ := exists_create free
    have mem : Row.ofTask (t.orders 0) task ∈ t'.rows := rows ▸ List.mem_cons_self
    refine ⟨t', made, answers_of_mem storable ⟨_, rfl⟩ mem, fun row other => ?_⟩
    have apart : row ≠ .ofTask (t.orders 0) task := fun same => other (congrArg Row.id same)
    rw [rows, List.mem_cons, or_iff_right apart]
  · intro taken
    obtain ⟨t', made, rows⟩ := exists_update taken
    have replaced : CodedStore.Replaces t' t task := rows
    obtain ⟨old, stored, same⟩ := List.mem_map.1 taken
    have mem : Row.ofTask (t.orders 0) task ∈ t'.rows := by
      rw [rows, List.mem_map]
      exact ⟨old, stored, if_pos same⟩
    exact ⟨t', made, answers_of_mem storable ⟨_, rfl⟩ mem, fun row other => replaced.mem_iff other⟩

/-- A damaged row is written over, the keys of its metadata being printed backwards, and a task is created beside
it; it hides the new task from a query for all tasks, not from one for the tasks of its project. -/
theorem written_task_answered_beside_damage :
    let damaged : Row := { Row.ofTask .ascending (.new "oak" "Oak" 1) with title := .blob [0], tags := "tall, old" }
    let t : Table := {
      rows := [damaged]
      distinct := List.nodup_singleton _
      orders := fun _ => ⟨List.reverse, List.reverse_perm⟩ }
    let rings : Metadata := ⟨[("height", .number (.int 30)), ("rings", .number (.int 80))], by decide⟩
    let oak : Task := { Task.new "oak" "Oak" 2 with status := .completed, metadata := some rings }
    let elm : Task := { Task.new "elm" "Elm" 3 with tags := .ofList ["tall", "old"], projectId := some "park" }
    (∃ t', update oak t = .ok () t' ∧ t'.Answers oak) ∧
      ∃ t', create elm t = .ok () t' ∧ get "elm" t' = .ok (some elm) t' ∧ damaged ∈ t'.rows ∧
        (¬ ∃ found, Table.query .all .oldestFirst t' = .ok found t') ∧
        ∃ found, Table.query { project := some "park" } .oldestFirst t' = .ok found t' := by
  intro damaged t rings oak elm
  have oak_storable : oak.Storable := by decide
  have elm_storable : elm.Storable := Task.storable_of_none rfl
  obtain ⟨_, update⟩ := written_task_answered t oak oak_storable
  obtain ⟨create, _⟩ := written_task_answered t elm elm_storable
  obtain ⟨t₁, replaced, oak_answered, _⟩ := update (by decide)
  obtain ⟨t₂, added, elm_answered, others⟩ := create (by decide)
  have kept : damaged ∈ t₂.rows := (others damaged (by decide)).2 List.mem_cons_self
  refine ⟨⟨t₁, replaced, oak_answered⟩, t₂, added, elm_answered.get, kept, ?_, ?_⟩
  · intro got
    obtain ⟨text, titled⟩ := (exists_query_iff.1 got damaged kept rfl).title
    cases titled
  · refine (elm_answered.query_iff { project := some "park" } .oldestFirst (by decide)).2 ?_
    intro row stored other chosen
    cases List.mem_singleton.1 ((others row other).1 stored)
    exact absurd chosen (by decide)

/-- A priority that does not fit 32 bits hides a task from a query, though all statuses are known. -/
theorem known_statuses_not_enough :
    let ranked : Row := { Row.ofTask .ascending (.new "oak" "Oak" 1) with priority := .integer 2147483648 }
    let t : Table := { rows := [ranked], distinct := List.nodup_singleton _ }
    let elm : Task := .new "elm" "Elm" 2
    elm.Storable ∧ elm.id ∉ t.ids ∧ Selection.all.selects elm = true ∧
      ∃ t', create elm t = .ok () t' ∧
        (∀ row ∈ t'.rows, ∃ name s, row.status = .text name ∧ Status.ofName? name = some s) ∧
        ¬ ∃ found, query .all .oldestFirst t' = .ok found t' := by
  intro ranked t elm
  have free : elm.id ∉ t.ids := by decide
  obtain ⟨t', made, rows⟩ := exists_create free
  have open_tasks : ∀ row ∈ [Row.ofTask (t.orders 0) elm, ranked], row.status = .text Status.todo.name := by
    rw [List.forall_mem_cons, List.forall_mem_singleton]
    exact ⟨rfl, rfl⟩
  refine ⟨Task.storable_of_none rfl, free, rfl, t', made, fun row stored => ?_, fun got => ?_⟩
  · exact ⟨_, .todo, open_tasks row (rows ▸ stored), rfl⟩
  have held : ranked ∈ t'.rows := rows ▸ List.mem_cons_of_mem _ List.mem_cons_self
  obtain ⟨n, same⟩ := (exists_query_iff.1 got ranked held rfl).priority
  have large : n.toInt = 2147483648 := by
    rw [← Int32.toInt_toInt64, ← Quantity.integer.inj same]
    decide
  have bound := n.toInt_lt
  omega

end Table
end TaskForest
