import TaskForest.Proofs.Hierarchy.Agreement
import TaskForest.Proofs.Store.Encoded
import TaskForest.Proofs.Store.InMemory

/-!
A table that mirrors a store in memory: its rows are written for the tasks, in the same places and with the keys of
their metadata in any orders. What is found,
selected and put in order is then the same on both sides, because a row is compared by what the task is compared
by, and every write and every batch of deletes leaves a table that mirrors the store.
-/

namespace TaskForest

/-- The rows of tasks, the keys of the metadata of each in an order of its own. -/
def Row.ofTasks (orders : Task → KeyOrder) (tasks : List Task) : List Row :=
  tasks.map fun task => ofTask (orders task) task

structure Mirrors (s : InMemory) (t : Table) : Prop where
  rows : ∃ orders, t.rows = Row.ofTasks orders s.records.tasks
  storable : ∀ task ∈ s.records.tasks, task.Storable
  faultless : s.faults = {}
  unrefused : t.refusals = []

namespace Row

theorem compare_toInt64 (a b : Int32) : compare a.toInt64 b.toInt64 = compare a b := by
  have lt : a.toInt64 < b.toInt64 ↔ a < b := by
    rw [Int64.lt_iff_toInt_lt, Int32.toInt_toInt64, Int32.toInt_toInt64, Int32.lt_iff_toInt_lt]
  have eq : a.toInt64 = b.toInt64 ↔ a = b := by
    rw [← Int64.toInt_inj, Int32.toInt_toInt64, Int32.toInt_toInt64, Int32.toInt_inj]
  change compareOfLessAndEq _ _ = compareOfLessAndEq _ _
  simp only [compareOfLessAndEq, lt, eq]

theorem precedes_ofTask (order : SortOrder) (first second : KeyOrder) (a b : Task) :
    precedes order (ofTask first a) (ofTask second b) = order.precedes a b := by
  have keys : compareKey order (ofTask first a) (ofTask second b) = order.compareKey a b := by
    cases order with
    | oldestFirst | newestFirst | lastUpdatedFirst => rfl
    | mostImportantFirst => exact compare_toInt64 b.priority a.priority
  rw [precedes, keys, SortOrder.precedes, SortOrder.compare]
  rfl

end Row

theorem FaultPlan.failsQuery_empty (selection : Selection) : failsQuery {} selection = none := by
  obtain ⟨parent, status, project⟩ := selection
  rcases parent with - | - | id <;> rfl

theorem mapM_ofExcept_of_ok {ε σ α β : Type} {f : α → Except ε β} {items : List α} {values : List β}
    (h : items.mapM f = .ok values) (s : σ) :
    (items.mapM fun a => MonadExcept.ofExcept (f a) : EStateM ε σ (List β)) s = .ok values s := by
  induction items generalizing values with
  | nil =>
      cases h
      rfl
  | cons a rest ih =>
      rw [List.mapM_cons] at h ⊢
      obtain ⟨value, first, h⟩ := exists_of_bind_eq_ok h
      obtain ⟨others, behind, same⟩ := exists_of_bind_eq_ok h
      cases same
      rw [first, bind_of_ok (rfl : (MonadExcept.ofExcept (.ok value) : EStateM ε σ β) s = .ok value s),
        bind_of_ok (ih behind)]
      rfl

namespace Mirrors

variable {s : InMemory} {t : Table}

theorem of_same (h : Mirrors s t) {s' : InMemory} (records : s'.records = s.records)
    (faults : s'.faults = s.faults) : Mirrors s' t :=
  ⟨records ▸ h.rows, records ▸ h.storable, faults.trans h.faultless, h.unrefused⟩

theorem find? (h : Mirrors s t) (id : String) :
    ∃ orders : Task → KeyOrder, t.find? id = (s.records.find? id).map fun task => .ofTask (orders task) task := by
  obtain ⟨orders, rows⟩ := h.rows
  refine ⟨orders, ?_⟩
  rw [Table.find?, rows, Row.ofTasks, List.find?_map]
  rfl

theorem ids (h : Mirrors s t) : t.rows.map Row.id = s.records.tasks.map Task.id := by
  obtain ⟨orders, rows⟩ := h.rows
  rw [rows, Row.ofTasks, List.map_map]
  rfl

theorem select (h : Mirrors s t) (selection : Selection) (order : SortOrder) :
    ∃ orders, t.select selection order = Row.ofTasks orders (s.records.select selection order) := by
  obtain ⟨orders, rows⟩ := h.rows
  have kept : (t.rows.filter (Row.isSelected selection)) =
      Row.ofTasks orders (s.records.tasks.filter selection.selects) := by
    rw [rows, Row.ofTasks, List.filter_map]
    refine congrArg (List.map _) (List.filter_congr fun task _ => ?_)
    exact Row.isSelected_ofTask (orders task) selection task
  refine ⟨orders, ?_⟩
  rw [Table.select, kept, Records.select]
  exact (List.map_mergeSort fun a _ b _ => (Row.precedes_ofTask order (orders a) (orders b) a b).symm).symm

theorem attachedTo (h : Mirrors s t) (ids : List String) : t.attachedTo ids = s.records.attachedTo ids := by
  obtain ⟨orders, rows⟩ := h.rows
  rw [Table.attachedTo, rows, Row.ofTasks, List.filter_map, List.map_map]
  rfl

theorem storable_of_find? (h : Mirrors s t) {id : String} {task : Task}
    (found : s.records.find? id = some task) : task.Storable :=
  h.storable task (Records.find?_eq_some_iff.1 found).1

theorem add (h : Mirrors s t) {task : Task} (storable : task.Storable) (free : s.records.find? task.id = none)
    (order : KeyOrder) :
    Mirrors { s with records := s.records.add task } (t.advance.add (.ofTask order task)) := by
  obtain ⟨orders, rows⟩ := h.rows
  have absent : (Row.ofTask order task).id ∉ t.advance.rows.map Row.id := by
    change _ ∉ t.rows.map Row.id
    rw [h.ids]
    exact Records.find?_eq_none_iff.1 free
  have tasks := Records.tasks_add free
  refine ⟨⟨Function.update orders task order, ?_⟩, ?_, h.faultless, ?_⟩
  · change _ = Row.ofTasks _ (s.records.add task).tasks
    rw [Table.add, dif_neg absent, tasks, Row.ofTasks, List.map_cons, Function.update_self]
    refine congrArg (Row.ofTask order task :: ·) (rows.trans (List.map_congr_left fun other stored => ?_))
    have ne : other ≠ task := fun same => Records.find?_eq_none_iff.1 free (same ▸ List.mem_map_of_mem stored)
    rw [Function.update_of_ne ne]
  · change ∀ other ∈ (s.records.add task).tasks, _
    rw [tasks]
    exact List.forall_mem_cons.2 ⟨storable, h.storable⟩
  · rw [Table.add, dif_neg absent]
    exact h.unrefused

theorem replace (h : Mirrors s t) {task : Task} (storable : task.Storable) (order : KeyOrder) :
    Mirrors { s with records := s.records.replace task } (t.advance.replace task.id (.ofTask order task)) := by
  obtain ⟨orders, rows⟩ := h.rows
  refine ⟨⟨Function.update orders task order, ?_⟩, ?_, h.faultless, ?_⟩
  · have replaced := Table.rows_replace t.advance (.ofTask order task)
    refine replaced.trans ?_
    change t.rows.map _ = List.map _ (s.records.tasks.map fun old => if old.id = task.id then task else old)
    rw [rows, Row.ofTasks, List.map_map, List.map_map]
    refine List.map_congr_left fun old _ => ?_
    simp only [Function.comp_apply]
    change (if old.id = task.id then Row.ofTask order task else Row.ofTask (orders old) old) = _
    split
    · rw [Function.update_self]
    · next other =>
        have ne : old ≠ task := fun same => other (congrArg Task.id same)
        rw [Function.update_of_ne ne]
  · intro other stored
    obtain ⟨old, before, same⟩ := List.mem_map.1 stored
    split at same
    · exact same ▸ storable
    · exact same ▸ h.storable old before
  · exact (Table.refusals_replace t.advance task.id _).trans h.unrefused

theorem get_table (h : Mirrors s t) (id : String) : Table.get id t = .ok (s.records.find? id) t := by
  have start : (MonadState.get : StoreM Table Table) t = .ok t t := rfl
  obtain ⟨orders, same⟩ := h.find? id
  rw [Table.get, bind_of_ok start, same]
  cases found : s.records.find? id with
  | none => rfl
  | some task =>
      simp only [Option.map_some, Table.read_ofTask (h.storable_of_find? found)]
      rfl

theorem get (id : String) : Agree Mirrors (fun found => ∀ t, found = some t → t.Storable)
    (InMemory.get id) (Table.get id) := by
  intro s t h
  rw [h.get_table id]
  exact .ok (fun _ found => h.storable_of_find? found) h

theorem create {task : Task} (storable : task.Storable) :
    Agree Mirrors anything (InMemory.create task) (Table.create task) := by
  intro s t h
  have memory : InMemory.create task s = (if (s.records.find? task.id).isSome
      then throw (.alreadyExists task.id) >>= fun _ => set { s with records := s.records.add task }
      else set { s with records := s.records.add task } : StoreM InMemory Unit) s := rfl
  rw [memory, Table.create_eq, h.get_table task.id]
  cases found : s.records.find? task.id with
  | some _ => exact .error h
  | none => exact .ok trivial (h.add storable found (t.orders 0))

theorem update {task : Task} (storable : task.Storable) :
    Agree Mirrors anything (InMemory.update task) (Table.update task) := by
  intro s t h
  have memory : InMemory.update task s = (if (s.records.find? task.id).isNone
      then throw (.notFound task.id) >>= fun _ => set { s with records := s.records.replace task }
      else set { s with records := s.records.replace task } : StoreM InMemory Unit) s := rfl
  obtain ⟨orders, same⟩ := h.find? task.id
  have missing : t.find? task.id = none ↔ s.records.find? task.id = none := same ▸ Option.map_eq_none_iff
  rw [memory, Table.update_eq]
  cases found : s.records.find? task.id with
  | none =>
      rw [if_pos (missing.2 found)]
      exact .error h
  | some old =>
      rw [if_neg (mt missing.1 (found ▸ Option.some_ne_none old))]
      exact .ok trivial (h.replace storable (t.orders 0))

theorem mapM_read {tasks : List Task} (storable : ∀ task ∈ tasks, task.Storable) (orders : Task → KeyOrder) :
    (Row.ofTasks orders tasks).mapM Table.read = .ok tasks := by
  induction tasks with
  | nil => rfl
  | cons task rest ih =>
      obtain ⟨first, behind⟩ := List.forall_mem_cons.1 storable
      have others := ih behind
      rw [Row.ofTasks] at others ⊢
      rw [List.map_cons, List.mapM_cons, Table.read_ofTask first, others]
      rfl

theorem query (selection : Selection) (order : SortOrder) :
    Agree Mirrors anything (InMemory.query selection order) (Table.query selection order) := by
  intro s t h
  have table : Table.query selection order t = .ok (s.records.select selection order) t := by
    have start : Table.query selection order t =
        ((t.select selection order).mapM fun row => MonadExcept.ofExcept (Table.read row) :
          StoreM Table _) t := rfl
    obtain ⟨orders, same⟩ := h.select selection order
    rw [start, same]
    refine mapM_ofExcept_of_ok (mapM_read (fun task selected => h.storable task ?_) orders) t
    exact (List.mem_filter.1 (List.mem_mergeSort.1 selected)).1
  have memory := InMemory.query_yields selection order s
  rw [table]
  cases asked : InMemory.query selection order s with
  | ok found s' =>
      obtain ⟨rfl, rfl, _⟩ := memory.of_ok asked
      exact .ok trivial (h.of_same rfl rfl)
  | error e s' =>
      obtain ⟨_, id, fails, _⟩ := memory.of_error asked
      rw [h.faultless, FaultPlan.failsQuery_empty] at fails
      cases fails

theorem without (h : Mirrors s t) {s' : InMemory} {t' : Table} {ids : List String}
    (records : s'.records = s.records.without ids) (faults : s'.faults = s.faults)
    (rows : t'.rows = t.rows.filter fun r => r.id ∉ ids) (unrefused : t'.refusals = []) : Mirrors s' t' := by
  obtain ⟨orders, before⟩ := h.rows
  refine ⟨⟨orders, ?_⟩, fun task stored => ?_, faults.trans h.faultless, unrefused⟩
  · rw [rows, before, records, Row.ofTasks, List.filter_map]
    rfl
  · rw [records] at stored
    exact h.storable task (Records.mem_without.1 stored).1

theorem deleteMany (ids : List String) (guarded : Bool) :
    Agree Mirrors anything (InMemory.deleteMany ids guarded) (Table.deleteMany ids guarded) := by
  intro s t h
  obtain ⟨left, removed, made, counted⟩ := Table.exists_deletes h.unrefused ids
  obtain ⟨rows, refusals⟩ := Table.deletes_rows made
  have unrefused : left.refusals = [] := refusals.trans h.unrefused
  have mirrored : Mirrors { s with records := s.records.without ids } left := h.without rfl rfl rows unrefused
  rw [Table.deleteMany_of_deletes made, show left.attachedTo ids = s.orphans ids from mirrored.attachedTo ids]
  have memory := InMemory.deleteMany_yields ids guarded s
  cases batch : InMemory.deleteMany ids guarded s with
  | ok n s' =>
      obtain ⟨records, faults, none_left, count⟩ := memory.of_ok batch
      have same : n = removed := by
        have after : left.rows.length = (s.records.without ids).ids.length := by
          rw [Records.ids, List.length_map, ← List.length_map Row.id, mirrored.ids, List.length_map]
        have before : t.rows.length = s.records.ids.length := by
          rw [Records.ids, List.length_map, ← List.length_map Row.id, h.ids, List.length_map]
        omega
      rw [if_neg fun orphaned => orphaned.2 (none_left orphaned.1), same]
      exact .ok trivial (h.without records faults rows unrefused)
  | error e s' =>
      obtain ⟨records, faults, fails | ⟨on, some_left, rfl⟩⟩ := memory.of_error batch
      · exact absurd fails (InMemory.not_mayFail h.faultless)
      · rw [if_pos ⟨on, some_left⟩]
        exact .error (h.of_same records faults)

/-- Tasks of distinct free ids are put into the store as they are added to the table. -/
theorem put_all (h : Mirrors s t) {tasks : List Task} (distinct : (tasks.map Task.id).Nodup)
    (storable : ∀ task ∈ tasks, task.Storable) (free : ∀ task ∈ tasks, task.id ∉ s.records.ids) :
    Mirrors { s with records := tasks.foldl Records.put s.records }
      (tasks.foldl (fun t task => t.advance.add (.ofTask (t.orders 0) task)) t) := by
  induction tasks generalizing s t with
  | nil => exact h
  | cons task rest ih =>
      obtain ⟨first, behind⟩ := List.forall_mem_cons.1 storable
      obtain ⟨new, others⟩ := List.forall_mem_cons.1 free
      obtain ⟨apart, distinct⟩ := List.nodup_cons.1 distinct
      have unknown : s.records.find? task.id = none := Records.find?_eq_none_iff.2 new
      have one := h.add first unknown (t.orders 0)
      have put : s.records.put task = s.records.add task := if_neg new
      rw [List.foldl_cons, List.foldl_cons, put]
      refine ih one distinct behind fun other listed stored => ?_
      have ids : (s.records.add task).ids = task.id :: s.records.ids :=
        congrArg (List.map Task.id) (Records.tasks_add unknown)
      replace stored := List.mem_cons.1 (ids ▸ stored)
      rcases stored with same | stored
      · exact apart (same ▸ List.mem_map_of_mem listed)
      · exact others other listed stored

theorem ofList {tasks : List Task} (distinct : (tasks.map Task.id).Nodup)
    (storable : ∀ task ∈ tasks, task.Storable) (orders : Nat → KeyOrder) :
    Mirrors (.ofList tasks) (.ofList tasks orders) := by
  have nothing : Mirrors { records := .empty } { Table.empty with orders := orders } :=
    ⟨⟨fun _ => .ascending, rfl⟩, by simp [Records.empty], rfl, rfl⟩
  exact nothing.put_all distinct storable fun _ _ => List.not_mem_nil

/-- The store in memory and the table agree. -/
theorem agreement : Agreement Mirrors Task.Storable where
  get := get
  create _ := create
  update _ := update
  query := query
  deleteMany := deleteMany
  moved fit _ _ := fit

end Mirrors

end TaskForest
