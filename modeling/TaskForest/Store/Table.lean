import TaskForest.Store.Basic
import TaskForest.Store.Table.Statement
import TaskForest.Text.Ascending

/-!
A store of rows. Selections compare the stored texts, orders the stored cells, and a query fails if a row
that it answers with is damaged. A row may be refused deletion with a message of its own. In which order the
keys of metadata are printed is not for the store to choose, and may be another one at every write.
-/

namespace TaskForest

/-- Deleting the row of this id fails. -/
structure Refusal where
  id : String
  message : String
deriving DecidableEq, Repr

structure Table where
  rows : List Row
  distinct : (rows.map Row.id).Nodup
  /-- The last one made comes first. -/
  refusals : List Refusal := []
  /-- The orders in which the next writes print the keys of metadata. -/
  orders : Nat → KeyOrder := fun _ => .ascending

namespace Table

def empty : Table where
  rows := []
  distinct := List.nodup_nil

instance : Inhabited Table := ⟨empty⟩

def find? (t : Table) (id : String) : Option Row :=
  t.rows.find? fun r => r.id = id

def ids (t : Table) : List String := t.rows.map Row.id

def restrict (t : Table) (keep : Row → Bool) : Table :=
  { t with
    rows := t.rows.filter keep
    distinct := t.distinct.sublist (List.filter_sublist.map Row.id) }

def erase (t : Table) (id : String) : Table :=
  t.restrict fun r => r.id ≠ id

def add (t : Table) (row : Row) : Table :=
  if h : row.id ∈ t.rows.map Row.id then t
  else { t with
    rows := row :: t.rows
    distinct := by simpa using ⟨by simpa using h, t.distinct⟩ }

/-- Puts a row in the place of the row of an id, if its own id is that id or free. -/
def replace (t : Table) (id : String) (row : Row) : Table :=
  let rows := t.rows.map fun old => if old.id = id then row else old
  if h : (rows.map Row.id).Nodup then { t with rows := rows, distinct := h } else t

/-- Goes on to the order of the write after the next. -/
def advance (t : Table) : Table :=
  { t with orders := fun n => t.orders (n + 1) }

end Table

namespace Row

def isSelected (s : Selection) (r : Row) : Bool :=
  s.clauses.all fun clause => clause.holds r

def compareKey : SortOrder → Row → Row → Ordering
  | .oldestFirst, a, b => a.createdAt.compare b.createdAt
  | .newestFirst, a, b => b.createdAt.compare a.createdAt
  | .lastUpdatedFirst, a, b => b.updatedAt.compare a.updatedAt
  | .mostImportantFirst, a, b => b.priority.compare a.priority

def precedes (order : SortOrder) (a b : Row) : Bool :=
  ((compareKey order a b).then (compare a.id b.id)).isLE

end Row

namespace Table

/-- The task of a row; damage is a failure of the store. -/
def read (r : Row) : Except StoreError Task :=
  r.toTask.mapError fun damage => .backend damage.message

def get (id : String) : StoreM Table (Option Task) := do
  match (← MonadState.get).find? id with
  | none => pure none
  | some row => some <$> MonadExcept.ofExcept (read row)

/-- A cell that has to be filled would be left empty. -/
def emptied (column : Column) : StoreError :=
  .backend ("NOT NULL constraint failed: tasks." ++ column.name)

/-- What writing a task makes of a row. -/
def write (t : Table) (task : Task) (assignments : Assignments) (r : Row) : Except StoreError Row :=
  (r.assign (task.parameters (t.orders 0)) assignments).mapError emptied

/-- The row of the id is read before it counts as taken. -/
def create (task : Task) : StoreM Table Unit := do
  if (← get task.id).isSome then throw (.alreadyExists task.id)
  let t ← MonadState.get
  let row ← MonadExcept.ofExcept (t.write task .insertion .defaults)
  set (t.advance.add row)

def update (task : Task) : StoreM Table Unit := do
  let t ← MonadState.get
  match t.find? task.id with
  | none => throw (.notFound task.id)
  | some old =>
    let row ← MonadExcept.ofExcept (t.write task .update old)
    set (t.advance.replace task.id row)

def select (t : Table) (s : Selection) (order : SortOrder) : List Row :=
  (t.rows.filter (Row.isSelected s)).mergeSort (Row.precedes order)

def query (s : Selection) (order : SortOrder) : StoreM Table (List Task) := do
  ((← MonadState.get).select s order).mapM fun row => MonadExcept.ofExcept (read row)

/-- The ids of the rows whose parent is one of `ids`. -/
def attachedTo (t : Table) (ids : List String) : List String :=
  Ascending.ofList ((t.rows.filter fun r => r.parent.any fun p => p ∈ ids).map Row.id)

/-- Removes the row of an id, if there is one; says whether there was. -/
def delete (t : Table) (id : String) : Except StoreError (Table × Bool) :=
  if (t.find? id).isNone then .ok (t, false)
  else
    match t.refusals.find? fun r => r.id = id with
    | some r => .error (.deleteFailed id r.message)
    | none => .ok (t.erase id, true)

def deletes (t : Table) : List String → Except StoreError (Table × Nat)
  | [] => .ok (t, 0)
  | id :: rest => do
    let (t, found) ← t.delete id
    let (t, removed) ← t.deletes rest
    pure (t, if found then removed + 1 else removed)

def deleteMany (ids : List String) (guarded : Bool) : StoreM Table Nat := do
  let (t, removed) ← MonadExcept.ofExcept ((← MonadState.get).deletes ids)
  let orphans := if guarded then t.attachedTo ids else []
  unless orphans.isEmpty do throw (.orphaned orphans)
  set t
  pure removed

instance : TaskStore Table where
  get := get
  create := create
  update := update
  query := query
  deleteMany := deleteMany

/-- From now on the row of this id, if there is one when it comes to that, cannot be deleted. -/
def refuse (t : Table) (r : Refusal) : Table :=
  { t with refusals := r :: t.refusals }

/-- Of tasks with the same id the first one is stored. -/
def ofList (tasks : List Task) (orders : Nat → KeyOrder := fun _ => .ascending) : Table :=
  tasks.foldl (fun t task => t.advance.add (.ofTask (t.orders 0) task)) { empty with orders := orders }

def links (t : Table) : List (String × Option String) :=
  (t.rows.map fun r => (r.id, r.parent)).mergeSort fun a b => (compare a.1 b.1).isLE

end Table
end TaskForest
