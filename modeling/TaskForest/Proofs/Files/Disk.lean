import TaskForest.Proofs.Files.Database
import TaskForest.Proofs.Store.Mirror

/-!
A database that is open, together with the files that it is kept in. Each operation of the store is written back
by itself, so that opening the files anew gives the table as the last operation left it.
-/

namespace TaskForest

structure Disk where
  files : FileTree
  current : Place
  path : String
  opened : OpenDatabase

namespace Disk

variable {α : Type}

def write (d : Disk) (table : Table) : Disk :=
  { d with
    files := d.files.saveDatabase d.opened.place table
    opened := { d.opened with table := table } }

/-- An operation on the table, which is written back whether it fails or not. -/
def onTable (m : StoreM Table α) : StoreM Disk α := fun d =>
  match m d.opened.table with
  | .ok a table => .ok a (d.write table)
  | .error e table => .error e (d.write table)

instance : TaskStore Disk where
  get id := onTable (Table.get id)
  create task := onTable (Table.create task)
  update task := onTable (Table.update task)
  query selection order := onTable (Table.query selection order)
  deleteMany ids guarded := onTable (Table.deleteMany ids guarded)

def reopen (d : Disk) : Except DatabaseError Disk := do
  let opened ← d.files.openDatabase d.current d.path
  pure { d with opened := opened }

end Disk

/-- What is open mirrors a store in memory, and opening the files gives the same. -/
structure OnDisk (s : InMemory) (d : Disk) : Prop where
  mirrors : Mirrors s d.opened.table
  lasting : ∃ place, d.opened.place = some place
  reopens : d.files.openDatabase d.current d.path = .ok d.opened

namespace OnDisk

variable {α : Type} {s s' : InMemory} {d : Disk} {table : Table} {P : α → Prop}

theorem reopen_eq (h : OnDisk s d) : d.reopen = .ok d := by
  rw [Disk.reopen, h.reopens]
  rfl

theorem write (h : OnDisk s d) (after : Mirrors s' table) : OnDisk s' (d.write table) := by
  obtain ⟨place, there⟩ := h.lasting
  refine ⟨after, h.lasting, ?_⟩
  change (d.files.saveDatabase d.opened.place table).openDatabase d.current d.path =
    .ok ⟨table, d.opened.place⟩
  rw [there]
  exact FileTree.openDatabase_saveDatabase h.reopens there table

theorem onTable {m : StoreM InMemory α} {n : StoreM Table α} (h : Agree Mirrors P m n) :
    Agree OnDisk P m (Disk.onTable n) := by
  intro s d before
  have both := h s d.opened.table before.mirrors
  unfold Disk.onTable
  generalize m s = left at both ⊢
  generalize n d.opened.table = right at both ⊢
  cases both with
  | ok answer after => exact .ok answer (before.write after)
  | error after => exact .error (before.write after)

/-- The store in memory and the database on disk agree. -/
theorem agreement : Agreement OnDisk Task.Storable where
  get id := onTable (Mirrors.get id)
  create _ storable := onTable (Mirrors.create storable)
  update _ storable := onTable (Mirrors.update storable)
  query selection order := onTable (Mirrors.query selection order)
  deleteMany ids guarded := onTable (Mirrors.deleteMany ids guarded)
  moved := Mirrors.agreement.moved

end OnDisk
end TaskForest
