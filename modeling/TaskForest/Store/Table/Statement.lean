import TaskForest.Store.Query
import TaskForest.Store.Table.Row

/-!
What a table is asked by. A statement that writes a row names columns, each with the number of the parameter
that goes to it; the one that inserts a row and the one that updates it are given the same parameters. A query
selects the rows of which all its clauses hold.
-/

namespace TaskForest

/-- A value that is written to a cell. -/
inductive Datum where
  | absent
  | integer (value : Int64)
  | text (value : String)
deriving DecidableEq, Repr

namespace Datum

/-- A text column turns an integer into its digits. -/
def asText : Datum → Option String
  | absent => none
  | integer n => some (toString n.toInt)
  | text s => some s

/-- An integer column turns a number text into the number. -/
def asQuantity : Datum → Option Quantity
  | absent => none
  | integer n => some (.integer n)
  | text s => some (.ofText s)

def ofText? : Option String → Datum
  | none => absent
  | some s => text s

def ofInteger? : Option Int64 → Datum
  | none => absent
  | some n => integer n

end Datum

/-- The parameters of a statement that writes a task, the first of them being number 1. -/
def Task.parameters (order : KeyOrder) (t : Task) : List Datum :=
  [.text t.id, .text t.title, .ofText? t.description, .text t.status.name, .text t.tags.encode,
    .ofText? t.projectId, .ofText? t.parent, .integer t.createdAt, .integer t.updatedAt,
    .ofInteger? t.completedAt, .ofInteger? t.estimatedMinutes, .ofInteger? t.actualMinutes,
    .integer t.priority.toInt64, .ofText? (t.metadata.map (Metadata.encode order))]

/-- The columns that are written, each with the number of its parameter. -/
abbrev Assignments := List (Column × Nat)

namespace Assignments

def insertion : Assignments :=
  [(.id, 1), (.title, 2), (.description, 3), (.status, 4), (.tags, 5), (.projectId, 6), (.parent, 7),
    (.createdAt, 8), (.updatedAt, 9), (.completedAt, 10), (.estimatedMinutes, 11), (.actualMinutes, 12),
    (.priority, 13), (.metadata, 14)]

/-- The first parameter names the row. -/
def update : Assignments :=
  [(.title, 2), (.description, 3), (.status, 4), (.tags, 5), (.projectId, 6), (.parent, 7),
    (.createdAt, 8), (.updatedAt, 9), (.completedAt, 10), (.estimatedMinutes, 11), (.actualMinutes, 12),
    (.priority, 13), (.metadata, 14)]

end Assignments

namespace Row

/-- The row with another cell, unless that cell may not be absent and is. -/
def setCell? (r : Row) (column : Column) (d : Datum) : Option Row :=
  match column with
  | .id => d.asText.map fun s => { r with id := s }
  | .title => d.asText.map fun s => { r with title := s }
  | .description => some { r with description := d.asText.map .text }
  | .status => d.asText.map fun s => { r with status := s }
  | .tags => d.asText.map fun s => { r with tags := s }
  | .projectId => some { r with projectId := d.asText.map .text }
  | .parent => some { r with parent := d.asText }
  | .createdAt => d.asQuantity.map fun q => { r with createdAt := q }
  | .updatedAt => d.asQuantity.map fun q => { r with updatedAt := q }
  | .completedAt => some { r with completedAt := d.asQuantity }
  | .estimatedMinutes => some { r with estimatedMinutes := d.asQuantity }
  | .actualMinutes => some { r with actualMinutes := d.asQuantity }
  | .priority => d.asQuantity.map fun q => { r with priority := q }
  | .metadata => some { r with metadata := d.asText.map .text }

/-- What the columns hold that an insertion does not name, those apart that it has to. -/
def defaults : Row where
  id := ""
  title := ""
  description := none
  status := "todo"
  tags := "[]"
  projectId := none
  parent := none
  createdAt := .integer 0
  updatedAt := .integer 0
  completedAt := none
  estimatedMinutes := none
  actualMinutes := none
  priority := .integer 0
  metadata := none

/-- Writes the cells one after the other, up to a column that may not be absent and is. A parameter that is
not given is absent. -/
def assign (parameters : List Datum) (r : Row) : Assignments → Except Column Row
  | [] => .ok r
  | (column, number) :: rest =>
    match r.setCell? column (parameters.getD (number - 1) .absent) with
    | none => .error column
    | some r => r.assign parameters rest

end Row

/-- A cell of any column. -/
inductive Cell where
  | absent
  | words (cell : TextCell)
  | quantity (cell : Quantity)
deriving DecidableEq, Repr

namespace Cell

def ofWords? : Option TextCell → Cell
  | none => absent
  | some cell => words cell

def ofQuantity? : Option Quantity → Cell
  | none => absent
  | some cell => quantity cell

end Cell

def Row.cell (r : Row) : Column → Cell
  | .id => .words r.id
  | .title => .words r.title
  | .description => .ofWords? r.description
  | .status => .words r.status
  | .tags => .words r.tags
  | .projectId => .ofWords? r.projectId
  | .parent => .ofWords? (r.parent.map .text)
  | .createdAt => .quantity r.createdAt
  | .updatedAt => .quantity r.updatedAt
  | .completedAt => .ofQuantity? r.completedAt
  | .estimatedMinutes => .ofQuantity? r.estimatedMinutes
  | .actualMinutes => .ofQuantity? r.actualMinutes
  | .priority => .quantity r.priority
  | .metadata => .ofWords? r.metadata

/-- A condition of a query. -/
inductive Clause where
  | equals (column : Column) (text : String)
  | isAbsent (column : Column)
deriving DecidableEq, Repr

/-- No bytes that are no text are equal to one. -/
def Clause.holds (r : Row) : Clause → Bool
  | equals column text => r.cell column = .words text
  | isAbsent column => r.cell column = .absent

/-- The clauses of the query for what is selected. -/
def Selection.clauses (s : Selection) : List Clause :=
  (match s.parent with
    | none => []
    | some .absent => [.isAbsent .parent]
    | some (.is id) => [.equals .parent id])
  ++ (match s.status with
    | none => []
    | some status => [.equals .status status.name])
  ++ (match s.project with
    | none => []
    | some project => [.equals .projectId project])

end TaskForest
