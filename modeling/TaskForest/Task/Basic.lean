import TaskForest.Json.Basic

/-!
Tasks. A task names at most one parent; the name may be that of no task at all, or lead back to the task
itself. Tags are a set and metadata is an object of any JSON values, both held in the one form that the
order of their keys allows.
-/

namespace TaskForest

inductive Status where
  | todo
  | inProgress
  | completed
  | cancelled
deriving DecidableEq, Repr

namespace Status

def all : List Status := [todo, inProgress, completed, cancelled]

def name : Status → String
  | todo => "todo"
  | inProgress => "inProgress"
  | completed => "completed"
  | cancelled => "cancelled"

/-- Reads a name; the second spelling of `inProgress` has an underscore. -/
def ofName? : String → Option Status
  | "todo" => some todo
  | "inProgress" => some inProgress
  | "in_progress" => some inProgress
  | "completed" => some completed
  | "cancelled" => some cancelled
  | _ => none

theorem ofName?_name (s : Status) : ofName? s.name = some s := by
  cases s <;> rfl

end Status

structure TagSet where
  names : List String
  ascending : Ascending names
deriving DecidableEq

namespace TagSet

def empty : TagSet := ⟨[], Ascending.nil⟩

instance : Inhabited TagSet := ⟨empty⟩

def ofList (names : List String) : TagSet :=
  ⟨Ascending.ofList names, Ascending.ofList_ascending names⟩

end TagSet

/-- Free data of a task: the fields of an object whose keys ascend at every depth. -/
structure Metadata where
  fields : List (String × Json)
  ordered : (Json.object fields).ordered = true
deriving DecidableEq

namespace Metadata

def empty : Metadata := ⟨[], rfl⟩

/-- These fields as metadata, if their keys ascend at every depth. -/
def ofFields? (fields : List (String × Json)) : Option Metadata :=
  if h : (Json.object fields).ordered = true then some ⟨fields, h⟩ else none

def toJson (m : Metadata) : Json := .object m.fields

end Metadata

structure Task where
  id : String
  title : String
  description : Option String
  status : Status
  tags : TagSet
  projectId : Option String
  parent : Option String
  /-- Times are milliseconds since the epoch. -/
  createdAt : Int64
  updatedAt : Int64
  completedAt : Option Int64
  estimatedMinutes : Option Int64
  actualMinutes : Option Int64
  priority : Int32
  metadata : Option Metadata
deriving DecidableEq

namespace Task

/-- An open task without a parent, both of its times being `now`. -/
def new (id title : String) (now : Int64) : Task where
  id := id
  title := title
  description := none
  status := .todo
  tags := .empty
  projectId := none
  parent := none
  createdAt := now
  updatedAt := now
  completedAt := none
  estimatedMinutes := none
  actualMinutes := none
  priority := 0
  metadata := none

def isRoot (t : Task) : Bool := t.parent.isNone

def line (t : Task) : String :=
  t.id ++ "  [" ++ t.status.name ++ "]  " ++ t.title

end Task

def listing (tasks : List Task) : String :=
  "\n".intercalate (tasks.map Task.line)

end TaskForest
