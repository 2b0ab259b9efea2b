import TaskForest.Json.Printer
import TaskForest.Store.Error
import TaskForest.Store.Table.Quantity
import TaskForest.Task.Json

/-!
Rows: tasks as they are stored, one column a field. Tags and metadata are kept as compact JSON. A row
that was not written from a task may hold texts that stand for no status or number, and bytes that are no
text; reading it fails at the first such column. Tags and metadata that are no JSON of the right kind count
as not given.
-/

namespace TaskForest

open Json (Draft)

/-- What a column of texts holds. -/
inductive TextCell where
  | text (value : String)
  /-- The bytes of a text that is none in UTF-8, and what reading it fails by. -/
  | garbled (bytes : List UInt8) (complaint : String)
  | blob (bytes : List UInt8)
deriving DecidableEq, Repr

instance : Coe String TextCell := ⟨.text⟩

/-- The id and that of the parent are texts always. -/
structure Row where
  id : String
  title : TextCell
  description : Option TextCell
  status : TextCell
  tags : TextCell
  projectId : Option TextCell
  parent : Option String
  createdAt : Quantity
  updatedAt : Quantity
  completedAt : Option Quantity
  estimatedMinutes : Option Quantity
  actualMinutes : Option Quantity
  priority : Quantity
  metadata : Option TextCell
deriving DecidableEq, Repr

inductive Column where
  | id | title | description | status | tags | projectId | parent | createdAt | updatedAt
  | completedAt | estimatedMinutes | actualMinutes | priority | metadata
deriving DecidableEq, Repr

namespace Column

def all : List Column :=
  [id, title, description, status, tags, projectId, parent, createdAt, updatedAt, completedAt,
    estimatedMinutes, actualMinutes, priority, metadata]

def name : Column → String
  | id => "id"
  | title => "title"
  | description => "description"
  | status => "status"
  | tags => "tags"
  | projectId => "project_id"
  | parent => "parent_task_id"
  | createdAt => "created_at"
  | updatedAt => "updated_at"
  | completedAt => "completed_at"
  | estimatedMinutes => "estimated_minutes"
  | actualMinutes => "actual_minutes"
  | priority => "priority"
  | metadata => "metadata"

def ofName? (name : String) : Option Column :=
  all.find? fun c => c.name = name

def index (c : Column) : Nat :=
  all.idxOf c

end Column

inductive Damage where
  | unknownStatus (text : String)
  | wrongType (column : Column) (type : String)
  | garbled (complaint : String)
  | outOfRange (column : Column) (value : Int64)
deriving DecidableEq, Repr

def Damage.message : Damage → String
  | unknownStatus text =>
    "Conversion error from type Text at index: " ++ toString Column.status.index
      ++ ", unknown task status '" ++ text ++ "'"
  | wrongType column type =>
    "Invalid column type " ++ type ++ " at index: " ++ toString column.index ++ ", name: "
      ++ column.name
  | garbled complaint => complaint
  | outOfRange column value =>
    "Integer " ++ toString value.toInt ++ " out of range at index " ++ toString column.index

/-- Reads a column that may be empty. -/
def readOptional {α β : Type} (read : Column → α → Except Damage β) (column : Column) :
    Option α → Except Damage (Option β)
  | none => .ok none
  | some cell => some <$> read column cell

namespace TextCell

/-- The text, if there is one. -/
def text? : TextCell → Option String
  | text s => some s
  | garbled _ _ | blob _ => none

def read (column : Column) : TextCell → Except Damage String
  | text s => .ok s
  | garbled _ complaint => .error (.garbled complaint)
  | blob _ => .error (.wrongType column "Blob")

end TextCell

namespace Quantity

def asInt64 (column : Column) : Quantity → Except Damage Int64
  | integer n => .ok n
  | real _ => .error (.wrongType column "Real")
  | text _ => .error (.wrongType column "Text")
  | blob _ => .error (.wrongType column "Blob")

def asInt32 (column : Column) (q : Quantity) : Except Damage Int32 := do
  let n ← q.asInt64 column
  if Int32.minValue.toInt ≤ n.toInt ∧ n.toInt ≤ Int32.maxValue.toInt then pure n.toInt32
  else throw (.outOfRange column n)

end Quantity

namespace TagSet

def encode (tags : TagSet) : String :=
  (Json.array (tags.names.map .string)).compact

/-- The tags of a text; none if it is no list of texts. -/
def decode (text : String) : TagSet :=
  match Json.decode (Draft.asStrings Draft.maxNesting) text with
  | .ok names => .ofList names
  | .error _ => .empty

end TagSet

/-- An order in which the fields of an object are printed. -/
structure KeyOrder where
  arrange : List (String × Json) → List (String × Json)
  perm : ∀ fields, (arrange fields).Perm fields

def KeyOrder.ascending : KeyOrder := ⟨id, fun _ => .rfl⟩

namespace Metadata

/-- The text of metadata. Its own keys come in some order; those of the objects in it ascend. -/
def encode (order : KeyOrder) (m : Metadata) : String :=
  (Json.object (order.arrange m.fields)).compact

def decode? (text : String) : Option Metadata :=
  (Json.decode (Metadata.ofDraft Draft.maxNesting) text).toOption

end Metadata

namespace Row

def ofTask (order : KeyOrder) (t : Task) : Row where
  id := t.id
  title := t.title
  description := t.description.map .text
  status := t.status.name
  tags := t.tags.encode
  projectId := t.projectId.map .text
  parent := t.parent
  createdAt := .integer t.createdAt
  updatedAt := .integer t.updatedAt
  completedAt := t.completedAt.map .integer
  estimatedMinutes := t.estimatedMinutes.map .integer
  actualMinutes := t.actualMinutes.map .integer
  priority := .integer t.priority.toInt64
  metadata := t.metadata.map fun m => .text (m.encode order)

def toTask (r : Row) : Except Damage Task := do
  let name ← r.status.read .status
  let status ←
    match Status.ofName? name with
    | some s => pure s
    | none => throw (.unknownStatus name)
  let tags ← r.tags.read .tags
  let metadata ← readOptional TextCell.read .metadata r.metadata
  let title ← r.title.read .title
  let description ← readOptional TextCell.read .description r.description
  let projectId ← readOptional TextCell.read .projectId r.projectId
  let createdAt ← r.createdAt.asInt64 .createdAt
  let updatedAt ← r.updatedAt.asInt64 .updatedAt
  let completedAt ← readOptional Quantity.asInt64 .completedAt r.completedAt
  let estimatedMinutes ← readOptional Quantity.asInt64 .estimatedMinutes r.estimatedMinutes
  let actualMinutes ← readOptional Quantity.asInt64 .actualMinutes r.actualMinutes
  let priority ← r.priority.asInt32 .priority
  pure {
    id := r.id
    title := title
    description := description
    status := status
    tags := TagSet.decode tags
    projectId := projectId
    parent := r.parent
    createdAt := createdAt
    updatedAt := updatedAt
    completedAt := completedAt
    estimatedMinutes := estimatedMinutes
    actualMinutes := actualMinutes
    priority := priority
    metadata := metadata.bind Metadata.decode? }

end Row
end TaskForest
