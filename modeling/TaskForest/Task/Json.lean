import TaskForest.Json.Decode
import TaskForest.Task.Basic

/-!
Tasks as JSON. A task is written as an object of all its fields in one order. It is read from such an
object, in any order of the fields and with optional ones left out, or from an array of all of them.
-/

namespace TaskForest

open Json (Draft Decoded Stop)

namespace Metadata

def ofDraft (room : Nat) : Draft → Decoded Metadata
  | .object fields stop =>
    match room with
    | 0 => .error (.fault .malformed)
    | room + 1 =>
      match h : Draft.valueFields room [] fields with
      | .error f => .error (.fault f)
      | .ok values =>
        match stop.check with
        | .error f => .error (.fault f)
        | .ok () => .ok ⟨values, Draft.ordered_of_valueFields fields h rfl⟩
  | d => d.mismatch .map

end Metadata

namespace Status

def ofWritten? (name : String) : Option Status :=
  all.find? fun s => s.name = name

def ofVariant (name : String) : Decoded Status :=
  match ofWritten? name with
  | some s => .ok s
  | none => .data (.unknownVariant name (all.map Status.name))

def unitValue : Draft → Decoded Unit
  | .null => .ok ()
  | d => d.mismatch .unit

/-- A status is a name, or an object whose only field has the name as key and `null` as value. -/
def ofDraft (room : Nat) : Draft → Decoded Status
  | .string name => ofVariant name
  | .object fields stop =>
    if room = 0 then .error (.fault .malformed)
    else
      match fields, stop with
      | [], .strayKey (.ok found) => .data (.invalidType found .variantName)
      | [], .strayKey (.error f) => .error (.fault f)
      | [], .closed => .error (.fault .malformed)
      | [], stop => do
        .ofText stop.check
        .error (.fault .malformed)
      | (none, _) :: _, _ => .error (.fault .malformed)
      | (some name, value) :: rest, stop => do
        let status ← ofVariant name
        unitValue value
        Draft.endOfFixed rest stop
        pure status
  | .flawed flaw => .error (.fault flaw.named)
  | _ => .error (.fault .malformed)

/-- The same from a value that was read beforehand: there any other type is a wrong type. -/
def ofHeld : Draft → Decoded Status
  | .string name => ofVariant name
  | .object fields _ =>
    match fields with
    | [(some name, value)] => do
      let status ← ofVariant name
      match value with
      | .object [] _ => pure ()
      | value => unitValue value
      pure status
    | _ => .data (.invalidValue .map .singleKeyMap)
  | d => d.mismatch .stringOrMap

end Status

namespace Task

structure Parts where
  id : Option String := none
  title : Option String := none
  description : Option (Option String) := none
  status : Option Status := none
  tags : Option TagSet := none
  projectId : Option (Option String) := none
  parent : Option (Option String) := none
  createdAt : Option Int64 := none
  updatedAt : Option Int64 := none
  completedAt : Option (Option Int64) := none
  estimatedMinutes : Option (Option Int64) := none
  actualMinutes : Option (Option Int64) := none
  priority : Option Int32 := none
  metadata : Option (Option Metadata) := none

def fieldNames : List String :=
  ["id", "title", "description", "status", "tags", "projectId", "parentTaskId", "createdAt",
    "updatedAt", "completedAt", "estimatedMinutes", "actualMinutes", "priority", "metadata"]

namespace Parts

/-- Takes the field of a name; other fields go to `other`. `room` counts the arrays and objects that may
be opened inside the task, and `status` reads the status. -/
def take (room : Nat) (status : Draft → Decoded Status) (other : Draft → Decoded Unit)
    (p : Parts) (name : String) (d : Draft) : Decoded Parts :=
  match name with
  | "id" => return { p with id := ← Draft.once name p.id d.asString }
  | "title" => return { p with title := ← Draft.once name p.title d.asString }
  | "description" =>
    return { p with description := ← Draft.once name p.description (d.asOption Draft.asString) }
  | "status" => return { p with status := ← Draft.once name p.status (status d) }
  | "tags" =>
    return { p with tags := ← Draft.once name p.tags (TagSet.ofList <$> d.asStrings room) }
  | "projectId" =>
    return { p with projectId := ← Draft.once name p.projectId (d.asOption Draft.asString) }
  | "parentTaskId" =>
    return { p with parent := ← Draft.once name p.parent (d.asOption Draft.asString) }
  | "createdAt" => return { p with createdAt := ← Draft.once name p.createdAt d.asInt64 }
  | "updatedAt" => return { p with updatedAt := ← Draft.once name p.updatedAt d.asInt64 }
  | "completedAt" =>
    return { p with completedAt := ← Draft.once name p.completedAt (d.asOption Draft.asInt64) }
  | "estimatedMinutes" =>
    return { p with
      estimatedMinutes := ← Draft.once name p.estimatedMinutes (d.asOption Draft.asInt64) }
  | "actualMinutes" =>
    return { p with
      actualMinutes := ← Draft.once name p.actualMinutes (d.asOption Draft.asInt64) }
  | "priority" => return { p with priority := ← Draft.once name p.priority d.asInt32 }
  | "metadata" =>
    return { p with
      metadata := ← Draft.once name p.metadata (d.asOption (Metadata.ofDraft room)) }
  | _ => do
    other d
    pure p

def finish (p : Parts) : Decoded Task := do
  let id ← Draft.required "id" p.id
  let title ← Draft.required "title" p.title
  let status ← Draft.required "status" p.status
  let createdAt ← Draft.required "createdAt" p.createdAt
  let updatedAt ← Draft.required "updatedAt" p.updatedAt
  pure {
    id := id
    title := title
    description := p.description.getD none
    status := status
    tags := p.tags.getD .empty
    projectId := p.projectId.getD none
    parent := p.parent.getD none
    createdAt := createdAt
    updatedAt := updatedAt
    completedAt := p.completedAt.getD none
    estimatedMinutes := p.estimatedMinutes.getD none
    actualMinutes := p.actualMinutes.getD none
    priority := p.priority.getD 0
    metadata := p.metadata.getD none }

end Parts

def skipField (d : Draft) : Decoded Unit :=
  .ofText d.skip

/-- Takes the items of an array as the fields of these names. Only tags and priority may be missing from
the end, and no field behind them may. -/
def takeItems (room : Nat) (stop : Stop) : Nat → List String → Parts → List Draft → Decoded Parts
  | _, [], p, items => do
    Draft.endOfFixed items stop
    pure p
  | index, name :: names, p, [] => do
    .ofText stop.check
    if name = "tags" ∨ name = "priority" then takeItems room stop (index + 1) names p []
    else .data (.invalidLength index "Task" fieldNames.length)
  | index, name :: names, p, item :: items => do
    let p ← p.take room (Status.ofDraft room) skipField name item
    takeItems room stop (index + 1) names p items

def ofDraft (room : Nat) : Draft → Decoded Task
  | .object fields stop =>
    match room with
    | 0 => .error (.fault .malformed)
    | room + 1 => do
      let parts ← Draft.foldFields (Parts.take room (Status.ofDraft room) skipField) {} fields stop
      parts.finish
  | .array items stop =>
    match room with
    | 0 => .error (.fault .malformed)
    | room + 1 => do
      let parts ← takeItems room stop 0 fieldNames {} items
      parts.finish
  | d => d.mismatch (.record "Task")

def decode (text : String) : Decoded Task :=
  Json.decode (ofDraft Draft.maxNesting) text

def optional {α : Type} (f : α → Json) : Option α → Json
  | none => .null
  | some a => f a

def integer64 (n : Int64) : Json := .number (.int n.toInt)

def fields (t : Task) : List (String × Json) :=
  [("id", .string t.id),
    ("title", .string t.title),
    ("description", optional .string t.description),
    ("status", .string t.status.name),
    ("tags", .array (t.tags.names.map .string)),
    ("projectId", optional .string t.projectId),
    ("parentTaskId", optional .string t.parent),
    ("createdAt", integer64 t.createdAt),
    ("updatedAt", integer64 t.updatedAt),
    ("completedAt", optional integer64 t.completedAt),
    ("estimatedMinutes", optional integer64 t.estimatedMinutes),
    ("actualMinutes", optional integer64 t.actualMinutes),
    ("priority", .number (.int t.priority.toInt)),
    ("metadata", optional Metadata.toJson t.metadata)]

def toJson (t : Task) : Json := .object t.fields

end Task
end TaskForest
