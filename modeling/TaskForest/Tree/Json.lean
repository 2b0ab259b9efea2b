import TaskForest.Task.Json
import TaskForest.Tree.Basic

/-!
Trees as JSON: the fields of the task, with the trees below it in one more field, `children`. A tree is
read from an object only. Its children are decoded as they are met; the other fields are held back until
the object is closed and decoded then, in the order of the text.
-/

namespace TaskForest

open Json (Draft Decoded Stop)

namespace TaskTree

def heldTask (room : Nat) (held : List (String × Draft)) : Decoded Task := do
  let parts ← held.foldlM
    (fun parts field => parts.take room Status.ofHeld (fun _ => .ok ()) field.1 field.2)
    ({} : Task.Parts)
  parts.finish

mutual

def ofDraft (room : Nat) : Draft → Decoded TaskTree
  | .object fields stop =>
    match room with
    | 0 => .error (.fault .malformed)
    | room + 1 => do
      let (children, held) ← takeFields room none [] fields
      .ofText stop.check
      let children ← Draft.required "children" children
      let task ← heldTask room held.reverse
      pure (node task children)
  | d => d.mismatch (.record "TaskTree")

/-- The children, once they were met, and the other fields, the last one first. -/
def takeFields (room : Nat) (children : Option (List TaskTree)) (held : List (String × Draft)) :
    List (Option String × Draft) → Decoded (Option (List TaskTree) × List (String × Draft))
  | [] => .ok (children, held)
  | (none, _) :: _ => .error (.fault .malformed)
  | (some name, value) :: rest =>
    if name = "children" then
      match children with
      | some _ => .data (.duplicateField name)
      | none => do
        let trees ← childrenOfDraft room value
        takeFields room (some trees) held rest
    else do
      let _ ← Decoded.ofText (value.value room)
      takeFields room children ((name, value) :: held) rest

def childrenOfDraft (room : Nat) : Draft → Decoded (List TaskTree)
  | .array items stop =>
    match room with
    | 0 => .error (.fault .malformed)
    | room + 1 => do
      let trees ← ofDrafts room items
      .ofText stop.check
      pure trees
  | d => d.mismatch .sequence

def ofDrafts (room : Nat) : List Draft → Decoded (List TaskTree)
  | [] => .ok []
  | d :: rest => do
    let tree ← ofDraft room d
    let trees ← ofDrafts room rest
    pure (tree :: trees)

end

def decode (text : String) : Decoded TaskTree :=
  Json.decode (ofDraft Draft.maxNesting) text

mutual

def toJson : TaskTree → Json
  | node t cs => .object (t.fields ++ [("children", .array (toJsons cs))])

def toJsons : List TaskTree → List Json
  | [] => []
  | t :: rest => t.toJson :: toJsons rest

end

end TaskTree
end TaskForest
