import TaskForest.Json.Decode

/-!
The report of a delete, as a line and as JSON.
-/

namespace TaskForest

open Json (Draft Decoded Stop)

structure Report where
  root : String
  /-- Ids found below the root, the root included. -/
  collected : Nat
  /-- Records removed, fewer than `collected` if some id named none. -/
  deleted : Nat
  /-- Levels of the subtree; the root alone makes one. -/
  depth : Nat
deriving DecidableEq, Repr

namespace Report

def line (r : Report) : String :=
  "Deleted " ++ toString r.deleted ++ " of " ++ toString r.collected ++ " task(s) under " ++ r.root
    ++ " (depth " ++ toString r.depth ++ ")"

def count (n : Nat) : Json := .number (.int n)

def toJson (r : Report) : Json :=
  .object [("root_id", .string r.root), ("collected", count r.collected),
    ("deleted", count r.deleted), ("depth", count r.depth)]

structure Parts where
  root : Option String := none
  collected : Option Nat := none
  deleted : Option Nat := none
  depth : Option Nat := none

def Parts.take (p : Parts) (name : String) (d : Draft) : Decoded Parts :=
  match name with
  | "root_id" => return { p with root := ← Draft.once name p.root d.asString }
  | "collected" => return { p with collected := ← Draft.once name p.collected d.asSize }
  | "deleted" => return { p with deleted := ← Draft.once name p.deleted d.asSize }
  | "depth" => return { p with depth := ← Draft.once name p.depth d.asSize }
  | _ => do
    .ofText d.skip
    pure p

def Parts.finish (p : Parts) : Decoded Report := do
  let root ← Draft.required "root_id" p.root
  let collected ← Draft.required "collected" p.collected
  let deleted ← Draft.required "deleted" p.deleted
  let depth ← Draft.required "depth" p.depth
  pure ⟨root, collected, deleted, depth⟩

def fieldNames : List String := ["root_id", "collected", "deleted", "depth"]

def takeItems (stop : Stop) : Nat → List String → Parts → List Draft → Decoded Parts
  | _, [], p, items => do
    Draft.endOfFixed items stop
    pure p
  | index, _ :: _, _, [] => do
    .ofText stop.check
    .data (.invalidLength index "DeleteReport" fieldNames.length)
  | index, name :: names, p, item :: items => do
    let p ← p.take name item
    takeItems stop (index + 1) names p items

def ofDraft : Draft → Decoded Report
  | .object fields stop => do
    let parts ← Draft.foldFields Parts.take {} fields stop
    parts.finish
  | .array items stop => do
    let parts ← takeItems stop 0 fieldNames {} items
    parts.finish
  | d => d.mismatch (.record "DeleteReport")

def decode (text : String) : Decoded Report :=
  Json.decode ofDraft text

end Report
end TaskForest
