import TaskForest.Config.Basic
import TaskForest.Yaml.Node

/-!
Configurations out of YAML. The two sections and their fields may be missing, and a section of which
nothing is written has no fields. Other fields are passed over; a field given twice is refused.
-/

namespace TaskForest
namespace Config

open Yaml (Node Document)

/-- A node with its alias resolved. -/
def target (d : Document) : Node → Option Node
  | .aliasOf n => d.anchored n
  | node => some node

def entries? (d : Document) (node : Node) : Option (List (Node × Node)) := do
  match ← target d node with
  | .mapping _ entries => pure entries
  | .scalar _ _ _ [] => pure []
  | _ => none

/-- A scalar is a text however it is written. -/
def text? (d : Document) (node : Node) : Option String := do
  match ← target d node with
  | .scalar _ _ _ text => pure (String.ofList text)
  | _ => none

/-- A scalar that may stand for a value of a type: a plain one, or a literal block with the tag of the
type. -/
def literal? (d : Document) (type : String) (node : Node) : Option (List Char) := do
  match ← target d node with
  | .scalar _ tag style text =>
    if style = .plain ∨ (style = .literal ∧ tag = some ("tag:yaml.org,2002:" ++ type).toList) then
      pure text
    else none
  | _ => none

def digitValue (radix : Nat) (c : Char) : Option Nat := do
  let n ←
    if c.isDigit then some (c.toNat - '0'.toNat)
    else if 'a' ≤ c ∧ c ≤ 'z' then some (c.toNat - 'a'.toNat + 10)
    else if 'A' ≤ c ∧ c ≤ 'Z' then some (c.toNat - 'A'.toNat + 10)
    else none
  if n < radix then pure n else none

/-- A number below 2 ^ 64 of at least one digit. -/
def number? (radix : Nat) (cs : List Char) : Option Nat := do
  if cs.isEmpty then none
  let digits ← cs.mapM (digitValue radix)
  let n := digits.foldl (fun total digit => total * radix + digit) 0
  if n < UInt64.size then pure n else none

/-- A natural number: decimal, or with the mark of radix 16, 8 or 2. A decimal number has no leading
zero. -/
def natural? (cs : List Char) : Option Nat :=
  let cs := match cs with
    | '+' :: rest => rest
    | rest => rest
  match cs with
  | '0' :: 'x' :: rest => number? 16 rest
  | '0' :: 'o' :: rest => number? 8 rest
  | '0' :: 'b' :: rest => number? 2 rest
  | '0' :: _ :: _ => none
  | rest => number? 10 rest

def boolean? (cs : List Char) : Option Bool :=
  match String.ofList cs with
  | "true" | "True" | "TRUE" => some true
  | "false" | "False" | "FALSE" => some false
  | _ => none

def once {α : Type} (known : Option α) (read : Option α) : Option (Option α) :=
  match known with
  | some _ => none
  | none => read.map some

def foldFields {α : Type} (d : Document) (take : α → String → Node → Option α) (start : α)
    (node : Node) : Option α := do
  (← entries? d node).foldlM (fun state entry => do take state (← text? d entry.1) entry.2) start

def storeOfNode? (d : Document) (node : Node) : Option String := do
  let path ← foldFields d
    (fun known name value =>
      if name = "db_path" then once known (text? d value) else some known)
    none node
  pure (path.getD ({} : Config).databasePath)

structure LimitParts where
  maxDepth : Option Nat := none
  orphanGuard : Option Bool := none

def limitsOfNode? (d : Document) (node : Node) : Option Limits := do
  let parts ← foldFields d
    (fun (p : LimitParts) name value =>
      match name with
      | "max_depth" => do
        let n ← once p.maxDepth ((literal? d "int" value).bind natural?)
        pure { p with maxDepth := n }
      | "orphan_guard" => do
        let b ← once p.orphanGuard ((literal? d "bool" value).bind boolean?)
        pure { p with orphanGuard := b }
      | _ => some p)
    {} node
  let standard : Limits := {}
  pure {
    maxDepth := parts.maxDepth.getD standard.maxDepth
    orphanGuard := parts.orphanGuard.getD standard.orphanGuard }

structure Parts where
  databasePath : Option String := none
  limits : Option Limits := none

def ofNode? (d : Document) (node : Node) : Option Config := do
  let parts ← foldFields d
    (fun (p : Parts) name value =>
      match name with
      | "store" => do
        let path ← once p.databasePath (storeOfNode? d value)
        pure { p with databasePath := path }
      | "hierarchy" => do
        let limits ← once p.limits (limitsOfNode? d value)
        pure { p with limits := limits }
      | _ => some p)
    {} node
  let standard : Config := {}
  pure {
    databasePath := parts.databasePath.getD standard.databasePath
    limits := parts.limits.getD standard.limits }

/-- Reads a text; a text without a document has no fields. -/
def ofYaml? (text : String) : Option Config := do
  let d ← Yaml.parse? text
  match d.root with
  | none => pure {}
  | some root => ofNode? d root

end Config
end TaskForest
