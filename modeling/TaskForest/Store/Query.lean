import TaskForest.Task.Basic

/-!
What a query selects and in which order it answers. The parts of a selection that are not given select
everything. Equal keys are ordered by id, so no two tasks of different ids are equal in any order.
-/

namespace TaskForest

inductive ParentRule where
  | absent
  | is (id : String)
deriving DecidableEq, Repr

structure Selection where
  parent : Option ParentRule := none
  status : Option Status := none
  project : Option String := none
deriving DecidableEq, Repr

namespace ParentRule

def parent : ParentRule → Option String
  | absent => none
  | is id => some id

end ParentRule

namespace Selection

def all : Selection := {}

def childrenOf (id : String) : Selection := { parent := some (.is id) }

def roots : Selection := { parent := some .absent }

/-- A part that is not given, or that the value satisfies. -/
def meets {α : Type} (part : Option α) (condition : α → Bool) : Bool :=
  match part with
  | none => true
  | some a => condition a

def selects (s : Selection) (t : Task) : Bool :=
  meets s.parent (fun rule => t.parent = rule.parent)
    && meets s.status (fun status => t.status = status)
    && meets s.project (fun project => t.projectId = some project)

end Selection

inductive SortOrder where
  | oldestFirst
  | newestFirst
  | lastUpdatedFirst
  | mostImportantFirst
deriving DecidableEq, Repr

namespace SortOrder

def compareKey : SortOrder → Task → Task → Ordering
  | oldestFirst, a, b => compare a.createdAt b.createdAt
  | newestFirst, a, b => compare b.createdAt a.createdAt
  | lastUpdatedFirst, a, b => compare b.updatedAt a.updatedAt
  | mostImportantFirst, a, b => compare b.priority a.priority

def compare (order : SortOrder) (a b : Task) : Ordering :=
  (order.compareKey a b).then (Ord.compare a.id b.id)

def precedes (order : SortOrder) (a b : Task) : Bool :=
  (order.compare a b).isLE

end SortOrder
end TaskForest
