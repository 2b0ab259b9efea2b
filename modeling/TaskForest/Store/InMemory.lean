import TaskForest.Store.Basic
import TaskForest.Store.Records

/-!
A store in memory that fails where a plan says so and counts what is done to it. A batch of deletes is
made on a copy of the records, which takes their place only if the whole batch succeeds.
-/

namespace TaskForest

structure FaultPlan where
  /-- A batch fails instead of its delete with this number, the first being 0. -/
  deleteNumber : Option Nat := none
  /-- A batch fails instead of the delete of this id. -/
  deleteOf : Option String := none
  childrenOf : Option String := none
deriving DecidableEq, Repr

structure Counters where
  queries : Nat := 0
  deletesAttempted : Nat := 0
  commits : Nat := 0
  rollbacks : Nat := 0
deriving DecidableEq, Repr

structure InMemory where
  records : Records
  faults : FaultPlan := {}
  counters : Counters := {}

namespace FaultPlan

def failsDelete (p : FaultPlan) (done : Nat) (id : String) : Bool :=
  p.deleteNumber = some done || p.deleteOf = some id

/-- The parent whose children are asked for, if the plan fails that query. -/
def failsQuery (p : FaultPlan) (s : Selection) : Option String :=
  match s.parent, p.childrenOf with
  | some (.is id), some failing => if id = failing then some id else none
  | _, _ => none

end FaultPlan

namespace InMemory

def ofList (tasks : List Task) : InMemory :=
  { records := .ofList tasks }

def countQuery (s : InMemory) : InMemory :=
  { s with counters.queries := s.counters.queries + 1 }

def countDelete (s : InMemory) : InMemory :=
  { s with counters.deletesAttempted := s.counters.deletesAttempted + 1 }

def rollBack (s : InMemory) : InMemory :=
  { s with counters.rollbacks := s.counters.rollbacks + 1 }

def commit (s : InMemory) (records : Records) : InMemory :=
  { s with records := records, counters.commits := s.counters.commits + 1 }

/-- A batch under way: the copy of the records and the number of records removed from it. -/
structure Batch where
  records : Records
  removed : Nat

def Batch.delete (b : Batch) (id : String) : Batch :=
  ⟨b.records.erase id, if (b.records.find? id).isSome then b.removed + 1 else b.removed⟩

def deletes (done : Nat) (batch : Batch) : List String → StoreM InMemory Batch
  | [] => pure batch
  | id :: rest => do
    modify countDelete
    if (← MonadState.get).faults.failsDelete done id then
      modify rollBack
      throw (.deleteFailed id (StoreError.planned ("after " ++ toString done ++ " deletes")).message)
    deletes (done + 1) (batch.delete id) rest

def get (id : String) : StoreM InMemory (Option Task) := do
  pure ((← MonadState.get).records.find? id)

def create (t : Task) : StoreM InMemory Unit := do
  let s ← MonadState.get
  if (s.records.find? t.id).isSome then throw (.alreadyExists t.id)
  set { s with records := s.records.add t }

def update (t : Task) : StoreM InMemory Unit := do
  let s ← MonadState.get
  if (s.records.find? t.id).isNone then throw (.notFound t.id)
  set { s with records := s.records.replace t }

def query (selection : Selection) (order : SortOrder) : StoreM InMemory (List Task) := do
  modify countQuery
  let s ← MonadState.get
  match s.faults.failsQuery selection with
  | some id => throw (.planned ("children query for " ++ id))
  | none => pure (s.records.select selection order)

def deleteMany (ids : List String) (guarded : Bool) : StoreM InMemory Nat := do
  let batch ← deletes 0 ⟨(← MonadState.get).records, 0⟩ ids
  let orphans := if guarded then batch.records.attachedTo ids else []
  unless orphans.isEmpty do
    modify rollBack
    throw (.orphaned orphans)
  modify (commit · batch.records)
  pure batch.removed

instance : TaskStore InMemory where
  get := get
  create := create
  update := update
  query := query
  deleteMany := deleteMany

end InMemory
end TaskForest
