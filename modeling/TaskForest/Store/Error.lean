/-!
Why a store refuses an operation, and the message of each refusal.
-/

namespace TaskForest

inductive StoreError where
  | notFound (id : String)
  | alreadyExists (id : String)
  /-- One delete of a batch failed, so none was made. -/
  | deleteFailed (id reason : String)
  /-- These records would have kept a parent that the batch removes, so it was not made. -/
  | orphaned (ids : List String)
  | planned (reason : String)
  | serialization (reason : String)
  | backend (reason : String)
deriving DecidableEq, Repr

namespace StoreError

def enumeration (ids : List String) : String :=
  ", ".intercalate ids

def message : StoreError → String
  | notFound id => "task not found: " ++ id
  | alreadyExists id => "task already exists: " ++ id
  | deleteFailed id reason => "delete of " ++ id ++ " failed: " ++ reason
  | orphaned ids =>
    toString ids.length ++ " task(s) would be orphaned: " ++ enumeration ids
  | planned reason => "injected failure: " ++ reason
  | serialization reason => "serialization error: " ++ reason
  | backend reason => "store backend error: " ++ reason

end StoreError
end TaskForest
