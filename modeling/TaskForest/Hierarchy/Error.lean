import TaskForest.Store.Basic

/-!
Failures of operations on the hierarchy. A structural one says that the stored parents form no tree of
the allowed depth; trying again does not help then.
-/

namespace TaskForest

inductive HierarchyError where
  /-- A walk came to this task a second time. -/
  | cycle (id : String)
  /-- This task is too far down. -/
  | tooDeep (id : String)
  /-- Tasks were put below the ones to be deleted after those had been gathered. -/
  | subtreeChanged (orphans : List String)
  | store (error : StoreError)
deriving DecidableEq, Repr

namespace HierarchyError

def message : HierarchyError → String
  | cycle id => "cycle detected in task hierarchy at " ++ id
  | tooDeep id => "task hierarchy exceeds maximum depth at " ++ id
  | subtreeChanged orphans =>
    "subtree changed during delete; orphaned: " ++ StoreError.enumeration orphans
  | store e => e.message

def code : HierarchyError → String
  | cycle _ => "CYCLE_DETECTED"
  | tooDeep _ => "DEPTH_EXCEEDED"
  | subtreeChanged _ => "SUBTREE_CHANGED"
  | store _ => "STORAGE_ERROR"

def isStructural : HierarchyError → Bool
  | cycle _ | tooDeep _ => true
  | subtreeChanged _ | store _ => false

def isRetryable (e : HierarchyError) : Bool := !e.isStructural

def taskId : HierarchyError → Option String
  | cycle id | tooDeep id => some id
  | store (.deleteFailed id _) | store (.notFound id) => some id
  | subtreeChanged _ | store _ => none

end HierarchyError

abbrev HierarchyM (σ : Type) := EStateM HierarchyError σ

instance {σ : Type} : MonadLift (StoreM σ) (HierarchyM σ) where
  monadLift m := m.adaptExcept .store

end TaskForest
