/-!
What operations on the hierarchy are held to.
-/

namespace TaskForest

structure Limits where
  /-- The greatest level, a root being at level 1. -/
  maxDepth : Nat := 100
  /-- A delete fails if it would leave a task whose parent it removes. -/
  orphanGuard : Bool := true
deriving DecidableEq, Repr

end TaskForest
