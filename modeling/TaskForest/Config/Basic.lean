import TaskForest.Hierarchy.Limits

/-!
What a run is configured to: the path of the database and the limits of the hierarchy.
-/

namespace TaskForest

structure Config where
  databasePath : String := "task-cascade/tasks.db"
  limits : Limits := {}
deriving DecidableEq, Repr

inductive ConfigError where
  /-- No level is allowed, not even that of a root. -/
  | noDepth
deriving DecidableEq, Repr

def ConfigError.message : ConfigError → String
  | noDepth => "hierarchy.max_depth must be at least 1"

namespace Config

def validate (c : Config) : Except ConfigError Config :=
  if c.limits.maxDepth = 0 then .error .noDepth else .ok c

end Config
end TaskForest
