import TaskForest.Config.Yaml
import TaskForest.Files.Path
import TaskForest.Text.Decimal

/-!
Where a configuration comes from. A file that is named has to be good. Otherwise the first good one of
the candidates counts, and the standard if there is none. The environment replaces single fields of
either, as far as its texts can be read, and the flags of the command line replace them in turn.
-/

namespace TaskForest

inductive LoadError where
  | file (error : FileError)
  | malformed
  | invalid (error : ConfigError)
deriving DecidableEq, Repr

structure Overrides where
  databasePath : Option String := none
  maxDepth : Option String := none
  orphanGuard : Option String := none
deriving DecidableEq, Repr

namespace Overrides

/-- The names of the variables, in the order of the fields. -/
def databasePathName : String := "TASK_CASCADE_DB_PATH"
def maxDepthName : String := "TASK_CASCADE_MAX_DEPTH"
def orphanGuardName : String := "TASK_CASCADE_ORPHAN_GUARD"

def ofLookup (lookup : String → Option String) : Overrides :=
  ⟨lookup databasePathName, lookup maxDepthName, lookup orphanGuardName⟩

def boolean? : String → Option Bool
  | "true" => some true
  | "false" => some false
  | _ => none

def apply (o : Overrides) (c : Config) : Config where
  databasePath := o.databasePath.getD c.databasePath
  limits := {
    maxDepth := (o.maxDepth.bind Decimal.size?).getD c.limits.maxDepth
    orphanGuard := (o.orphanGuard.bind boolean?).getD c.limits.orphanGuard }

end Overrides

namespace Config

def load (content : Except FileError String) : Except LoadError Config := do
  let text ← content.mapError .file
  match ofYaml? text with
  | none => throw .malformed
  | some c => c.validate.mapError .invalid

/-- The first candidate that gives a configuration, or the standard. -/
def search (candidates : List (Except FileError String)) : Config :=
  (candidates.findSome? fun content => (load content).toOption).getD {}

/-- With a file that is named; its values are not looked at again before the flags were. -/
def ofNamed (content : Except FileError String) (o : Overrides) : Except LoadError Config :=
  o.apply <$> load content

def ofSearch (candidates : List (Except FileError String)) (o : Overrides) :
    Except ConfigError Config :=
  (o.apply (search candidates)).validate

/-- The files that are looked for, the first one before the others. -/
def searchPaths (home : Option String) : List String :=
  "task-cascade/config.yaml" :: (home.map (· ++ "/.task-cascade/config.yaml")).toList

/-- Replaces what the command line gives. -/
def withFlags (databasePath : Option String) (maxDepth : Option Nat) (c : Config) :
    Except ConfigError Config :=
  validate {
    databasePath := databasePath.getD c.databasePath
    limits := { c.limits with maxDepth := maxDepth.getD c.limits.maxDepth } }

end Config
end TaskForest
