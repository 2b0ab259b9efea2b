import TaskForest.CommandLine.Invocation
import TaskForest.Config.Sources
import TaskForest.Files.Database
import TaskForest.Hierarchy.Delete
import TaskForest.Hierarchy.Move
import TaskForest.Hierarchy.TreeView
import TaskForest.Json.Printer
import TaskForest.Task.Json
import TaskForest.Tree.Json

/-!
The commands, each as an operation on a store that gives the text to be printed.
-/

namespace TaskForest

inductive RunError where
  | file (error : FileError)
  | namedConfig (path : String)
  | config (error : ConfigError)
  | database (error : DatabaseError)
  | hierarchy (error : HierarchyError)
  | parentMissing (id : String)
  | taskMissing (id : String)
deriving DecidableEq, Repr

def RunError.message : RunError → String
  | file e => e.message
  | namedConfig path => "failed to load config from " ++ path
  | config e => e.message
  | database e => e.message
  | hierarchy e => e.message
  | parentMissing id => "parent task not found: " ++ id
  | taskMissing id => "task not found: " ++ id

/-- What a run may write of its own: the time, and an id that no task has yet. -/
structure Stamp where
  now : Int64
  id : String
deriving DecidableEq, Repr

abbrev RunM (σ : Type) := EStateM RunError σ

instance {σ : Type} : MonadLift (HierarchyM σ) (RunM σ) where
  monadLift m := m.adaptExcept .hierarchy

namespace Command

def lines (text : String) : String := text ++ "\n"

def shown (format : OutputFormat) (text : String) (json : Json) : String :=
  match format with
  | .text => lines text
  | .json => lines json.pretty

/-- Tasks, one a line; without tasks there is no line. -/
def shownTasks (format : OutputFormat) (tasks : List Task) : String :=
  if format = .text ∧ tasks.isEmpty then ""
  else shown format (listing tasks) (.array (tasks.map Task.toJson))

variable {σ : Type} [TaskStore σ]

/-- Fails if the parent of a new task is not stored. -/
def checkParent : Option String → RunM σ Unit
  | none => pure ()
  | some id => do
    if (← (TaskStore.get id : StoreM σ (Option Task))).isNone then throw (.parentMissing id)

def addTask (format : OutputFormat) (task : Task) : RunM σ String := do
  checkParent task.parent
  (TaskStore.create task : StoreM σ Unit)
  pure (shown format task.id task.toJson)

def showTree (limits : Limits) (format : OutputFormat) (id : String) : RunM σ String := do
  match ← (loadTree limits.maxDepth id : HierarchyM σ (Option TaskTree)) with
  | none => throw (.taskMissing id)
  | some loaded => pure (shown format loaded.outline loaded.toJson)

def moveTask (limits : Limits) (format : OutputFormat) (now : Int64) (id : String)
    (parent : Option String) : RunM σ String := do
  let task ← (reparent limits.maxDepth now id parent : HierarchyM σ Task)
  pure (shown format task.line task.toJson)

def showPreview (limits : Limits) (format : OutputFormat) (id : String) : RunM σ String := do
  let subtree ← (preview limits id : HierarchyM σ Subtree)
  pure (shown format ("\n".intercalate subtree.ids) (.array (subtree.ids.map .string)))

def deleteTask (limits : Limits) (format : OutputFormat) (id : String) : RunM σ String := do
  let report ← (TaskForest.delete limits id : HierarchyM σ Report)
  pure (shown format report.line report.toJson)

def newTask (stamp : Stamp) (title : String) (parent description : Option String) (priority : Int32)
    (tags : List String) (project : Option String) : Task :=
  { Task.new stamp.id title stamp.now with
    description := description
    tags := .ofList tags
    projectId := project
    parent := parent
    priority := priority }

def run (limits : Limits) (format : OutputFormat) (stamp : Stamp) : Command → RunM σ String
  | .add title parent description priority tags project =>
    addTask format (newTask stamp title parent description priority tags project)
  | .children id => do
    let tasks ← (childrenOf id : StoreM σ (List Task))
    pure (shownTasks format tasks)
  | .tree id => showTree limits format id
  | .roots => do
    let tasks ← (TaskForest.roots : StoreM σ (List Task))
    pure (shownTasks format tasks)
  | .move id parent => moveTask limits format stamp.now id parent
  | .delete id dryRun => if dryRun then showPreview limits format id else deleteTask limits format id

end Command
end TaskForest
