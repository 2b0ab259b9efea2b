import TaskForest.Run.Command

/-!
A whole run, over what it needs of the machine that it runs on.
-/

namespace TaskForest

/-- The machine: its environment, files and databases, and its clock. -/
class Host (m : Type → Type) where
  overrides : m Overrides
  home : m (Option String)
  readText : String → m (Except FileError String)
  openLog : String → m (Except FileError Unit)
  makeParents : String → m (Except FileError Unit)
  openDatabase : String → m (Except DatabaseError OpenDatabase)
  saveDatabase : OpenDatabase → m Unit
  stamp : m Stamp

inductive Outcome where
  | printed (text : String)
  | failed (error : RunError)
  | usage (error : UsageError)
deriving DecidableEq, Repr

namespace Outcome

def exitCode : Outcome → Nat
  | printed _ => 0
  | failed _ => 1
  | usage e => e.exitCode

def output : Outcome → String
  | printed text => text
  | failed _ | usage _ => ""

end Outcome

namespace Run

variable {m : Type → Type} [Monad m] [Host m]

abbrev Step (m : Type → Type) := ExceptT RunError m

/-- A step of the machine, with its failures as those of the run. -/
def ofHost {ε α : Type} (wrap : ε → RunError) (x : m (Except ε α)) : Step m α :=
  ExceptT.mk ((·.mapError wrap) <$> x)

def openLog (o : Options) : Step m Unit :=
  match LogTarget.ofText o.log with
  | .file path => ofHost .file (Host.openLog path)
  | .off | .stdout | .stderr => pure ()

def candidates : List String → m (List (Except FileError String))
  | [] => pure []
  | path :: rest => do
    let content ← Host.readText path
    let others ← candidates rest
    pure (content :: others)

def baseConfig (o : Options) : Step m Config := do
  let overrides ← (Host.overrides : m Overrides)
  match o.config with
  | some path => do
    let content ← (Host.readText path : m (Except FileError String))
    ofHost (fun _ => .namedConfig path) (pure (Config.ofNamed content overrides))
  | none => do
    let home ← (Host.home : m (Option String))
    let contents ← (candidates (Config.searchPaths home) : m (List (Except FileError String)))
    ofHost .config (pure (Config.ofSearch contents overrides))

def config (o : Options) : Step m Config := do
  let base ← baseConfig o
  ofHost .config (pure (base.withFlags o.database o.maxDepth))

/-- The command on the database, which is written back whether the command fails or not. -/
def onDatabase (limits : Limits) (i : Invocation) (path : String) : Step m String := do
  let opened ← ofHost .database (Host.openDatabase path)
  let stamp ← (Host.stamp : m Stamp)
  match i.command.run limits i.options.format stamp opened.table with
  | .ok text table => do
    (Host.saveDatabase { opened with table := table } : m Unit)
    pure text
  | .error e table => do
    (Host.saveDatabase { opened with table := table } : m Unit)
    throw e

def carryOut (i : Invocation) : Step m String := do
  openLog i.options
  let c ← config i.options
  ofHost .file (Host.makeParents c.databasePath)
  onDatabase c.limits i c.databasePath

end Run

def runTokens {m : Type → Type} [Monad m] [Host m] (tokens : List String) : m Outcome := do
  match Invocation.ofTokens tokens with
  | .error e => pure (.usage e)
  | .ok i =>
    match ← (Run.carryOut i : Run.Step m String).run with
    | .ok text => pure (.printed text)
    | .error e => pure (.failed e)

end TaskForest
