import Std.Time.DateTime.Timestamp
import TaskForest.CommandLine.Usage
import TaskForest.Run.Host
import TaskForest.Store.Table.Saved
import TaskForest.Task.NewId

/-!
The program on the machine that it runs on.
-/

namespace TaskForest
namespace Machine

def fileError : IO.Error → FileError
  | .noFileOrDirectory .. => .notFound
  | .alreadyExists .. => .alreadyExists
  | .inappropriateType _ 21 _ => .isADirectory
  | .inappropriateType .. => .notADirectory
  | e => .other (toString e)

def attempt {α : Type} (x : IO α) : IO (Except FileError α) := do
  match ← x.toBaseIO with
  | .ok a => pure (.ok a)
  | .error e => pure (.error (fileError e))

def environment : List String → IO (List (String × String))
  | [] => pure []
  | name :: rest => do
    let others ← environment rest
    match ← IO.getEnv name with
    | some value => pure ((name, value) :: others)
    | none => pure others

def overrides : IO Overrides := do
  let values ← environment
    [Overrides.databasePathName, Overrides.maxDepthName, Overrides.orphanGuardName]
  pure (.ofLookup fun name => values.lookup name)

def readText (path : String) : IO (Except FileError String) := do
  match ← attempt (IO.FS.readBinFile path) with
  | .error e => pure (.error e)
  | .ok bytes =>
    match String.fromUTF8? bytes with
    | some text => pure (.ok text)
    | none => pure (.error .notText)

def openLog (path : String) : IO (Except FileError Unit) :=
  attempt do
    let _ ← IO.FS.Handle.mk path .append
    pure ()

def makeParents (path : String) : IO (Except FileError Unit) :=
  let parent := (FilePath.ofText path).parent
  if parent.parts.isEmpty then pure (.ok ()) else attempt (IO.FS.createDirAll parent.text)

def placeOf (path : String) : IO Place := do
  let current ← IO.currentDir
  let p := FilePath.ofText path
  pure (if p.absolute then p.parts else (FilePath.ofText current.toString).parts ++ p.parts)

/-- A missing or empty file is an empty database. -/
def openDatabase (path : String) : IO (Except DatabaseError OpenDatabase) := do
  if FileTree.isTransient path then return .ok ⟨.empty, none⟩
  let place ← placeOf path
  match ← readText path with
  | .ok text =>
    if text.isEmpty then return .ok ⟨.empty, some place⟩
    match Table.ofText text with
    | .ok table => pure (.ok ⟨table, some place⟩)
    | .error _ => pure (.error .notADatabase)
  | .error .notFound => pure (.ok ⟨.empty, some place⟩)
  | .error .notText => pure (.error .notADatabase)
  | .error _ => pure (.error (.cannotOpen path))

def saveDatabase (opened : OpenDatabase) : IO Unit :=
  match opened.place, opened.table.toText with
  | some place, .ok text => IO.FS.writeFile (FilePath.text ⟨true, place, false⟩) text
  | _, _ => pure ()

def stamp : IO Stamp := do
  let now ← Std.Time.Timestamp.now
  let time := now.toMillisecondsSinceUnixEpoch.val
  let random ← IO.getRandomBytes 10
  pure ⟨Int64.ofInt time, NewId.ofTime time.toNat (random.toList.map UInt8.toNat)⟩

instance : Host IO where
  overrides := overrides
  home := IO.getEnv "HOME"
  readText := readText
  openLog := openLog
  makeParents := makeParents
  openDatabase := openDatabase
  saveDatabase := saveDatabase
  stamp := stamp

def report : Outcome → IO Unit
  | .printed text => IO.print text
  | .failed e => IO.eprintln ("Error: " ++ e.message)
  | .usage e => if e.exitCode = 0 then IO.println e.message else IO.eprintln e.message

end Machine
end TaskForest

def main (args : List String) : IO UInt32 := do
  let outcome ← (TaskForest.runTokens args : IO TaskForest.Outcome)
  TaskForest.Machine.report outcome
  pure (UInt32.ofNat outcome.exitCode)
