import TaskForest.Run.Host

/-!
A machine as a value: a tree of files with a current and a home directory, an environment, and a clock
and a source of ids that go on with every reading.
-/

namespace TaskForest

structure World where
  files : FileTree
  current : Place
  home : Place
  environment : List (String × String) := []
  instant : Int64
  issued : Nat := 0
  idOf : Nat → String

namespace World

def absolutePath (place : Place) : String := "/" ++ "/".intercalate place

def nextStamp (w : World) : Stamp := ⟨w.instant + 1, w.idOf w.issued⟩

/-- A step on the files, as seen from the current directory. -/
def onFiles (step : Place → FileM Unit) : StateM World (Except FileError Unit) := do
  let w ← get
  match step w.current w.files with
  | .ok _ files => do
    set { w with files := files }
    pure (.ok ())
  | .error e files => do
    set { w with files := files }
    pure (.error e)

instance : Host (StateM World) where
  overrides := do
    let w ← get
    pure (.ofLookup fun name => w.environment.lookup name)
  home := do
    let w ← get
    pure (some (absolutePath w.home))
  readText path := do
    let w ← get
    pure (w.files.readText w.current path)
  openLog path := onFiles fun current => FileTree.openLog current path
  makeParents path := onFiles fun current => FileTree.makeParents current path
  openDatabase path := do
    let w ← get
    pure (w.files.openDatabase w.current path)
  saveDatabase opened :=
    modify fun w => { w with files := w.files.saveDatabase opened.place opened.table }
  stamp := do
    let w ← get
    set { w with instant := w.nextStamp.now, issued := w.issued + 1 }
    pure w.nextStamp

def run (w : World) (tokens : List String) : Outcome × World :=
  (runTokens tokens : StateM World Outcome).run w

end World
end TaskForest
