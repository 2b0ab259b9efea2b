import TaskForest.Files.Path
import TaskForest.Store.Table

/-!
A tree of files: directories, texts and databases at places, a place being the names on the way down from
the root. A name that leads upwards goes to the directory above; every name but the last has to be met in
a directory.
-/

namespace TaskForest

abbrev Place := List String

inductive FileNode where
  | directory
  | text (content : String)
  | database (table : Table)

structure FileTree where
  nodes : List (Place × FileNode)

/-- Steps on a tree. What was changed before a failure stays changed. -/
abbrev FileM := EStateM FileError FileTree

namespace FileTree

/-- The root is always a directory. -/
def find? (t : FileTree) (place : Place) : Option FileNode :=
  if place.isEmpty then some .directory else t.nodes.lookup place

def put (t : FileTree) (place : Place) (node : FileNode) : FileTree :=
  ⟨(place, node) :: t.nodes.filter fun entry => entry.1 ≠ place⟩

def isDirectory (t : FileTree) (place : Place) : Bool :=
  (t.find? place) matches some .directory

def step (t : FileTree) (place : Place) (name : String) : Except FileError Place :=
  match t.find? place with
  | some .directory => .ok (if name = ".." then place.dropLast else place ++ [name])
  | some _ => .error .notADirectory
  | none => .error .notFound

/-- Where a path leads from a directory; there need not be a file. -/
def resolve (t : FileTree) (current : Place) (p : FilePath) : Except FileError Place :=
  p.parts.foldlM t.step (if p.absolute then [] else current)

/-- Where a path leads; the empty path leads nowhere. -/
def locate (t : FileTree) (current : Place) (path : String) : Except FileError (Place × Bool) := do
  if path.isEmpty then throw .notFound
  let p := FilePath.ofText path
  let place ← t.resolve current p
  pure (place, p.slashed)

def readText (t : FileTree) (current : Place) (path : String) : Except FileError String := do
  let (place, slashed) ← t.locate current path
  match t.find? place with
  | none => throw .notFound
  | some .directory => throw .isADirectory
  | some (.text content) => if slashed then throw .notADirectory else pure content
  | some (.database _) => throw .notText

/-- Opens a text to be appended to; a missing one is created. -/
def openLog (current : Place) (path : String) : FileM Unit := do
  let t ← get
  let (place, slashed) ← MonadExcept.ofExcept (t.locate current path)
  if slashed then throw .isADirectory
  match t.find? place with
  | none => set (t.put place (.text ""))
  | some .directory => throw .isADirectory
  | some _ => pure ()

def makeDirectory (current : Place) (p : FilePath) : FileM Unit := do
  let t ← get
  let place ← MonadExcept.ofExcept (t.resolve current p)
  if (t.find? place).isSome then throw .alreadyExists
  set (t.put place .directory)

def leadsToDirectory (t : FileTree) (current : Place) (p : FilePath) : Bool :=
  match t.resolve current p with
  | .ok place => t.isDirectory place
  | .error _ => false

def ensureDirectory (current : Place) (p : FilePath) : FileM Unit := fun t =>
  match makeDirectory current p t with
  | .ok _ t => .ok () t
  | .error e t => if t.leadsToDirectory current p then .ok () t else .error e t

/-- Creates a directory, after those above it where they are missing. The names of its path are given
from the last one on. -/
def makeDirectories (current : Place) (absolute : Bool) : (names : List String) → FileM Unit
  | [] => pure ()
  | name :: above => fun t =>
    let p : FilePath := ⟨absolute, (name :: above).reverse, false⟩
    match ensureDirectory current p t with
    | .error .notFound t =>
      (do makeDirectories current absolute above
          ensureDirectory current p : FileM Unit) t
    | result => result

def makeParents (current : Place) (path : String) : FileM Unit :=
  let parent := (FilePath.ofText path).parent
  makeDirectories current parent.absolute parent.parts.reverse

/-- What stands below a directory, as paths from there, in order. -/
def listing (t : FileTree) (place : Place) : List String :=
  Ascending.ofList ((t.nodes.filter fun entry =>
      place.isPrefixOf entry.1 ∧ place ≠ entry.1).map fun entry =>
    "/".intercalate (entry.1.drop place.length))

end FileTree
end TaskForest
