import TaskForest.Files.Tree

/-!
Databases in a tree of files. A missing or empty file becomes an empty database when it is opened. Two
names stand for a database of its own that is gone at the end of the run. A slash at the end of a path is
passed over.
-/

namespace TaskForest

inductive DatabaseError where
  | cannotOpen (path : String)
  | notADatabase
deriving DecidableEq, Repr

def DatabaseError.message : DatabaseError → String
  | cannotOpen path => "unable to open database file: " ++ path
  | notADatabase => "file is not a database"

/-- An opened database, and the place to which it is written back. -/
structure OpenDatabase where
  table : Table
  place : Option Place

namespace FileTree

def isTransient (path : String) : Bool := path = "" || path = ":memory:"

def openDatabase (t : FileTree) (current : Place) (path : String) :
    Except DatabaseError OpenDatabase :=
  if isTransient path then .ok ⟨.empty, none⟩
  else
    match t.locate current path with
    | .error _ => .error (.cannotOpen path)
    | .ok (place, _) =>
      match t.find? place with
      | none => .ok ⟨.empty, some place⟩
      | some .directory => .error (.cannotOpen path)
      | some (.text content) =>
        if content.isEmpty then .ok ⟨.empty, some place⟩ else .error .notADatabase
      | some (.database table) => .ok ⟨table, some place⟩

def saveDatabase (t : FileTree) (place : Option Place) (table : Table) : FileTree :=
  match place with
  | none => t
  | some place => t.put place (.database table)

end FileTree
end TaskForest
