/-!
Paths of files as they are written, and why the file system refuses an operation on one.
-/

namespace TaskForest

inductive FileError where
  | notFound
  | alreadyExists
  | notADirectory
  | isADirectory
  | notText
  | other (message : String)
deriving DecidableEq, Repr

def FileError.message : FileError → String
  | notFound => "No such file or directory (os error 2)"
  | alreadyExists => "File exists (os error 17)"
  | notADirectory => "Not a directory (os error 20)"
  | isADirectory => "Is a directory (os error 21)"
  | notText => "stream did not contain valid UTF-8"
  | other message => message

structure FilePath where
  absolute : Bool
  /-- The names between the slashes; that of the same directory is left out. -/
  parts : List String
  /-- A slash at the end: only a directory can be meant. -/
  slashed : Bool
deriving DecidableEq, Repr

namespace FilePath

/-- The pieces of a text between the slashes. -/
def pieces (cs : List Char) : List (List Char) :=
  cs.foldr
    (fun c pieces =>
      match pieces with
      | piece :: rest => if c = '/' then [] :: piece :: rest else (c :: piece) :: rest
      | [] => [])
    [[]]

def ofText (text : String) : FilePath where
  absolute := text.toList.head? = some '/'
  parts := ((pieces text.toList).filter fun p => p ≠ [] ∧ p ≠ ['.']).map String.ofList
  slashed := text.toList.getLast? = some '/'

def text (p : FilePath) : String :=
  (if p.absolute then "/" else "") ++ "/".intercalate p.parts

def parent (p : FilePath) : FilePath :=
  ⟨p.absolute, p.parts.dropLast, false⟩

end FilePath
end TaskForest
