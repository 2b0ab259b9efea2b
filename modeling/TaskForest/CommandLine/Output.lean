/-!
Where a run writes and in which form: the two formats of results, and the target of log lines.
-/

namespace TaskForest

inductive OutputFormat where
  | text
  | json
deriving DecidableEq, Repr

namespace OutputFormat

def name : OutputFormat → String
  | text => "text"
  | json => "json"

def all : List OutputFormat := [text, json]

/-- The format of a name; the case of ASCII letters counts only if asked for. -/
def ofName (ignoreCase : Bool) (text : String) : Except String OutputFormat :=
  let sameName (s t : String) : Bool := if ignoreCase then s.toLower = t.toLower else s = t
  match all.find? fun f => sameName f.name text with
  | some f => .ok f
  | none => .error ("invalid variant: " ++ text)

end OutputFormat

inductive LogTarget where
  | off
  | stdout
  | stderr
  | file (path : String)
deriving DecidableEq, Repr

namespace LogTarget

/-- A digit or a name; any other text is the path of a file. -/
def ofText : String → LogTarget
  | "0" | "off" => off
  | "1" | "stdout" => stdout
  | "2" | "stderr" => stderr
  | path => file path

end LogTarget
end TaskForest
