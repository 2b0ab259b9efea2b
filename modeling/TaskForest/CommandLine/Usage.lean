import TaskForest.CommandLine.Invocation

/-!
What the program says about its command line.
-/

namespace TaskForest

namespace Flag

def usage (f : Flag) : String :=
  let short := match f.short? with
    | some letter => String.ofList ['-', letter, ',', ' ']
    | none => ""
  short ++ "--" ++ f.long ++ if f.isSwitch then "" else " <value>"

end Flag

namespace CommandName

def usage (c : CommandName) : String :=
  let argument := if c.takesArgument then (if c = add then " <title>" else " <id>") else ""
  " ".intercalate ((c.text ++ argument) :: c.flags.map fun f => "[" ++ f.usage ++ "]")

end CommandName

namespace UsageError

def version : String := "0.1.0"

def help : String :=
  "\n".intercalate
    ("Commands:" :: CommandName.all.map (fun c => "  " ++ c.usage)
      ++ "Options:" :: (Flag.all.filter Flag.isGlobal).map fun f => "  " ++ f.usage)

def message : UsageError → String
  | helpAsked | nothingGiven => help
  | versionAsked => version
  | commandMissing => "a command is required"
  | unknownCommand => "there is no such command"
  | unknownArgument => "unexpected argument"
  | argumentMissing => "the argument of the command is missing"
  | valueMissing => "a flag lacks a possible value"
  | valueUnreadable => "a number cannot be read"
  | repeated => "a flag is given more than once"
  | valueUnwanted => "a switch takes no value"

end UsageError
end TaskForest
