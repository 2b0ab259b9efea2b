/-!
The flags of the command line and the commands that take them.
-/

namespace TaskForest

inductive Flag where
  | config | database | maxDepth | verbose | log | format
  | parent | description | priority | tag | project | dryRun
  | help | version
deriving DecidableEq, Repr

namespace Flag

def all : List Flag :=
  [config, database, maxDepth, verbose, log, format, parent, description, priority, tag, project,
    dryRun, help, version]

def long : Flag → String
  | config => "config"
  | database => "database"
  | maxDepth => "max-depth"
  | verbose => "verbose"
  | log => "log"
  | format => "format"
  | parent => "parent"
  | description => "description"
  | priority => "priority"
  | tag => "tag"
  | project => "project"
  | dryRun => "dry-run"
  | help => "help"
  | version => "version"

def short? : Flag → Option Char
  | config => some 'c'
  | database => some 'd'
  | verbose => some 'v'
  | log => some 'l'
  | format => some 'f'
  | parent => some 'p'
  | tag => some 't'
  | help => some 'h'
  | version => some 'V'
  | maxDepth | description | priority | project | dryRun => none

def isSwitch : Flag → Bool
  | verbose | dryRun | help | version => true
  | _ => false

/-- Whatever follows the flag is its value. -/
def takesAnything (f : Flag) : Bool := f = priority

/-- May stand before and behind the command. -/
def isGlobal : Flag → Bool
  | config | database | maxDepth | verbose | log | format | help => true
  | _ => false

end Flag

inductive CommandName where
  | add | children | tree | roots | move | delete
deriving DecidableEq, Repr

namespace CommandName

def all : List CommandName := [add, children, tree, roots, move, delete]

def text : CommandName → String
  | add => "add"
  | children => "children"
  | tree => "tree"
  | roots => "roots"
  | move => "move"
  | delete => "delete"

def ofText? (text : String) : Option CommandName :=
  all.find? fun c => c.text = text

/-- The command takes an argument, and needs it. -/
def takesArgument (c : CommandName) : Bool := c ≠ roots

def flags : CommandName → List Flag
  | add => [.parent, .description, .priority, .tag, .project]
  | move => [.parent]
  | delete => [.dryRun]
  | children | tree | roots => []

end CommandName

/-- Where on the line a token stands. -/
inductive Scope where
  | top
  | command (name : CommandName)
deriving DecidableEq, Repr

namespace Scope

def knows (s : Scope) (f : Flag) : Bool :=
  f.isGlobal ||
    match s with
    | top => f = .version
    | command name => name.flags.contains f

def long? (s : Scope) (name : String) : Option Flag :=
  Flag.all.find? fun f => s.knows f && f.long = name

def short? (s : Scope) (letter : Char) : Option Flag :=
  Flag.all.find? fun f => s.knows f && f.short? = some letter

def takesArgument : Scope → Bool
  | top => false
  | command name => name.takesArgument

end Scope
end TaskForest
