import TaskForest.CommandLine.Flag
import TaskForest.CommandLine.Output
import TaskForest.Text.Decimal

/-!
What a command line asks for. The tokens are taken from left to right. A flag whose value is the next
token stays open until it is settled by another flag, by an argument or by the end of the line; only then
its value is looked at, and a second use of a flag refused. The flags before the command are settled
behind those of the command.
-/

namespace TaskForest

structure Options where
  config : Option String
  database : Option String
  maxDepth : Option Nat
  verbose : Bool
  log : String
  format : OutputFormat
deriving DecidableEq, Repr

inductive Command where
  | add (title : String) (parent description : Option String) (priority : Int32)
      (tags : List String) (project : Option String)
  | children (id : String)
  | tree (id : String)
  | roots
  | move (id : String) (parent : Option String)
  | delete (id : String) (dryRun : Bool)
deriving DecidableEq, Repr

structure Invocation where
  options : Options
  command : Command
deriving DecidableEq, Repr

/-- Why a command line is not carried out: it asks for help or the version, or it is wrong. -/
inductive UsageError where
  | helpAsked
  | versionAsked
  | nothingGiven
  | commandMissing
  | unknownCommand
  | unknownArgument
  | argumentMissing
  /-- A flag without its value, or a name that is none of the allowed ones. -/
  | valueMissing
  | valueUnreadable
  | repeated
  | valueUnwanted
deriving DecidableEq, Repr

/-- A refusal exits with 2; help and version are no failure. -/
def UsageError.exitCode : UsageError → Nat
  | helpAsked | versionAsked => 0
  | _ => 2

structure Given where
  config : Option String := none
  database : Option String := none
  maxDepth : Option Nat := none
  verbose : Bool := false
  log : Option String := none
  format : Option OutputFormat := none
  parent : Option String := none
  description : Option String := none
  priority : Option Int32 := none
  tags : List String := []
  project : Option String := none
  dryRun : Bool := false
  argument : Option String := none
deriving DecidableEq, Repr

namespace Given

def once {α : Type} (known : Option α) (value : Except UsageError α) :
    Except UsageError (Option α) :=
  match known with
  | some _ => .error .repeated
  | none => some <$> value

def text : Option String → Except UsageError String
  | some v => .ok v
  | none => .error .valueMissing

def number {α : Type} (read : String → Option α) (v : String) : Except UsageError α :=
  match read v with
  | some n => .ok n
  | none => .error .valueUnreadable

def formatOf (v : String) : Except UsageError OutputFormat :=
  (OutputFormat.ofName false v).mapError fun _ => .valueMissing

def settleValue (g : Given) (f : Flag) (v : String) : Except UsageError Given :=
  match f with
  | .config => return { g with config := ← once g.config (.ok v) }
  | .database => return { g with database := ← once g.database (.ok v) }
  | .maxDepth => return { g with maxDepth := ← once g.maxDepth (number Decimal.size? v) }
  | .log => return { g with log := ← once g.log (.ok v) }
  | .format => return { g with format := ← once g.format (formatOf v) }
  | .parent => return { g with parent := ← once g.parent (.ok v) }
  | .description => return { g with description := ← once g.description (.ok v) }
  | .priority => return { g with priority := ← once g.priority (number Decimal.int32? v) }
  | .tag => return { g with tags := g.tags ++ [v] }
  | .project => return { g with project := ← once g.project (.ok v) }
  | .verbose | .dryRun | .help | .version => .error .valueUnwanted

def settleSwitch (g : Given) : Flag → Except UsageError Given
  | .verbose => if g.verbose then .error .repeated else .ok { g with verbose := true }
  | .dryRun => if g.dryRun then .error .repeated else .ok { g with dryRun := true }
  | .help => .error .helpAsked
  | .version => .error .versionAsked
  | _ => .error .valueMissing

end Given

/-- A flag that is not settled yet, with its value if it was met. -/
structure OpenFlag where
  flag : Flag
  value : Option String

/-- How far the tokens of a scope were taken. -/
structure Progress where
  given : Given := {}
  pending : Option OpenFlag := none
  trailing : Bool := false

namespace Progress

def settle (p : Progress) : Except UsageError Progress :=
  match p.pending with
  | none => .ok p
  | some ⟨_, none⟩ => .error .valueMissing
  | some ⟨f, some v⟩ => return { p with given := ← p.given.settleValue f v, pending := none }

def awaiting (p : Progress) : Option Flag :=
  match p.pending with
  | some ⟨f, none⟩ => some f
  | _ => none

def settled (p : Progress) (f : Flag) (v : String) : Except UsageError Progress := do
  let p ← p.settle
  pure { p with given := ← p.given.settleValue f v }

def switched (p : Progress) (f : Flag) : Except UsageError Progress := do
  let p ← p.settle
  pure { p with given := ← p.given.settleSwitch f }

def opened (p : Progress) (f : Flag) : Except UsageError Progress := do
  let p ← p.settle
  pure { p with pending := some ⟨f, none⟩ }

/-- A flag by its long name, with what stands behind an equals sign. -/
def takeLong (p : Progress) (s : Scope) (name : String) (value : Option String) :
    Except UsageError Progress :=
  match s.long? name, value with
  | none, _ => .error .unknownArgument
  | some f, some v => if f.isSwitch then .error .valueUnwanted else p.settled f v
  | some f, none => if f.isSwitch then p.switched f else p.opened f

/-- Flags by their letters: switches, and at the end one with a value, which may follow at once or behind
an equals sign. -/
def takeShort (s : Scope) : Progress → List Char → Except UsageError Progress
  | p, [] => .ok p
  | p, letter :: rest =>
    match s.short? letter with
    | none => .error .unknownArgument
    | some f =>
      if f.isSwitch then do
        let p ← p.switched f
        takeShort s p rest
      else
        match rest with
        | [] => p.opened f
        | '=' :: value => p.settled f (String.ofList value)
        | value => p.settled f (String.ofList value)

/-- An argument. One too many is an unknown command where a command is wanted, unless it is a command
behind the sign that only arguments follow. -/
def takeArgument (p : Progress) (s : Scope) (token : String) : Except UsageError Progress :=
  if s.takesArgument && p.given.argument.isNone then do
    let p ← p.settle
    pure { p with given.argument := some token }
  else if s = .top && !(p.trailing && ((CommandName.ofText? token).isSome || token = "help")) then
    .error .unknownCommand
  else .error .unknownArgument

def splitLong (cs : List Char) : String × Option String :=
  match cs.dropWhile (· ≠ '=') with
  | _ :: value => (String.ofList (cs.takeWhile (· ≠ '=')), some (String.ofList value))
  | [] => (String.ofList cs, none)

def take (p : Progress) (s : Scope) (token : String) : Except UsageError Progress :=
  if p.trailing then p.takeArgument s token
  else if p.awaiting.any Flag.takesAnything then
    .ok { p with pending := p.pending.map fun o => { o with value := some token } }
  else
    match token.toList with
    | ['-', '-'] => .ok { p with trailing := true }
    | '-' :: '-' :: cs =>
      let (name, value) := splitLong cs
      p.takeLong s name value
    | '-' :: c :: cs => p.takeShort s (c :: cs)
    | _ =>
      match p.awaiting with
      | some f => .ok { p with pending := some ⟨f, some token⟩ }
      | none => p.takeArgument s token

/-- A token is a command if no flag waits for it. -/
def mayBeCommand (p : Progress) (s : Scope) : Bool :=
  s = .top && !p.trailing && p.awaiting.isNone

end Progress

/-- Asks for help on a command, which may be that for help; neither has commands of its own. -/
def helpOn : List String → UsageError
  | [] => .helpAsked
  | [name] =>
    if (CommandName.ofText? name).isSome || name = "help" then .helpAsked else .unknownCommand
  | _ => .unknownCommand

/-- Takes the tokens of a scope; a command ends it, and the tokens behind are its own. -/
def takeTokens (s : Scope) : Progress → List String →
    Except UsageError (Progress × Option (CommandName × List String))
  | p, [] => .ok (p, none)
  | p, token :: rest =>
    if p.mayBeCommand s && token = "help" then .error (helpOn rest)
    else
      match if p.mayBeCommand s then CommandName.ofText? token else none with
      | some name => .ok (p, some (name, rest))
      | none => do
        let p ← p.take s token
        takeTokens s p rest

def commandOf (name : CommandName) (g : Given) : Except UsageError Command :=
  match name, g.argument with
  | .roots, _ => .ok .roots
  | _, none => .error .argumentMissing
  | .add, some title =>
    .ok (.add title g.parent g.description (g.priority.getD 0) g.tags g.project)
  | .children, some id => .ok (.children id)
  | .tree, some id => .ok (.tree id)
  | .move, some id => .ok (.move id g.parent)
  | .delete, some id => .ok (.delete id g.dryRun)

/-- What was given behind the command counts before what was given in front of it. -/
def optionsOf (top inner : Given) : Options where
  config := inner.config <|> top.config
  database := inner.database <|> top.database
  maxDepth := inner.maxDepth <|> top.maxDepth
  verbose := inner.verbose || top.verbose
  log := (inner.log <|> top.log).getD "2"
  format := (inner.format <|> top.format).getD .text

namespace Invocation

def ofTokens (tokens : List String) : Except UsageError Invocation := do
  match ← takeTokens .top {} tokens with
  | (top, none) => do
    let top ← top.settle
    throw (if top.given = {} then .nothingGiven else .commandMissing)
  | (top, some (name, rest)) => do
    let (inner, _) ← takeTokens (.command name) {} rest
    let inner ← inner.settle
    let command ← commandOf name inner.given
    let top ← top.settle
    pure ⟨optionsOf top.given inner.given, command⟩

end Invocation
end TaskForest
