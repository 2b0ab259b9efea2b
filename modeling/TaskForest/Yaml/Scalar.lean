import TaskForest.Yaml.Cursor

/-!
The texts of scalars: plain ones, quoted ones with one or two marks, and blocks.
-/

namespace TaskForest
namespace Yaml

inductive Style where
  | plain
  | singleQuoted
  | doubleQuoted
  | literal
  | folded
deriving DecidableEq, Repr

namespace Scalar

/-- A scalar may hold any characters, those of escapes included. -/
abbrev Text := List Char

def isFlowIndicator (c : Char) : Bool :=
  c = ',' || c = '[' || c = ']' || c = '{' || c = '}'

/-- A plain scalar ends at a colon with a gap behind it, and within brackets at their signs. -/
def endsPlain (flow : Bool) (c : Cursor) : Bool :=
  (c.sees ':' && c.gapAt 1) || (flow && c.has 0 isFlowIndicator)

/-- Within brackets no sign of theirs and no question mark may follow a colon. -/
def strayColon (flow : Bool) (c : Cursor) : Bool :=
  flow && c.sees ':' && c.has 1 fun x => isFlowIndicator x || x = '?'

/-- The piece of a plain scalar up to the next gap; its sign of an end is not taken. -/
def plainPiece (flow : Bool) : Nat → Text → Cursor → Option (Text × Cursor)
  | 0, text, c => some (text, c)
  | fuel + 1, text, c =>
    if c.gapAt 0 then some (text, c)
    else if strayColon flow c then none
    else if endsPlain flow c then some (text, c)
    else
      match c.peek with
      | none => some (text, c)
      | some x => plainPiece flow fuel (text ++ [x]) (c.skip 1)

/-- A plain scalar in lines from the column `indent` on. The result says whether the text was left behind
a line break. -/
def plainFrom (flow : Bool) (indent : Nat) : Nat → Text → Gap → Cursor →
    Option (Text × Bool × Cursor)
  | 0, text, gap, c => some (text, gap.broken, c)
  | fuel + 1, text, gap, c =>
    if c.atDocumentMarker || c.sees '#' then some (text, gap.broken, c)
    else
      match plainPiece flow c.rest.length [] c with
      | none => none
      | some (piece, c) =>
        let (text, gap) : Text × Gap :=
          if piece.isEmpty then (text, gap) else (text ++ gap.folded ++ piece, {})
        if c.atEnd || !c.gapAt 0 then some (text, gap.broken, c)
        else
          match Gap.read indent c.rest.length gap c with
          | none => none
          | some (gap, c) =>
            if !flow && c.column < indent then some (text, gap.broken, c)
            else plainFrom flow indent fuel text gap c

def plain (flow : Bool) (indent : Nat) (c : Cursor) : Option (Text × Bool × Cursor) :=
  plainFrom flow indent (c.rest.length + 1) [] {} c

def hexValue (c : Char) : Option Nat :=
  if c.isDigit then some (c.toNat - '0'.toNat)
  else if 'a' ≤ c ∧ c ≤ 'f' then some (c.toNat - 'a'.toNat + 10)
  else if 'A' ≤ c ∧ c ≤ 'F' then some (c.toNat - 'A'.toNat + 10)
  else none

def hexNumber (n : Nat) (cs : List Char) : Option Nat := do
  let digits := cs.take n
  if digits.length < n then none
  let values ← digits.mapM hexValue
  pure (values.foldl (fun total value => total * 16 + value) 0)

def simpleEscape (c : Char) : Option Char :=
  match c with
  | '0' => some '\x00'
  | 'a' => some '\x07'
  | 'b' => some '\x08'
  | 't' | '\t' => some '\t'
  | 'n' => some '\n'
  | 'v' => some '\x0b'
  | 'f' => some '\x0c'
  | 'r' => some '\r'
  | 'e' => some '\x1b'
  | ' ' | '"' | '/' | '\\' => some c
  | 'N' => some '\x85'
  | '_' => some '\xa0'
  | 'L' => some '\u2028'
  | 'P' => some '\u2029'
  | _ => none

def escapeDigits (c : Char) : Option Nat :=
  match c with
  | 'x' => some 2
  | 'u' => some 4
  | 'U' => some 8
  | _ => none

def escape (c : Cursor) : Option (Char × Cursor) := do
  let letter ← c.at? 1
  match simpleEscape letter with
  | some x => pure (x, c.skip 2)
  | none =>
    let n ← escapeDigits letter
    let value ← hexNumber n (c.rest.drop 2)
    if h : value.isValidChar then pure (Char.ofNatAux value h, c.skip (2 + n)) else none

/-- The piece of a quoted scalar up to a gap or the closing mark. A break behind a backslash opens a gap
that contributes nothing by itself. -/
def quotedPiece (single : Bool) : Nat → Text → Cursor → Option (Text × Gap × Cursor)
  | 0, text, c => some (text, {}, c)
  | fuel + 1, text, c =>
    if c.gapAt 0 then some (text, {}, c)
    else if single then
      if c.sees '\'' then
        if c.has 1 (· = '\'') then quotedPiece single fuel (text ++ ['\'']) (c.skip 2)
        else some (text, {}, c)
      else quotedPiece single fuel (text ++ c.rest.take 1) (c.skip 1)
    else if c.sees '"' then some (text, {}, c)
    else if c.sees '\\' then
      if c.has 1 isBreak then some (text, { broken := true }, (c.skip 1).skipBreak)
      else
        match escape c with
        | none => none
        | some (x, c) => quotedPiece single fuel (text ++ [x]) c
    else quotedPiece single fuel (text ++ c.rest.take 1) (c.skip 1)

def quotedFrom (single : Bool) : Nat → Text → Cursor → Option (Text × Cursor)
  | 0, _, _ => none
  | fuel + 1, text, c =>
    if c.atDocumentMarker || c.atEnd then none
    else
      match quotedPiece single c.rest.length [] c with
      | none => none
      | some (piece, gap, c) =>
        let text := text ++ piece
        if !gap.broken && c.sees (if single then '\'' else '"') then some (text, c.skip 1)
        else
          match Gap.read 0 c.rest.length gap c with
          | none => none
          | some (gap, c) => quotedFrom single fuel (text ++ gap.folded) c

def quoted (single : Bool) (c : Cursor) : Option (Text × Cursor) :=
  quotedFrom single (c.rest.length + 1) [] (c.skip 1)

/-- What becomes of the breaks at the end of a block. -/
inductive Chomping where
  | strip
  | clip
  | keep
deriving DecidableEq, Repr

def chompingSign (c : Cursor) : Option Chomping :=
  if c.sees '+' then some .keep else if c.sees '-' then some .strip else none

/-- The digit of an indentation at the front, which must not be zero. -/
def indentDigit (c : Cursor) : Option (Option Nat × Cursor) :=
  match c.peek with
  | some x =>
    if x = '0' then none
    else if x.isDigit then some (some (x.toNat - '0'.toNat), c.skip 1)
    else some (none, c)
  | none => some (none, c)

/-- The signs behind the mark of a block, in either order. -/
def blockHeader (c : Cursor) : Option (Chomping × Option Nat × Cursor) :=
  match chompingSign c with
  | some chomping => do
    let (indent, c) ← indentDigit (c.skip 1)
    pure (chomping, indent, c)
  | none => do
    let (indent, c) ← indentDigit c
    match indent, chompingSign c with
    | some n, some chomping => pure (chomping, some n, c.skip 1)
    | indent, _ => pure (.clip, indent, c)

/-- Empty lines of a block with the blanks of the indentation. Where the indentation is not known yet the
greatest column is noted. -/
def blockBreaks (indent : Option Nat) : Nat → Nat → Text → Cursor → Option (Nat × Text × Cursor)
  | 0, widest, breaks, c => some (widest, breaks, c)
  | fuel + 1, widest, breaks, c =>
    let room := match indent with
      | some n => n - c.column
      | none => c.rest.length
    let c := c.skip ((c.rest.take room).takeWhile (· = ' ')).length
    let widest := max widest c.column
    if c.sees '\t' && indent.all (c.column < ·) then none
    else if c.has 0 isBreak then
      let (text, c) := c.takeBreak
      blockBreaks indent fuel widest (breaks ++ text) c
    else some (widest, breaks, c)

/-- The lines of a block that are indented by `indent`, and the breaks at its end: the one of the last
line, and those of the empty lines behind it. -/
def blockLines (folds : Bool) (indent : Nat) : Nat → Text → Text → Text → (afterBlank : Bool) →
    Cursor → Option (Text × Text × Text × Cursor)
  | 0, text, lastBreak, breaks, _, c => some (text, lastBreak, breaks, c)
  | fuel + 1, text, lastBreak, breaks, afterBlank, c =>
    if c.column ≠ indent ∨ c.atEnd then some (text, lastBreak, breaks, c)
    else
      let blank := c.has 0 isBlank
      let join :=
        if folds && lastBreak.head? = some '\n' && !afterBlank && !blank then
          if breaks.isEmpty then [' '] else breaks
        else lastBreak ++ breaks
      let (line, c) := c.takeWhile fun x => !isBreak x
      let (lastBreak, c) := c.takeBreak
      match blockBreaks (some indent) c.rest.length 0 [] c with
      | none => none
      | some (_, breaks, c) =>
        blockLines folds indent fuel (text ++ join ++ line) lastBreak breaks blank c

/-- A block scalar within lines indented by more than `parent`, if there are such. -/
def block (folds : Bool) (parent : Option Nat) (c : Cursor) : Option (Text × Cursor) := do
  let (chomping, increment, c) ← blockHeader (c.skip 1)
  let c := (c.skipWhile isBlank).skipComment
  if !c.lineEnds then none
  let c := c.skipBreak
  let known := increment.map (· + parent.getD 0)
  let (widest, breaks, c) ← blockBreaks known (c.rest.length + 1) 0 [] c
  let least := match parent with
    | some n => n + 1
    | none => 1
  let indent := known.getD (max widest least)
  let (text, lastBreak, breaks, c) ←
    blockLines folds indent (c.rest.length + 1) [] [] breaks false c
  match chomping with
  | .strip => pure (text, c)
  | .clip => pure (text ++ lastBreak, c)
  | .keep => pure (text ++ lastBreak ++ breaks, c)

end Scalar
end Yaml
end TaskForest
