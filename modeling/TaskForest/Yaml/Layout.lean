import TaskForest.Yaml.Token

/-!
From text to tokens. Outside of brackets indentation opens and closes collections. A key is recognised
only at the colon behind it, on the same line and within 1024 characters; its token is then put in front
of where it began.
-/

namespace TaskForest
namespace Yaml

/-- A place where a key may have begun. -/
structure PossibleKey where
  start : Cursor
  before : Nat
  /-- At the column of the block the key has to be completed. -/
  required : Bool

structure Layout where
  cursor : Cursor
  tokens : List Token := []
  /-- The column of the innermost block, and of those around it. -/
  indent : Option Nat := none
  outer : List (Option Nat) := []
  flow : Nat := 0
  /-- The possible key of the innermost bracket, and of those around it. -/
  possible : Option PossibleKey := none
  outerPossible : List (Option PossibleKey) := []
  keyAllowed : Bool := true

namespace Layout

def inFlow (l : Layout) : Bool := 0 < l.flow

def column (l : Layout) : Nat := l.cursor.column

def put (l : Layout) (t : Token) : Layout := { l with tokens := t :: l.tokens }

/-- A token that takes characters of the line. -/
def putSkipping (l : Layout) (t : Token) (n : Nat) : Layout :=
  { l.put t with cursor := l.cursor.skip n }

/-- Puts a token behind the first `before` ones. -/
def insert (l : Layout) (before : Nat) (t : Token) : Layout :=
  { l with tokens := l.tokens.insertIdx (l.tokens.length - before) t }

/-- Blanks, comments and line breaks are passed. Where a key may begin outside of brackets, a tab is no
blank. -/
def skipGaps : Nat → Layout → Layout
  | 0, l => l
  | fuel + 1, l =>
    let c := if l.column = 0 && l.cursor.sees '\ufeff' then l.cursor.skip 1 else l.cursor
    let tabs := l.inFlow || !l.keyAllowed
    let c := (c.skipWhile fun x => x = ' ' || (tabs && x = '\t')).skipComment
    if c.has 0 isBreak then
      skipGaps fuel { l with cursor := c.skipBreak, keyAllowed := l.keyAllowed || !l.inFlow }
    else { l with cursor := c }

def isStale (c : Cursor) (k : PossibleKey) : Bool :=
  k.start.line < c.line || k.start.index + 1024 < c.index

/-- Gives up a key that cannot be completed any more. -/
def dropStale (c : Cursor) : Option PossibleKey → Option (Option PossibleKey)
  | none => some none
  | some k =>
    if isStale c k then if k.required then none else some none
    else some (some k)

def dropStaleKeys (l : Layout) : Option Layout := do
  let possible ← dropStale l.cursor l.possible
  let outerPossible ← l.outerPossible.mapM (dropStale l.cursor)
  pure { l with possible := possible, outerPossible := outerPossible }

/-- No key begins at the last place where one might have begun. -/
def dropKey (l : Layout) : Option Layout :=
  match l.possible with
  | some k => if k.required then none else some { l with possible := none }
  | none => some l

/-- Notes that a key may begin here. -/
def saveKey (l : Layout) : Option Layout :=
  if l.keyAllowed then do
    let l ← l.dropKey
    pure { l with possible := some {
      start := l.cursor
      before := l.tokens.length
      required := !l.inFlow && l.indent = some l.column } }
  else some l

/-- A block at a column further to the right is opened by its token, put behind the first `before` ones. -/
def openBlock (l : Layout) (column before : Nat) (t : Token) : Layout :=
  if l.inFlow || l.indent.any (column ≤ ·) then l
  else { l.insert before t with indent := some column, outer := l.indent :: l.outer }

/-- Closes the blocks to the right of a column, or all of them. -/
def closeBlocks (column : Option Nat) : List (Option Nat) → Layout → Layout
  | outer, l =>
    match l.indent, outer with
    | some n, next :: outer =>
      if column.any (n ≤ ·) then l
      else closeBlocks column outer { l.put .blockEnd with indent := next, outer := outer }
    | _, _ => l

def unindent (l : Layout) (column : Option Nat) : Layout :=
  if l.inFlow then l else closeBlocks column l.outer l

/-- The end of all blocks before the sign of a document or a directive. -/
def endContent (l : Layout) : Option Layout := do
  let l ← (l.unindent none).dropKey
  pure { l with keyAllowed := false }

def openFlow (l : Layout) (t : Token) : Option Layout := do
  let l ← l.saveKey
  pure { l.putSkipping t 1 with
    flow := l.flow + 1
    possible := none
    outerPossible := l.possible :: l.outerPossible
    keyAllowed := true }

def closeFlow (l : Layout) (t : Token) : Option Layout := do
  let l ← l.dropKey
  let l := { l.putSkipping t 1 with keyAllowed := false }
  match l.outerPossible with
  | possible :: outerPossible =>
    pure { l with flow := l.flow - 1, possible := possible, outerPossible := outerPossible }
  | [] => pure l

def flowEntry (l : Layout) : Option Layout := do
  let l ← l.dropKey
  pure { l.putSkipping .flowEntry 1 with keyAllowed := true }

/-- Opens a block at this column for an entry or key of its own. -/
def startEntry (l : Layout) (t : Token) : Option Layout :=
  if l.inFlow then some l
  else if l.keyAllowed then some (l.openBlock l.column l.tokens.length t)
  else none

def blockEntry (l : Layout) : Option Layout := do
  let l ← l.startEntry .blockSequenceStart
  let l ← l.dropKey
  pure { l.putSkipping .blockEntry 1 with keyAllowed := true }

def explicitKey (l : Layout) : Option Layout := do
  let l ← l.startEntry .blockMappingStart
  let l ← l.dropKey
  pure { l.putSkipping .key 1 with keyAllowed := !l.inFlow }

def value (l : Layout) : Option Layout :=
  match l.possible with
  | some k =>
    let l := (l.insert k.before .key).openBlock k.start.column k.before .blockMappingStart
    some { l.putSkipping .value 1 with possible := none, keyAllowed := false }
  | none => do
    let l ← l.startEntry .blockMappingStart
    pure { l.putSkipping .value 1 with keyAllowed := !l.inFlow }

/-- A word or scalar that may be a key. -/
def content (l : Layout) (read : Cursor → Option (Token × Cursor)) : Option Layout := do
  let l ← l.saveKey
  let (t, c) ← read l.cursor
  pure { l.put t with cursor := c, keyAllowed := false }

def quoted (single : Bool) (l : Layout) : Option Layout :=
  l.content fun c => do
    let (text, c) ← Scalar.quoted single c
    pure (.scalar (if single then .singleQuoted else .doubleQuoted) text, c)

/-- Behind a plain scalar that ends with a line break a key may begin. -/
def plain (l : Layout) : Option Layout := do
  let l ← l.saveKey
  let indent := match l.indent with
    | some n => n + 1
    | none => 0
  let (text, broken, c) ← Scalar.plain l.inFlow indent l.cursor
  pure { l.put (.scalar .plain text) with cursor := c, keyAllowed := broken }

def block (folds : Bool) (l : Layout) : Option Layout := do
  let l ← l.dropKey
  let (text, c) ← Scalar.block folds l.indent l.cursor
  pure { l.put (.scalar (if folds then .folded else .literal) text) with
    cursor := c, keyAllowed := true }

def isIndicator (c : Char) : Bool :=
  c ∈ ['-', '?', ':', ',', '[', ']', '{', '}', '#', '&', '*', '!', '|', '>', '\'', '"', '%', '@', '\x60']

/-- A plain scalar starts with no sign, or with one that means nothing where it stands. -/
def startsPlain (l : Layout) : Bool :=
  let c := l.cursor
  (!c.gapAt 0 && !c.has 0 isIndicator)
    || (c.sees '-' && !c.has 1 isBlank)
    || (!l.inFlow && (c.sees '?' || c.sees ':') && !c.gapAt 1)

def next (l : Layout) : Option Layout :=
  let c := l.cursor
  let separate := l.inFlow || c.gapAt 1
  if c.column = 0 && c.sees '%' then do
    let l ← l.endContent
    let (t, c) ← Token.directive l.cursor
    pure { l.put t with cursor := c }
  else if c.atMarker '-' then do
    let l ← l.endContent
    pure (l.putSkipping .documentStart 3)
  else if c.atMarker '.' then do
    let l ← l.endContent
    pure (l.putSkipping .documentEnd 3)
  else if c.sees '[' then l.openFlow .flowSequenceStart
  else if c.sees '{' then l.openFlow .flowMappingStart
  else if c.sees ']' then l.closeFlow .flowSequenceEnd
  else if c.sees '}' then l.closeFlow .flowMappingEnd
  else if c.sees ',' then l.flowEntry
  else if c.sees '-' && c.gapAt 1 then l.blockEntry
  else if c.sees '?' && separate then l.explicitKey
  else if c.sees ':' && separate then l.value
  else if c.sees '*' then
    l.content fun c => (Token.anchorName c).map fun (name, c) => (.aliasOf name, c)
  else if c.sees '&' then
    l.content fun c => (Token.anchorName c).map fun (name, c) => (.anchor name, c)
  else if c.sees '!' then l.content (Token.tagToken l.inFlow)
  else if c.sees '|' && !l.inFlow then l.block false
  else if c.sees '>' && !l.inFlow then l.block true
  else if c.sees '\'' then l.quoted true
  else if c.sees '"' then l.quoted false
  else if l.startsPlain then l.plain
  else none

def finish (l : Layout) : Option (List Token) := do
  let l ← (l.unindent none).dropKey
  pure l.tokens.reverse

def run : Nat → Layout → Option (List Token)
  | 0, _ => none
  | fuel + 1, l => do
    let l ← (skipGaps (l.cursor.rest.length + 1) l).dropStaleKeys
    let l := l.unindent (some l.column)
    if l.cursor.atEnd then l.finish
    else do
      let l ← l.next
      run fuel l

end Layout

/-- The tokens of a text. Every step takes a character, so its length is fuel enough. A mark of the byte
order may stand in front. -/
def tokens? (text : String) : Option (List Token) :=
  let chars := match text.toList with
    | '\ufeff' :: rest => rest
    | rest => rest
  if chars.all isAllowed then Layout.run (chars.length + 1) { cursor := { rest := chars } } else none

end Yaml
end TaskForest
