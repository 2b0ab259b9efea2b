import TaskForest.Yaml.Scalar

/-!
The tokens of a YAML text, and the reading of those that are words: anchors, aliases, tags and
directives.
-/

namespace TaskForest
namespace Yaml

/-- A tag as it is written: a handle that stands for the first part of the name, and the rest. The
handle is empty if the rest is the whole name. -/
structure Tag where
  handle : List Char
  suffix : List Char
deriving DecidableEq, Repr

inductive Token where
  | version (major minor : Nat)
  | tagHandle (handle name : List Char)
  | documentStart
  | documentEnd
  | blockSequenceStart
  | blockMappingStart
  | blockEnd
  | flowSequenceStart
  | flowSequenceEnd
  | flowMappingStart
  | flowMappingEnd
  | blockEntry
  | flowEntry
  | key
  | value
  | aliasOf (name : List Char)
  | anchor (name : List Char)
  | tag (tag : Tag)
  | scalar (style : Style) (text : List Char)
deriving DecidableEq, Repr

namespace Token

def isAfterAnchor (c : Char) : Bool :=
  c ∈ ['?', ':', ',', ']', '}', '%', '@', '\x60']

def anchorName (c : Cursor) : Option (List Char × Cursor) :=
  let (name, c) := (c.skip 1).takeWhile isWord
  if name.isEmpty || !(c.gapAt 0 || c.has 0 isAfterAnchor) then none else some (name, c)

/-- One exclamation mark, or a word between two of them; the second mark may be missing. -/
def handle (c : Cursor) : Option (List Char × Cursor) :=
  if c.sees '!' then
    let (word, c) := (c.skip 1).takeWhile isWord
    if c.sees '!' then some ('!' :: word ++ ['!'], c.skip 1) else some ('!' :: word, c)
  else none

def isNameChar (verbatim : Bool) (c : Char) : Bool :=
  isWord c || c ∈ [';', '/', '?', ':', '@', '&', '=', '+', '$', '.', '%', '!', '~', '*', '\'', '(', ')']
    || (verbatim && c ∈ [',', '[', ']'])

def octet (c : Cursor) : Option (Nat × Cursor) :=
  if c.sees '%' then (Scalar.hexNumber 2 (c.rest.drop 1)).map fun n => (n, c.skip 3) else none

/-- How many octets follow the first one of a character, and what the first one contributes. -/
def leadingOctet (n : Nat) : Option (Nat × Nat) :=
  if n < 0x80 then some (0, n)
  else if n < 0xC0 then none
  else if n < 0xE0 then some (1, n - 0xC0)
  else if n < 0xF0 then some (2, n - 0xE0)
  else if n < 0xF8 then some (3, n - 0xF0)
  else none

def trailingOctets : Nat → Nat → Cursor → Option (Nat × Cursor)
  | 0, total, c => some (total, c)
  | more + 1, total, c => do
    let (n, c) ← octet c
    if 0x80 ≤ n ∧ n < 0xC0 then trailingOctets more (total * 64 + (n - 0x80)) c else none

def escapedChar (c : Cursor) : Option (Char × Cursor) := do
  let (first, c) ← octet c
  let (more, start) ← leadingOctet first
  let (total, c) ← trailingOctets more start c
  pure (Char.ofNat total, c)

def nameChars (verbatim : Bool) : Nat → List Char → Cursor → Option (List Char × Cursor)
  | 0, name, c => some (name, c)
  | fuel + 1, name, c =>
    match c.peek with
    | none => some (name, c)
    | some x =>
      if x = '%' then
        match escapedChar c with
        | none => none
        | some (x, c) => nameChars verbatim fuel (name ++ [x]) c
      else if isNameChar verbatim x then nameChars verbatim fuel (name ++ [x]) (c.skip 1)
      else some (name, c)

/-- A name that goes on behind `start`, and is not empty with it. -/
def tagName (verbatim : Bool) (start : List Char) (c : Cursor) : Option (List Char × Cursor) := do
  let (name, c) ← nameChars verbatim (c.rest.length + 1) start c
  if name.isEmpty then none else pure (name, c)

/-- A tag: a whole name in angle brackets, or a handle and the rest of a name. -/
def readTag (c : Cursor) : Option (Tag × Cursor) :=
  if c.has 1 (· = '<') then do
    let (name, c) ← tagName true [] (c.skip 2)
    if c.sees '>' then pure (⟨[], name⟩, c.skip 1) else none
  else do
    let (word, c) ← handle c
    if 1 < word.length ∧ word.getLast? = some '!' then
      let (name, c) ← tagName false [] c
      pure (⟨word, name⟩, c)
    else
      let (name, c) ← nameChars false (c.rest.length + 1) (word.drop 1) c
      pure (if name.isEmpty then ⟨[], ['!']⟩ else ⟨['!'], name⟩, c)

/-- A tag is followed by a gap, or within brackets by a comma. -/
def tagToken (flow : Bool) (c : Cursor) : Option (Token × Cursor) := do
  let (t, c) ← readTag c
  if c.gapAt 0 || (flow && c.sees ',') then pure (tag t, c) else none

def shortNumber (c : Cursor) : Option (Nat × Cursor) :=
  let (digits, c) := c.takeWhile Char.isDigit
  if digits.isEmpty || 9 < digits.length then none else some (Nat.ofDigitChars 10 digits 0, c)

def versionToken (c : Cursor) : Option (Token × Cursor) := do
  let (major, c) ← shortNumber (c.skipWhile isBlank)
  if !c.sees '.' then none
  let (minor, c) ← shortNumber (c.skip 1)
  pure (version major minor, c)

def tagHandleToken (c : Cursor) : Option (Token × Cursor) := do
  let (word, c) ← handle (c.skipWhile isBlank)
  if word ≠ ['!'] ∧ (word.length = 1 ∨ word.getLast? ≠ some '!') then none
  if !c.has 0 isBlank then none
  let (name, c) ← tagName true [] (c.skipWhile isBlank)
  if !c.gapAt 0 then none
  pure (tagHandle word name, c)

def directive (c : Cursor) : Option (Token × Cursor) := do
  let (word, c) := (c.skip 1).takeWhile isWord
  if word.isEmpty || !c.gapAt 0 then none
  let (token, c) ←
    if word = "YAML".toList then versionToken c
    else if word = "TAG".toList then tagHandleToken c
    else none
  let c := (c.skipWhile isBlank).skipComment
  if c.lineEnds then pure (token, c.skipBreak) else none

end Token
end Yaml
end TaskForest
