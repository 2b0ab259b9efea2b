import TaskForest.Json.Draft

/-!
Text to draft. Blanks are the space, the tab, the line feed and the carriage return. Reading stops
where the grammar cannot be continued; `none` for the rest says so.
-/

namespace TaskForest
namespace Json
namespace Draft

def isBlank (c : Char) : Bool :=
  c = ' ' || c = '\n' || c = '\t' || c = '\r'

def skipBlank (cs : List Char) : List Char :=
  cs.dropWhile isBlank

/-- A draft and the text behind it, if reading can go on there. -/
abbrev Step := Draft × Option (List Char)

def stopWith (f : Fault) : Step :=
  (fault f, none)

def readWord (result : Draft) : List Char → List Char → Step
  | [], cs => (result, some cs)
  | _ :: _, [] => (flawed ⟨.truncated, some .truncated, .malformed⟩, none)
  | w :: word, c :: cs => if c = w then readWord result word cs else stopWith .malformed

def readNumeral (cs : List Char) : Step :=
  match Numeral.cut cs with
  | .whole numeral rest =>
    match numeral.value? with
    | some n => (number n, some rest)
    | none => (flawed ⟨.malformed, none, .malformed⟩, some rest)
  | .broken [] => (flawed ⟨.truncated, some .malformed, .malformed⟩, none)
  | .broken _ => stopWith .malformed

/-- A quoted text behind its opening quote: the text, or its fault for a reader and for a skipper. -/
def readQuoted (cs : List Char) : (Except (Fault × Option Fault) String) × Option (List Char) :=
  match Quoted.units cs with
  | (units, .ok rest) =>
    match Quoted.pair .malformed units with
    | .ok chars => (.ok (String.ofList chars), some rest)
    | .error f => (.error (f, none), some rest)
  | (units, .error stop) =>
    match Quoted.pair stop units with
    | .ok _ => (.error (stop, some stop), none)
    | .error f => (.error (f, some stop), none)

def readString (cs : List Char) : Step :=
  match readQuoted cs with
  | (.ok s, rest) => (string s, rest)
  | (.error (f, skipped), rest) => (flawed ⟨f, skipped, f⟩, rest)

mutual

/-- Each call reads at least one character or ends, so the length of the text is fuel enough. -/
def readValue : Nat → List Char → Step
  | 0, _ => stopWith .truncated
  | fuel + 1, cs =>
    match skipBlank cs with
    | [] => stopWith .truncated
    | c :: rest =>
      if c = '"' then readString rest
      else if c = '[' then
        let (items, stop, rest) := readItems fuel true rest
        (array items stop, rest)
      else if c = '{' then
        let (fields, stop, rest) := readFields fuel true rest
        (object fields stop, rest)
      else if c = 'n' then readWord null ['u', 'l', 'l'] rest
      else if c = 't' then readWord (bool true) ['r', 'u', 'e'] rest
      else if c = 'f' then readWord (bool false) ['a', 'l', 's', 'e'] rest
      else if c = '-' ∨ c.isDigit then readNumeral (c :: rest)
      else stopWith .malformed

/-- The items of an array; `first` says that none was read yet. -/
def readItems : Nat → Bool → List Char → List Draft × Stop × Option (List Char)
  | 0, _, _ => ([], .fault .truncated, none)
  | fuel + 1, first, cs =>
    match skipBlank cs with
    | [] => ([], .fault .truncated, none)
    | c :: rest =>
      if c = ']' then ([], .closed, some rest)
      else if first then readItem fuel (c :: rest)
      else if c = ',' then
        match skipBlank rest with
        | [] => ([], .afterComma .truncated, none)
        | c :: rest =>
          if c = ']' then ([], .afterComma .malformed, none) else readItem fuel (c :: rest)
      else ([], .fault .malformed, none)

def readItem : Nat → List Char → List Draft × Stop × Option (List Char)
  | 0, _ => ([], .fault .truncated, none)
  | fuel + 1, cs =>
    match readValue fuel cs with
    | (item, none) => ([item], .fault .malformed, none)
    | (item, some rest) =>
      let (items, stop, rest) := readItems fuel false rest
      (item :: items, stop, rest)

def readFields : Nat → Bool → List Char →
    List (Option String × Draft) × Stop × Option (List Char)
  | 0, _, _ => ([], .fault .truncated, none)
  | fuel + 1, first, cs =>
    match skipBlank cs with
    | [] => ([], .fault .truncated, none)
    | c :: rest =>
      if c = '}' then ([], .closed, some rest)
      else if first then
        if c = '"' then readField fuel .fault rest
        else ([], .strayKey (readValue fuel (c :: rest)).1.found, none)
      else if c = ',' then
        match skipBlank rest with
        | [] => ([], .afterComma .truncated, none)
        | c :: rest =>
          if c = '"' then readField fuel .afterComma rest
          else ([], .afterComma .malformed, none)
      else ([], .fault .malformed, none)

def readField : Nat → (Fault → Stop) → List Char →
    List (Option String × Draft) × Stop × Option (List Char)
  | 0, _, _ => ([], .fault .truncated, none)
  | fuel + 1, stopAt, cs =>
    match readQuoted cs with
    | (.error (f, some skipped), _) =>
      if f = skipped then ([], stopAt f, none) else ([(none, fault skipped)], .fault skipped, none)
    | (.error (_, none), rest) => readFieldValue fuel none (rest.getD [])
    | (.ok key, rest) => readFieldValue fuel (some key) (rest.getD [])

def readFieldValue : Nat → Option String → List Char →
    List (Option String × Draft) × Stop × Option (List Char)
  | 0, _, _ => ([], .fault .truncated, none)
  | fuel + 1, key, cs =>
    match skipBlank cs with
    | [] => ([(key, fault .truncated)], .fault .truncated, none)
    | c :: rest =>
      if c = ':' then
        match readValue fuel rest with
        | (value, none) => ([(key, value)], .fault .malformed, none)
        | (value, some rest) =>
          let (fields, stop, rest) := readFields fuel false rest
          ((key, value) :: fields, stop, rest)
      else ([(key, fault .malformed)], .fault .malformed, none)

end

/-- A value that begins a text, and the fault behind it: nothing but blanks may follow. -/
structure Document where
  root : Draft
  trailing : Except Fault Unit

def read (text : String) : Document :=
  let cs := text.toList
  match readValue (4 * cs.length + 4) cs with
  | (root, some rest) =>
    ⟨root, if (skipBlank rest).isEmpty then .ok () else .error .malformed⟩
  | (root, none) => ⟨root, .ok ()⟩

end Draft

def parse (text : String) : Except Fault Json := do
  let document := Draft.read text
  let value ← document.root.value Draft.maxNesting
  document.trailing
  pure value

end Json
end TaskForest
