/-!
Quoted text. Written, only the quote, the backslash and the control characters below U+0020 are
escaped. Read, every escape of JSON is taken; an escape `\u` gives a 16-bit unit, and a pair of
surrogate units gives one character.
-/

namespace TaskForest
namespace Json

def hexDigit (n : Nat) : Char :=
  if n < 10 then Char.ofNat ('0'.toNat + n) else Char.ofNat ('a'.toNat + (n - 10))

def escapeChar (c : Char) : List Char :=
  if c = '"' then ['\\', '"']
  else if c = '\\' then ['\\', '\\']
  else if c = '\n' then ['\\', 'n']
  else if c = '\r' then ['\\', 'r']
  else if c = '\t' then ['\\', 't']
  else if c = '\x08' then ['\\', 'b']
  else if c = '\x0c' then ['\\', 'f']
  else if c.toNat < 0x20 then
    ['\\', 'u', '0', '0', hexDigit (c.toNat / 16), hexDigit (c.toNat % 16)]
  else [c]

def quote (s : String) : List Char :=
  '"' :: s.toList.flatMap escapeChar ++ ['"']

/-- Why a text is no JSON: a character that may not stand there, or an end that comes too early. -/
inductive Fault where
  | malformed
  | truncated
deriving DecidableEq, Repr

namespace Quoted

/-- What one position of a quoted text gives: a character, or a 16-bit unit. -/
inductive Unit16 where
  | char (c : Char)
  | escaped (unit : Nat)
deriving DecidableEq, Repr

def hexValue (c : Char) : Option Nat :=
  if c.isDigit then some (c.toNat - '0'.toNat)
  else if 'a' ≤ c ∧ c ≤ 'f' then some (c.toNat - 'a'.toNat + 10)
  else if 'A' ≤ c ∧ c ≤ 'F' then some (c.toNat - 'A'.toNat + 10)
  else none

def hexUnit (a b c d : Char) : Option Nat := do
  let a ← hexValue a
  let b ← hexValue b
  let c ← hexValue c
  let d ← hexValue d
  pure (((a * 16 + b) * 16 + c) * 16 + d)

def simpleEscape (c : Char) : Option Char :=
  match c with
  | '"' => some '"'
  | '\\' => some '\\'
  | '/' => some '/'
  | 'b' => some '\x08'
  | 'f' => some '\x0c'
  | 'n' => some '\n'
  | 'r' => some '\r'
  | 't' => some '\t'
  | _ => none

/-- Four octets have to follow `\u`, whatever they are, before the end of the text. -/
def shortHex (cs : List Char) : Fault :=
  if cs.foldl (fun size c => size + c.utf8Size) 0 < 4 then .truncated else .malformed

/-- The units up to the closing quote, with the text behind it or the fault met first. -/
def units : List Char → List Unit16 × Except Fault (List Char)
  | [] => ([], .error .truncated)
  | '"' :: rest => ([], .ok rest)
  | '\\' :: 'u' :: a :: b :: c :: d :: rest =>
    match hexUnit a b c d with
    | some u => let (us, stop) := units rest; (.escaped u :: us, stop)
    | none => ([], .error .malformed)
  | '\\' :: 'u' :: rest => ([], .error (shortHex rest))
  | '\\' :: c :: rest =>
    match simpleEscape c with
    | some c => let (us, stop) := units rest; (.char c :: us, stop)
    | none => ([], .error .malformed)
  | ['\\'] => ([], .error .truncated)
  | c :: rest =>
    if c.toNat < 0x20 then ([], .error .malformed)
    else let (us, stop) := units rest; (.char c :: us, stop)

def isLeading (u : Nat) : Bool := 0xD800 ≤ u && u < 0xDC00

def isTrailing (u : Nat) : Bool := 0xDC00 ≤ u && u < 0xE000

/-- The characters of the units; a surrogate without its partner is a fault, and a leading one at the
very end has the fault that ended the units. -/
def pair (stop : Fault) : List Unit16 → Except Fault (List Char)
  | [] => .ok []
  | .char c :: rest => (c :: ·) <$> pair stop rest
  | .escaped u :: rest =>
    if isTrailing u then .error .malformed
    else if isLeading u then
      match rest with
      | [] => .error stop
      | .escaped v :: rest =>
        if isTrailing v then
          (Char.ofNat (0x10000 + (u - 0xD800) * 0x400 + (v - 0xDC00)) :: ·) <$> pair stop rest
        else .error .malformed
      | .char _ :: _ => .error .malformed
    else (Char.ofNat u :: ·) <$> pair stop rest

end Quoted
end Json
end TaskForest
