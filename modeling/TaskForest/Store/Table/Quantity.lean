import TaskForest.Number.Binary64

/-!
Cells of integer columns. Such a column turns a text that is a number into that number, an integer where
no digit is lost, and keeps any other text, and all bytes that are put in as such. Cells are ordered with
the numbers before the texts and these before other bytes.
-/

namespace TaskForest

inductive Quantity where
  | integer (value : Int64)
  | real (value : Binary64)
  /-- The bytes of a text, which need not be one in UTF-8. -/
  | text (bytes : List UInt8)
  | blob (bytes : List UInt8)
deriving DecidableEq, Repr

namespace Quantity

/-- The parts of a number text: sign, the digits with the point left out, the number of them behind the
point, the exponent, and whether there is neither point nor exponent. -/
structure Reading where
  negative : Bool
  digits : List Char
  places : Nat
  exponent : Int
  whole : Bool

def isBlank (c : Char) : Bool :=
  c = ' ' || c = '\t' || c = '\n' || c = '\x0b' || c = '\x0c' || c = '\r'

def cutSign : List Char → Bool × List Char
  | '-' :: rest => (true, rest)
  | '+' :: rest => (false, rest)
  | rest => (false, rest)

/-- The exponent at the front; a mark without digits is none. -/
def cutExponent : List Char → Option (Option Int × List Char)
  | c :: rest =>
    if c = 'e' ∨ c = 'E' then
      let (negative, rest) := cutSign rest
      let digits := rest.takeWhile Char.isDigit
      let power : Int := min (Nat.ofDigitChars 10 digits 0) 10000
      if digits.isEmpty then none
      else some (some (if negative then -power else power), rest.dropWhile Char.isDigit)
    else some (none, c :: rest)
  | [] => some (none, [])

/-- Reads a whole text as a number; blanks may stand around it. -/
def read? (text : List Char) : Option Reading := do
  let (negative, cs) := cutSign (text.dropWhile isBlank)
  let front := cs.takeWhile Char.isDigit
  let (point, behind, cs) : Bool × List Char × List Char :=
    match cs.dropWhile Char.isDigit with
    | '.' :: rest => (true, rest.takeWhile Char.isDigit, rest.dropWhile Char.isDigit)
    | rest => (false, [], rest)
  if front.isEmpty && behind.isEmpty then none
  let (exponent, cs) ← cutExponent cs
  if !cs.all isBlank then none
  pure ⟨negative, front ++ behind, behind.length, exponent.getD 0, !point && exponent.isNone⟩

def least : Int := Int64.minValue.toInt

def greatest : Int := Int64.maxValue.toInt

namespace Reading

def fraction (r : Reading) : Nat × Nat :=
  let digits := Nat.ofDigitChars 10 r.digits 0
  match r.exponent - r.places with
  | .ofNat k => (digits * Nat.pow 10 k, 1)
  | .negSucc k => (digits, Nat.pow 10 (k + 1))

def value (r : Reading) : Binary64 :=
  Binary64.ofRatio r.negative r.fraction.1 r.fraction.2

def integerValue (r : Reading) : Int :=
  let digits : Int := Nat.ofDigitChars 10 r.digits 0
  if r.negative then -digits else digits

end Reading

/-- The integer that a float is, the two ends of the range left out. -/
def integerOf? (x : Binary64) : Option Int64 :=
  let (num, den) := x.ratio
  let n : Int := if x.isNegative then -(num / den : Nat) else (num / den : Nat)
  if x.isFinite ∧ num % den = 0 ∧ least < n ∧ n < greatest then some (Int64.ofInt n) else none

def ofReading (r : Reading) : Quantity :=
  if r.whole ∧ least ≤ r.integerValue ∧ r.integerValue ≤ greatest then
    integer (Int64.ofInt r.integerValue)
  else
    match integerOf? r.value with
    | some n => integer n
    | none => real r.value

/-- What a column of integers holds once this text was put into it. -/
def ofText (s : String) : Quantity :=
  match read? s.toList with
  | some r => ofReading r
  | none => text s.toUTF8.data.toList

/-- A number as a signed fraction; all else has none. -/
def fraction? : Quantity → Option (Int × Nat)
  | integer n => some (n.toInt, 1)
  | real x => some (if x.isNegative then -x.ratio.1 else x.ratio.1, x.ratio.2)
  | text _ | blob _ => none

/-- Numbers, texts, other bytes. -/
def kind : Quantity → Nat
  | integer _ | real _ => 0
  | text _ => 1
  | blob _ => 2

/-- The order of cells, which for integers is that of their values. -/
def compare (a b : Quantity) : Ordering :=
  match a, b with
  | integer m, integer n => Ord.compare m n
  | text s, text t => Ord.compare s t
  | blob s, blob t => Ord.compare s t
  | a, b =>
    match a.fraction?, b.fraction? with
    | some (m, d), some (n, e) => Ord.compare (m * e) (n * d)
    | _, _ => Ord.compare a.kind b.kind

end Quantity
end TaskForest
