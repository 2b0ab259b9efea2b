import TaskForest.Json.Basic
import TaskForest.Number.Shortest

/-!
Number text. The written form of an integer is its digits; a float is written by the shortest decimal
that reads back. A numeral is read in two steps: its parts are cut off by the grammar alone, then the
parts are valued. The digits are gathered in 64 bits; digits that no longer fit only shift the point or
are dropped, and the power of ten is applied to the rounded significand.
-/

namespace TaskForest
namespace Json

/-- Positional from `0.0001` up to sixteen digits before the point, exponents with a sign and at least
two digits. -/
def floatStyle : Binary64.Style := ⟨-4, 15, 2⟩

def integerText : Int → List Char
  | .ofNat n => Nat.toDigits 10 n
  | .negSucc n => '-' :: Nat.toDigits 10 (n + 1)

def floatText (x : Binary64) : List Char :=
  if x.isFinite then floatStyle.render x.isNegative x.shortest else "null".toList

def Number.text : Number → List Char
  | .int value => integerText value
  | .float value => floatText value

structure Numeral where
  negative : Bool
  whole : List Char
  fraction : Option (List Char)
  exponent : Option (Bool × List Char)
deriving DecidableEq, Repr

namespace Numeral

def digits (cs : List Char) : List Char × List Char :=
  (cs.takeWhile Char.isDigit, cs.dropWhile Char.isDigit)

/-- The text at which a numeral breaks off: the parts so far make none. -/
inductive Cut where
  | whole (numeral : Numeral) (rest : List Char)
  | broken (rest : List Char)

def cutExponent (build : Option (Bool × List Char) → Numeral) : List Char → Cut
  | c :: rest =>
    if c = 'e' ∨ c = 'E' then
      let (down, rest) : Bool × List Char :=
        match rest with
        | '+' :: rest => (false, rest)
        | '-' :: rest => (true, rest)
        | rest => (false, rest)
      match digits rest with
      | ([], rest) => .broken rest
      | (ds, rest) => .whole (build (some (down, ds))) rest
    else .whole (build none) (c :: rest)
  | [] => .whole (build none) []

def cutFraction (negative : Bool) (whole : List Char) : List Char → Cut
  | '.' :: rest =>
    match digits rest with
    | ([], rest) => .broken rest
    | (ds, rest) => cutExponent (fun e => ⟨negative, whole, some ds, e⟩) rest
  | rest => cutExponent (fun e => ⟨negative, whole, none, e⟩) rest

/-- A leading zero stands alone before the point. -/
def cutWhole (negative : Bool) (cs : List Char) : Cut :=
  match cs with
  | '0' :: rest =>
    match rest with
    | c :: _ => if c.isDigit then .broken rest else cutFraction negative ['0'] rest
    | [] => cutFraction negative ['0'] []
  | cs =>
    match digits cs with
    | ([], rest) => .broken rest
    | (ds, rest) => cutFraction negative ds rest

def cut : List Char → Cut
  | '-' :: rest => cutWhole true rest
  | cs => cutWhole false cs

/-- Gathers digits as long as the significand stays within 64 bits; the rest is returned. -/
def gather (significand : Nat) : List Char → Nat × List Char
  | [] => (significand, [])
  | c :: rest =>
    let next := significand * 10 + (c.toNat - '0'.toNat)
    if next < UInt64.size then gather next rest else (significand, c :: rest)

/-- Divides by 10 ^ 308 until the rest of the power fits one division, at most `steps` times. -/
def scaleDown (f : Binary64) (power : Nat) : Nat → Binary64
  | 0 => f.div (Binary64.ofNat (Nat.pow 10 power))
  | steps + 1 =>
    if power ≤ 308 then f.div (Binary64.ofNat (Nat.pow 10 power))
    else if f.isZero then f
    else scaleDown (f.div (Binary64.ofNat (Nat.pow 10 308))) (power - 308) steps

/-- The significand times a power of ten; `none` beyond the largest float. -/
def scaled (significand : Nat) (power : Int) : Option Binary64 :=
  let f := Binary64.ofNat significand
  match power with
  | .ofNat p =>
    if 308 < p then if f.isZero then some f else none
    else
      let product := f.mul (Binary64.ofNat (Nat.pow 10 p))
      if product.isFinite then some product else none
  | .negSucc p => some (scaleDown f (p + 1) (p / 308))

/-- An exponent past 31 bits leaves zero, or no float at all. -/
def float? (significand : Nat) (power : Int) : Option (Bool × List Char) → Option Binary64
  | none => scaled significand power
  | some (down, ds) =>
    let e := Nat.ofDigitChars 10 ds 0
    if Nat.pow 2 31 ≤ e then
      if significand = 0 ∨ down then some (Binary64.ofNat 0) else none
    else scaled significand (if down then power - e else power + e)

/-- The number that the parts stand for; `none` if it is too large for a float. -/
def value? (n : Numeral) : Option Number :=
  let signed (f : Option Binary64) : Option Number :=
    f.map fun f => .float (if n.negative then f.neg else f)
  let (significand, excess) := gather 0 n.whole
  match excess, n.fraction, n.exponent with
  | [], none, none =>
    if n.negative then
      if 0 < significand ∧ significand ≤ Nat.pow 2 63 then some (.int (-(significand : Int)))
      else signed (some (Binary64.ofNat significand))
    else some (.int significand)
  | excess, none, exponent => signed (float? significand excess.length exponent)
  | excess, some fraction, exponent =>
    let (significand, dropped) := gather significand fraction
    let places : Int := fraction.length - dropped.length
    signed (float? significand (excess.length - places) exponent)

end Numeral
end Json
end TaskForest
