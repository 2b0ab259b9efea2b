import TaskForest.Number.Binary64

/-!
The shortest decimal that reads back. The reals that round to `m · 2 ^ q` form an interval, closed
exactly when `m` is even. For one digit, two digits and so on, the two neighbours of the value on that
decimal grid are tested: the first grid with a hit wins, and of two hits the nearer one.
-/

namespace TaskForest
namespace Binary64

/-- A decimal `digits · 10 ^ exponent`. -/
structure Decimal where
  digits : Nat
  exponent : Int
deriving DecidableEq, Repr

/-- The interval of a magnitude in quarter units `2 ^ (q - 2)`: lower end, value, upper end. -/
def quarters (m : Nat) (q : Int) : Nat × Nat × Nat :=
  (if m = Nat.pow 2 52 ∧ -1074 < q then 4 * m - 1 else 4 * m - 2, 4 * m, 4 * m + 2)

/-- `num / den` in units of `10 ^ p`, as a fraction of naturals. -/
def unitsOf (num den : Nat) (p : Int) : Nat × Nat :=
  match p with
  | .ofNat k => (num, den * Nat.pow 10 k)
  | .negSucc k => (num * Nat.pow 10 (k + 1), den)

/-- The exponent of the leading decimal digit of `num / den`, looked for downwards from `start`. -/
def leadingExponent (num den : Nat) (start : Int) : Nat → Int
  | 0 => start
  | fuel + 1 =>
    let (n, d) := unitsOf num den start
    if d ≤ n then start else leadingExponent num den (start - 1) fuel

def stripZeros (fuel digits : Nat) (exponent : Int) : Decimal :=
  match fuel with
  | 0 => ⟨digits, exponent⟩
  | fuel + 1 =>
    if digits ≠ 0 ∧ digits % 10 = 0 then stripZeros fuel (digits / 10) (exponent + 1)
    else ⟨digits, exponent⟩

/-- The hit on the grid of `10 ^ p`, if either neighbour of the value rounds back to it. -/
def gridHit (low value high den : Nat) (closed : Bool) (p : Int) : Option Nat :=
  let (vn, vd) := unitsOf value den p
  let d := vn / vd
  let inside (k : Nat) : Bool :=
    let (ln, ld) := unitsOf low den p
    let (hn, hd) := unitsOf high den p
    if closed then ln ≤ k * ld ∧ k * hd ≤ hn else ln < k * ld ∧ k * hd < hn
  let below := 0 < d && inside d
  let above := inside (d + 1)
  if below && above then
    let r := 2 * (vn % vd)
    some (if r < vd then d else if vd < r then d + 1 else if d % 2 = 0 then d else d + 1)
  else if below then some d
  else if above then some (d + 1)
  else none

def searchGrids (low value high den : Nat) (closed : Bool) (p : Int) : Nat → Decimal
  | 0 => ⟨0, 0⟩
  | fuel + 1 =>
    match gridHit low value high den closed p with
    | some d => stripZeros 20 d p
    | none => searchGrids low value high den closed (p - 1) fuel

/-- The shortest decimal of a finite magnitude; `0` for zero. -/
def shortest (x : Binary64) : Decimal :=
  let (m, q) := x.magnitude
  if m = 0 then ⟨0, 0⟩
  else
    let (low, value, high) := quarters m q
    let unit := scale 1 1 (q - 2)
    let (low, value, high) := (low * unit.1, value * unit.1, high * unit.1)
    let den := unit.2
    let lead := leadingExponent value den 309 700
    searchGrids low value high den (m % 2 = 0) lead 18

/-- Where positional notation ends and how an exponent is written. -/
structure Style where
  leastExponent : Int
  greatestExponent : Int
  exponentDigits : Nat

def padLeft (width : Nat) (digits : List Char) : List Char :=
  List.replicate (width - digits.length) '0' ++ digits

/-- Digits with a point and at least one digit behind it, or one digit before the point, `e`, the sign
and the exponent. -/
def Style.render (style : Style) (negative : Bool) (d : Decimal) : List Char :=
  let digits := Nat.toDigits 10 d.digits
  let count := digits.length
  let lead : Int := if d.digits = 0 then 0 else d.exponent + (count - 1 : Nat)
  let sign := if negative then ['-'] else []
  if style.leastExponent ≤ lead ∧ lead ≤ style.greatestExponent then
    match lead with
    | .ofNat e =>
      if count ≤ e + 1 then
        sign ++ digits ++ List.replicate (e + 1 - count) '0' ++ ['.', '0']
      else sign ++ digits.take (e + 1) ++ ['.'] ++ digits.drop (e + 1)
    | .negSucc k => sign ++ ['0', '.'] ++ List.replicate k '0' ++ digits
  else
    let mantissa :=
      match digits with
      | [] => []
      | [c] => [c]
      | c :: rest => c :: '.' :: rest
    let mark := if lead < 0 then ['e', '-'] else ['e', '+']
    sign ++ mantissa ++ mark ++ padLeft style.exponentDigits (Nat.toDigits 10 lead.natAbs)

end Binary64
end TaskForest
