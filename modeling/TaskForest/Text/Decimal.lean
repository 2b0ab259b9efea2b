/-!
Decimal numbers in texts that people write: ASCII digits with an optional sign, within a given range.
-/

namespace TaskForest
namespace Decimal

def digits? (cs : List Char) : Option Nat :=
  if cs.isEmpty || !cs.all Char.isDigit then none else some (Nat.ofDigitChars 10 cs 0)

/-- A natural number below 2 ^ 64; a plus sign may stand in front. -/
def size? (text : String) : Option Nat := do
  let n ←
    match text.toList with
    | '+' :: cs => digits? cs
    | cs => digits? cs
  if n < UInt64.size then pure n else none

def int32? (text : String) : Option Int32 := do
  let n : Int ←
    match text.toList with
    | '-' :: cs => (digits? cs).map fun n => -(n : Int)
    | '+' :: cs => (digits? cs).map Int.ofNat
    | cs => (digits? cs).map Int.ofNat
  if Int32.minValue.toInt ≤ n ∧ n ≤ Int32.maxValue.toInt then pure (Int32.ofInt n) else none

end Decimal
end TaskForest
