/-!
Binary floating point with 64 bits. A finite value is ± m · 2 ^ q for the pair read off its bit
pattern. Arithmetic is exact on such pairs and rounds once, to nearest with ties to even.
-/

namespace TaskForest

structure Binary64 where
  bits : UInt64
deriving DecidableEq, Repr, Inhabited

namespace Binary64

def isNegative (x : Binary64) : Bool :=
  Nat.pow 2 63 ≤ x.bits.toNat

def exponentField (x : Binary64) : Nat :=
  x.bits.toNat / Nat.pow 2 52 % 2048

/-- The magnitude as `(m, q)`: a finite `x` is ± m · 2 ^ q. -/
def magnitude (x : Binary64) : Nat × Int :=
  let fraction := x.bits.toNat % Nat.pow 2 52
  if x.exponentField = 0 then (fraction, -1074)
  else (fraction + Nat.pow 2 52, (x.exponentField : Int) - 1075)

def isFinite (x : Binary64) : Bool :=
  x.exponentField < 2047

def isZero (x : Binary64) : Bool :=
  x.magnitude.1 = 0

def neg (x : Binary64) : Binary64 :=
  ⟨x.bits ^^^ 0x8000000000000000⟩

/-- The pattern whose magnitude field is `field`; fields past the largest finite one are infinite. -/
def ofField (negative : Bool) (field : Nat) : Binary64 :=
  let magnitude := min field 0x7FF0000000000000
  ⟨UInt64.ofNat (if negative then magnitude + Nat.pow 2 63 else magnitude)⟩

/-- The quotient to nearest, a half to the even neighbour. -/
def roundHalfEven (num den : Nat) : Nat :=
  let q := num / den
  let r := num % den
  if 2 * r < den then q
  else if den < 2 * r then q + 1
  else if q % 2 = 0 then q else q + 1

/-- `num · 2 ^ q / den` as a fraction of naturals. -/
def scale (num den : Nat) (q : Int) : Nat × Nat :=
  match q with
  | .ofNat k => (num * Nat.pow 2 k, den)
  | .negSucc k => (num, den * Nat.pow 2 (k + 1))

/-- The exponent `e` with 2 ^ e ≤ num / den < 2 ^ (e + 1), for positive arguments. -/
def binaryExponent (num den : Nat) : Int :=
  let guess : Int := (num.log2 : Int) - (den.log2 : Int)
  let (n, d) := scale num den (-guess)
  if n < d then guess - 1 else guess

def ofRatio (negative : Bool) (num den : Nat) : Binary64 :=
  if num = 0 ∨ den = 0 then ofField negative 0
  else
    let q := max (binaryExponent num den - 52) (-1074)
    let (n, d) := scale num den (-q)
    ofField negative ((q + 1074).toNat * Nat.pow 2 52 + roundHalfEven n d)

def ofNat (n : Nat) : Binary64 :=
  ofRatio false n 1

def ratio (x : Binary64) : Nat × Nat :=
  scale x.magnitude.1 1 x.magnitude.2

def mul (x y : Binary64) : Binary64 :=
  ofRatio (x.isNegative != y.isNegative) (x.ratio.1 * y.ratio.1) (x.ratio.2 * y.ratio.2)

def div (x y : Binary64) : Binary64 :=
  ofRatio (x.isNegative != y.isNegative) (x.ratio.1 * y.ratio.2) (x.ratio.2 * y.ratio.1)

end Binary64
end TaskForest
