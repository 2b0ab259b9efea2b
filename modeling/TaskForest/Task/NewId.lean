/-!
Ids for new tasks: 128 bits in hexadecimal digits, five groups of them. The leading 48 bits are the time,
so a later id follows an earlier one in the order of texts; the others are random, but for the six that
mark this layout.
-/

namespace TaskForest
namespace NewId

/-- The octets of a number, the last `n` of them. -/
def octets (n value : Nat) : List Nat :=
  (List.range n).reverse.map fun i => value / Nat.pow 256 i % 256

/-- Four bits of the first of the random octets and two of the third give way to the marks. -/
def mark (random : List Nat) : List Nat :=
  random.mapIdx fun i octet =>
    if i = 0 then 0x70 + octet % 0x10 else if i = 2 then 0x80 + octet % 0x40 else octet

def hexDigits (octet : Nat) : List Char :=
  [Nat.digitChar (octet / 16), Nat.digitChar (octet % 16)]

def grouped : List Nat → List Nat → List (List Char)
  | [], _ => []
  | size :: sizes, octets =>
    (octets.take size).flatMap hexDigits :: grouped sizes (octets.drop size)

/-- The id of a time in milliseconds and ten random octets. -/
def ofTime (time : Nat) (random : List Nat) : String :=
  "-".intercalate
    ((grouped [4, 2, 2, 2, 6] (octets 6 time ++ mark random)).map String.ofList)

end NewId
end TaskForest
