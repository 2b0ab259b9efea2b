import TaskForest.Json.Printer
import TaskForest.Json.Reader
import TaskForest.Text.Visible

/-!
Decoding: the typed values that a draft can hold, and why it does not hold one. The text may be no JSON
at that place, or the JSON may be of another type, out of range, incomplete or repetitive.
-/

namespace TaskForest
namespace Json

inductive Expected where
  | string
  | int64
  | int32
  | size
  | sequence
  | map
  | unit
  | record (name : String)
  | variantName
  | stringOrMap
  | singleKeyMap
deriving DecidableEq, Repr

/-- Why JSON that is well formed is not the wanted value. -/
inductive DataError where
  | invalidType (found : Found) (expected : Expected)
  | invalidValue (found : Found) (expected : Expected)
  | invalidLength (length : Nat) (name : String) (fieldCount : Nat)
  | missingField (name : String)
  | duplicateField (name : String)
  | unknownVariant (name : String) (known : List String)
deriving DecidableEq, Repr

inductive DecodeError where
  | fault (fault : Fault)
  | data (error : DataError)
deriving DecidableEq, Repr

def Expected.text : Expected → String
  | string => "a string"
  | int64 => "i64"
  | int32 => "i32"
  | size => "usize"
  | sequence => "a sequence"
  | map => "a map"
  | unit => "unit"
  | record name => "struct " ++ name
  | variantName => "variant identifier"
  | stringOrMap => "string or map"
  | singleKeyMap => "map with a single key"

def ticked (text : List Char) : String :=
  String.ofList ('`' :: text ++ ['`'])

def Found.text : Found → String
  | null => "null"
  | bool b => "boolean " ++ ticked (boolText b)
  | integer n => "integer " ++ ticked (integerText n)
  | float x => "floating point " ++ ticked (floatText x)
  | string s => "string " ++ Visible.quote s
  | sequence => "sequence"
  | map => "map"

def DataError.message : DataError → String
  | invalidType found expected =>
    "invalid type: " ++ found.text ++ ", expected " ++ expected.text
  | invalidValue found expected =>
    "invalid value: " ++ found.text ++ ", expected " ++ expected.text
  | invalidLength length name count =>
    "invalid length " ++ toString length ++ ", expected struct " ++ name ++ " with "
      ++ toString count ++ " elements"
  | missingField name => "missing field " ++ ticked name.toList
  | duplicateField name => "duplicate field " ++ ticked name.toList
  | unknownVariant name known =>
    "unknown variant " ++ ticked name.toList ++ ", expected one of "
      ++ ", ".intercalate (known.map fun k => ticked k.toList)

abbrev Decoded := Except DecodeError

def Decoded.data {α : Type} (e : DataError) : Decoded α :=
  .error (.data e)

def Decoded.ofText {α : Type} : Except Fault α → Decoded α
  | .ok a => .ok a
  | .error f => .error (.fault f)

namespace Draft

def mismatch {α : Type} (d : Draft) (expected : Expected) : Decoded α :=
  match d.found with
  | .ok found => .data (.invalidType found expected)
  | .error f => .error (.fault f)

def asString : Draft → Decoded String
  | string s => .ok s
  | d => d.mismatch .string

def asInteger (expected : Expected) (least greatest : Int) : Draft → Decoded Int
  | number (.int n) =>
    if least ≤ n ∧ n ≤ greatest then .ok n
    else .data (.invalidValue (.integer n) expected)
  | d => d.mismatch expected

def asInt64 (d : Draft) : Decoded Int64 :=
  Int64.ofInt <$> d.asInteger .int64 Int64.minValue.toInt Int64.maxValue.toInt

def asInt32 (d : Draft) : Decoded Int32 :=
  Int32.ofInt <$> d.asInteger .int32 Int32.minValue.toInt Int32.maxValue.toInt

def asSize (d : Draft) : Decoded Nat :=
  Int.toNat <$> d.asInteger .size 0 (UInt64.size - 1)

/-- `null` stands for an absent value. -/
def asOption {α : Type} (decode : Draft → Decoded α) : Draft → Decoded (Option α)
  | null => .ok none
  | d => some <$> decode d

/-- An array, by the decoder of an item, which is told how many arrays and objects may still be opened
inside. -/
def asList {α : Type} (item : Nat → Draft → Decoded α) (room : Nat) : Draft → Decoded (List α)
  | array items stop =>
    match room with
    | 0 => .error (.fault .malformed)
    | room + 1 => do
      let values ← items.mapM (item room)
      .ofText stop.check
      pure values
  | d => d.mismatch .sequence

def asStrings : (room : Nat) → Draft → Decoded (List String) :=
  asList fun _ => asString

/-- Takes the fields of an object one by one, in the order of the text. -/
def foldFields {σ : Type} (take : σ → String → Draft → Decoded σ) (start : σ)
    (fields : List (Option String × Draft)) (stop : Stop) : Decoded σ := do
  let last ← fields.foldlM (fun state field =>
    match field with
    | (some key, value) => take state key value
    | (none, _) => .error (.fault .malformed)) start
  .ofText stop.check
  pure last

def once {α : Type} (name : String) (known : Option α) (decoded : Decoded α) :
    Decoded (Option α) :=
  match known with
  | some _ => .data (.duplicateField name)
  | none => some <$> decoded

def required {α : Type} (name : String) : Option α → Decoded α
  | some a => .ok a
  | none => .data (.missingField name)

/-- What follows the last item of a list of fixed length: a comma is as wrong as an item. -/
def endOfFixed {α : Type} : List α → Stop → Decoded Unit
  | _ :: _, _ => .error (.fault .malformed)
  | [], .afterComma _ => .error (.fault .malformed)
  | [], stop => .ofText stop.check

end Draft

/-- A whole text decoded: nothing but blanks may follow the value. -/
def decode {α : Type} (decoder : Draft → Decoded α) (text : String) : Decoded α := do
  let document := Draft.read text
  let value ← decoder document.root
  .ofText document.trailing
  pure value

end Json
end TaskForest
