import TaskForest.Json.Numeral
import TaskForest.Json.Quoted

/-!
A text read as far as it is JSON. Decoding meets the parts of a draft in the order of the text, so a
fault counts only if nothing before it was already wrong, and a part that is skipped is held to the
grammar alone: numbers out of range and unpaired surrogates do no harm there.
-/

namespace TaskForest
namespace Json

/-- What stands at a place of the text, for messages. -/
inductive Found where
  | null
  | bool (value : Bool)
  | integer (value : Int)
  | float (value : Binary64)
  | string (value : String)
  | sequence
  | map
deriving DecidableEq, Repr

/-- How the items of an array or the fields of an object end. -/
inductive Stop where
  | closed
  /-- In place of a comma or the closing bracket. -/
  | fault (fault : Fault)
  | afterComma (fault : Fault)
  /-- In place of the first key. -/
  | strayKey (found : Except Fault Found)
deriving Repr

/-- The faults of a value that cannot be read, one for each way of taking it. -/
structure Flaw where
  /-- For a reader of any value. -/
  read : Fault
  /-- For one that skips the value, which may be good enough for that. -/
  skipped : Option Fault
  /-- For a reader of texts and objects, to whom the first character of anything else is wrong. -/
  named : Fault
deriving DecidableEq, Repr

inductive Draft where
  | null
  | bool (value : Bool)
  | number (value : Number)
  | string (value : String)
  | array (items : List Draft) (stop : Stop)
  /-- A key with an unpaired surrogate is `none`. -/
  | object (fields : List (Option String × Draft)) (stop : Stop)
  | flawed (flaw : Flaw)

instance : Inhabited Draft := ⟨.null⟩

def Stop.check : Stop → Except Fault Unit
  | closed => .ok ()
  | fault f => .error f
  | afterComma f => .error f
  | strayKey _ => .error .malformed

namespace Draft

def fault (f : Fault) : Draft :=
  flawed ⟨f, some f, f⟩

def found : Draft → Except Fault Found
  | null => .ok .null
  | bool b => .ok (.bool b)
  | number (.int n) => .ok (.integer n)
  | number (.float x) => .ok (.float x)
  | string s => .ok (.string s)
  | array _ _ => .ok .sequence
  | object _ _ => .ok .map
  | flawed flaw => .error flaw.read

mutual

def skip : Draft → Except Fault Unit
  | array items stop => do
    skipItems items
    stop.check
  | object fields stop => do
    skipFields fields
    stop.check
  | flawed flaw =>
    match flaw.skipped with
    | some f => .error f
    | none => .ok ()
  | null | bool _ | number _ | string _ => .ok ()

def skipItems : List Draft → Except Fault Unit
  | [] => .ok ()
  | item :: rest => do
    item.skip
    skipItems rest

def skipFields : List (Option String × Draft) → Except Fault Unit
  | [] => .ok ()
  | (_, value) :: rest => do
    value.skip
    skipFields rest

end

mutual

/-- The value, with the fields of its objects in order of their keys and the last of equal keys kept.
`room` is the number of arrays and objects that may still be opened. -/
def value (room : Nat) : Draft → Except Fault Json
  | null => .ok .null
  | bool b => .ok (.bool b)
  | number n => .ok (.number n)
  | string s => .ok (.string s)
  | array items stop =>
    match room with
    | 0 => .error .malformed
    | room + 1 => do
      let values ← valueItems room items
      stop.check
      pure (.array values)
  | object fields stop =>
    match room with
    | 0 => .error .malformed
    | room + 1 => do
      let values ← valueFields room [] fields
      stop.check
      pure (.object values)
  | flawed flaw => .error flaw.read

def valueItems (room : Nat) : List Draft → Except Fault (List Json)
  | [] => .ok []
  | item :: rest => do
    let value ← item.value room
    let values ← valueItems room rest
    pure (value :: values)

def valueFields (room : Nat) (known : List (String × Json)) :
    List (Option String × Draft) → Except Fault (List (String × Json))
  | [] => .ok known
  | (none, _) :: _ => .error .malformed
  | (some key, field) :: rest => do
    let value ← field.value room
    valueFields room (insertField key value known) rest

end

mutual

theorem ordered_of_value : ∀ (d : Draft) {room : Nat} {j : Json},
    d.value room = .ok j → j.ordered = true
  | null, _, _, h | bool _, _, _, h | number _, _, _, h | string _, _, _, h => by
    cases h; rfl
  | array items stop, 0, _, h | object fields stop, 0, _, h | flawed _, _, _, h => by
    simp [value] at h
  | array items stop, room + 1, j, h => by
    simp only [value, bind, Except.bind] at h
    split at h
    · cases h
    · next values hv =>
      split at h
      · cases h
      · cases h
        simpa [ordered] using ordered_of_valueItems items hv
  | object fields stop, room + 1, j, h => by
    simp only [value, bind, Except.bind] at h
    split at h
    · cases h
    · next values hv =>
      split at h
      · cases h
      · cases h
        exact ordered_of_valueFields fields hv rfl

theorem ordered_of_valueItems : ∀ (items : List Draft) {room : Nat} {js : List Json},
    valueItems room items = .ok js → orderedItems js = true
  | [], _, _, h => by cases h; rfl
  | item :: rest, room, js, h => by
    simp only [valueItems, bind, Except.bind] at h
    split at h
    · cases h
    · next v hv =>
      split at h
      · cases h
      · next vs hvs =>
        cases h
        simp [orderedItems, ordered_of_value item hv, ordered_of_valueItems rest hvs]

theorem ordered_of_valueFields : ∀ (fields : List (Option String × Draft)) {room : Nat}
    {known values : List (String × Json)}, valueFields room known fields = .ok values →
    (Json.object known).ordered = true → (Json.object values).ordered = true
  | [], _, _, _, h, hk => by cases h; exact hk
  | (none, _) :: _, _, _, _, h, _ => by simp [valueFields] at h
  | (some key, field) :: rest, room, known, values, h, hk => by
    simp only [valueFields, bind, Except.bind] at h
    split at h
    · cases h
    · next v hv =>
      exact ordered_of_valueFields rest h (ordered_insertField (ordered_of_value field hv) hk)

end

/-- The arrays and objects that may stand inside one another. -/
def maxNesting : Nat := 127

end Draft
end Json
end TaskForest
