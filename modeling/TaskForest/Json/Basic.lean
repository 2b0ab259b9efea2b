import TaskForest.Number.Binary64
import TaskForest.Text.Ascending

/-!
JSON values. A number is an integer of the 64-bit ranges or a binary float. An object is a list of
fields in written order; it is ordered when its keys ascend, at every depth, which is the one form that
a set of fields takes as a value.
-/

namespace TaskForest
namespace Json

inductive Number where
  | int (value : Int)
  | float (value : Binary64)
deriving DecidableEq, Repr

end Json

inductive Json where
  | null
  | bool (value : Bool)
  | number (value : Json.Number)
  | string (value : String)
  | array (items : List Json)
  | object (fields : List (String × Json))

namespace Json

instance : Inhabited Json := ⟨null⟩

mutual

def same : Json → Json → Bool
  | null, null => true
  | bool a, bool b => a = b
  | number a, number b => a = b
  | string a, string b => a = b
  | array a, array b => sameItems a b
  | object a, object b => sameFields a b
  | _, _ => false

def sameItems : List Json → List Json → Bool
  | [], [] => true
  | a :: as, b :: bs => same a b && sameItems as bs
  | _, _ => false

def sameFields : List (String × Json) → List (String × Json) → Bool
  | [], [] => true
  | (k, a) :: as, (l, b) :: bs => k = l && same a b && sameFields as bs
  | _, _ => false

end

mutual

theorem same_iff : ∀ a b : Json, same a b = true ↔ a = b
  | null, b => by cases b <;> simp [same]
  | bool _, b => by cases b <;> simp [same]
  | number _, b => by cases b <;> simp [same]
  | string _, b => by cases b <;> simp [same]
  | array xs, b => by cases b <;> simp [same, sameItems_iff xs]
  | object fs, b => by cases b <;> simp [same, sameFields_iff fs]

theorem sameItems_iff : ∀ as bs : List Json, sameItems as bs = true ↔ as = bs
  | [], bs => by cases bs <;> simp [sameItems]
  | a :: as, bs => by cases bs <;> simp [sameItems, same_iff a, sameItems_iff as]

theorem sameFields_iff : ∀ as bs : List (String × Json), sameFields as bs = true ↔ as = bs
  | [], bs => by cases bs <;> simp [sameFields]
  | (k, a) :: as, bs => by
    cases bs with
    | nil => simp [sameFields]
    | cons b bs => simp [sameFields, same_iff a, sameFields_iff as, Prod.ext_iff, and_assoc]

end

instance : DecidableEq Json := fun a b => decidable_of_iff _ (same_iff a b)

mutual

def ordered : Json → Bool
  | array items => orderedItems items
  | object fields => decide (Ascending (fields.map (·.1))) && orderedFields fields
  | _ => true

def orderedItems : List Json → Bool
  | [] => true
  | item :: rest => item.ordered && orderedItems rest

def orderedFields : List (String × Json) → Bool
  | [] => true
  | (_, value) :: rest => value.ordered && orderedFields rest

end

/-- The field is put where its key belongs; a field of that key is replaced. -/
def insertField (key : String) (value : Json) : List (String × Json) → List (String × Json)
  | [] => [(key, value)]
  | (k, v) :: rest =>
    if key < k then (key, value) :: (k, v) :: rest
    else if key = k then (key, value) :: rest
    else (k, v) :: insertField key value rest

theorem map_fst_insertField (key : String) (value : Json) (fields : List (String × Json)) :
    (insertField key value fields).map (·.1) = Ascending.insert key (fields.map (·.1)) := by
  induction fields with
  | nil => rfl
  | cons f rest ih =>
    simp only [insertField, List.map_cons, Ascending.insert]
    split
    · rfl
    · split
      · next h => simp [h]
      · simp [ih]

theorem orderedFields_insertField {key : String} {value : Json} {fields : List (String × Json)}
    (hv : value.ordered = true) (hf : orderedFields fields = true) :
    orderedFields (insertField key value fields) = true := by
  induction fields with
  | nil => simp [insertField, orderedFields, hv]
  | cons f rest ih =>
    obtain ⟨k, v⟩ := f
    simp only [orderedFields, Bool.and_eq_true] at hf
    simp only [insertField]
    split
    · simp [orderedFields, hv, hf]
    · split
      · simp [orderedFields, hv, hf]
      · simp [orderedFields, hf, ih hf.2]

theorem ordered_insertField {key : String} {value : Json} {fields : List (String × Json)}
    (hv : value.ordered = true) (hf : (object fields).ordered = true) :
    (object (insertField key value fields)).ordered = true := by
  simp only [ordered, Bool.and_eq_true, decide_eq_true_eq] at hf ⊢
  rw [map_fst_insertField]
  exact ⟨Ascending.insert_ascending hf.1, orderedFields_insertField hv hf.2⟩

def field? (key : String) : Json → Option Json
  | object fields => fields.lookup key
  | _ => none

end Json
end TaskForest
