import TaskForest.Json.Basic
import TaskForest.Proofs.Text.Ascending

/-!
Objects as sets of fields. Fields that are put in one after the other stand where their keys belong, so the order
in which fields with different keys come does not matter. A value with all its fields put in order is the value
itself if its keys ascend.
-/

namespace TaskForest
namespace Json

variable {key : String} {known fields inOrder : List (String × Json)}

theorem orderedFields_iff : orderedFields fields = true ↔ ∀ f ∈ fields, f.2.ordered = true := by
  induction fields with
  | nil => simp [orderedFields]
  | cons f rest ih => simp [orderedFields, ih]

/-- Fields put in one after the other, each where its key belongs. -/
def insertFields (known fields : List (String × Json)) : List (String × Json) :=
  fields.foldl (fun known f => insertField f.1 f.2 known) known

theorem insertField_perm (value : Json) (new : key ∉ known.map (·.1)) :
    (insertField key value known).Perm ((key, value) :: known) := by
  induction known with
  | nil => exact .refl _
  | cons f rest ih =>
      rw [List.map_cons, List.mem_cons, not_or] at new
      obtain ⟨ne, behind⟩ := new
      rw [insertField, if_neg ne]
      split
      · exact .refl _
      · exact ((ih behind).cons f).trans (.swap _ _ _)

theorem insertFields_perm (distinct : ((known ++ fields).map (·.1)).Nodup) :
    (insertFields known fields).Perm (known ++ fields) := by
  induction fields generalizing known with
  | nil => exact .of_eq (List.append_nil known).symm
  | cons f rest ih =>
      have moved : (known ++ f :: rest).Perm (f :: known ++ rest) := List.perm_middle
      have apart := (moved.map fun f => f.1).nodup_iff.1 distinct
      have new : f.1 ∉ known.map (·.1) := by
        rw [List.cons_append, List.map_cons, List.nodup_cons, List.map_append] at apart
        exact fun old => apart.1 (List.mem_append_left _ old)
      have first : (insertField f.1 f.2 known ++ rest).Perm (f :: known ++ rest) :=
        (insertField_perm f.2 new).append_right rest
      exact (ih ((first.map fun f => f.1).nodup_iff.2 apart)).trans (first.trans moved.symm)

theorem insertFields_ascending (h : Ascending (known.map (·.1))) :
    Ascending ((insertFields known fields).map (·.1)) := by
  induction fields generalizing known with
  | nil => exact h
  | cons f rest ih =>
      refine ih ?_
      rw [map_fst_insertField]
      exact Ascending.insert_ascending h

/-- In whatever order fields come, they are put where their keys belong. -/
theorem insertFields_of_perm (perm : fields.Perm inOrder) (ascending : Ascending (inOrder.map (·.1))) :
    insertFields [] fields = inOrder := by
  have distinct : (fields.map (·.1)).Nodup := (perm.map _).nodup_iff.2 ascending.nodup
  have inserted : Ascending ((insertFields [] fields).map (·.1)) := insertFields_ascending .nil
  have same : (insertFields [] fields).Perm ([] ++ fields) := insertFields_perm distinct
  refine List.Perm.eq_of_pairwise (fun a b _ _ lt gt => ?_) (List.pairwise_map.1 inserted)
    (List.pairwise_map.1 ascending) (same.trans perm)
  exact absurd gt (String.lt_asymm lt)

mutual

/-- The value with the keys of its objects in order; of the fields of one key the last one stays. -/
def sorted : Json → Json
  | array items => array (sortedItems items)
  | object fields => object (insertFields [] (sortedFields fields))
  | j => j

def sortedItems : List Json → List Json
  | [] => []
  | item :: rest => item.sorted :: sortedItems rest

def sortedFields : List (String × Json) → List (String × Json)
  | [] => []
  | (key, value) :: rest => (key, value.sorted) :: sortedFields rest

end

mutual

theorem sorted_of_ordered : ∀ j : Json, j.ordered = true → j.sorted = j
  | null, _ | bool _, _ | number _, _ | string _, _ => rfl
  | array items, ordered => by rw [sorted, sortedItems_of_ordered items ordered]
  | object fields, ordered => by
    rw [Json.ordered, Bool.and_eq_true, decide_eq_true_eq] at ordered
    rw [sorted, sortedFields_of_ordered fields ordered.2, insertFields_of_perm .rfl ordered.1]

theorem sortedItems_of_ordered : ∀ items : List Json, orderedItems items = true → sortedItems items = items
  | [], _ => rfl
  | item :: rest, ordered => by
    rw [orderedItems, Bool.and_eq_true] at ordered
    rw [sortedItems, sorted_of_ordered item ordered.1, sortedItems_of_ordered rest ordered.2]

/-- The keys need not ascend. -/
theorem sortedFields_of_ordered : ∀ fields : List (String × Json), orderedFields fields = true →
    sortedFields fields = fields
  | [], _ => rfl
  | (key, value) :: rest, ordered => by
    rw [orderedFields, Bool.and_eq_true] at ordered
    rw [sortedFields, sorted_of_ordered value ordered.1, sortedFields_of_ordered rest ordered.2]

end

end Json
end TaskForest
