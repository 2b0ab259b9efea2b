/-!
Lists of texts in strictly ascending order, code point by code point. Insertion keeps the order and
drops a repetition, so a set of texts has one such list.
-/

namespace TaskForest

/-- Strictly ascending, hence without repetition. -/
def Ascending (keys : List String) : Prop :=
  keys.Pairwise (· < ·)

namespace Ascending

instance (keys : List String) : Decidable (Ascending keys) :=
  inferInstanceAs (Decidable (keys.Pairwise (· < ·)))

theorem nil : Ascending [] :=
  List.Pairwise.nil

def insert (key : String) : List String → List String
  | [] => [key]
  | k :: rest =>
    if key < k then key :: k :: rest
    else if key = k then k :: rest
    else k :: insert key rest

theorem lt_of_not_lt {a b : String} (h : ¬ a < b) (ne : a ≠ b) : b < a :=
  Std.lt_of_le_of_ne (Std.not_lt.mp h) (Ne.symm ne)

theorem mem_insert {x key : String} {keys : List String} :
    x ∈ insert key keys ↔ x = key ∨ x ∈ keys := by
  induction keys with
  | nil => simp [insert]
  | cons k rest ih =>
    simp only [insert]
    split
    · simp
    · split
      · next h => simp [h]
      · simp [ih, or_left_comm]

theorem insert_ascending {key : String} {keys : List String} (h : Ascending keys) :
    Ascending (insert key keys) := by
  induction keys with
  | nil => simp [insert, Ascending]
  | cons k rest ih =>
    obtain ⟨above, tail⟩ := List.pairwise_cons.1 h
    simp only [insert]
    split
    · next lt =>
      refine List.pairwise_cons.2 ⟨fun x hx => ?_, h⟩
      rcases List.mem_cons.1 hx with rfl | hx
      · exact lt
      · exact String.lt_trans lt (above x hx)
    · split
      · exact h
      · next nlt ne =>
        refine List.pairwise_cons.2 ⟨fun x hx => ?_, ih tail⟩
        rcases mem_insert.1 hx with rfl | hx
        · exact lt_of_not_lt nlt ne
        · exact above x hx

def ofList (keys : List String) : List String :=
  keys.foldl (fun sorted key => insert key sorted) []

theorem foldl_insert_ascending (keys : List String) {sorted : List String} (h : Ascending sorted) :
    Ascending (keys.foldl (fun sorted key => insert key sorted) sorted) := by
  induction keys generalizing sorted with
  | nil => exact h
  | cons k rest ih => exact ih (insert_ascending h)

theorem ofList_ascending (keys : List String) : Ascending (ofList keys) :=
  foldl_insert_ascending keys nil

end Ascending
end TaskForest
