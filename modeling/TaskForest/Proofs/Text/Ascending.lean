import TaskForest.Text.Ascending

/-!
Putting texts in order loses none and adds none.
-/

namespace TaskForest
namespace Ascending

variable {x : String} {keys sorted : List String}

theorem nodup (h : Ascending keys) : keys.Nodup :=
  List.Pairwise.imp String.ne_of_lt h

theorem mem_foldl_insert :
    x ∈ keys.foldl (fun sorted key => insert key sorted) sorted ↔ x ∈ keys ∨ x ∈ sorted := by
  induction keys generalizing sorted with
  | nil => simp
  | cons k rest ih => rw [List.foldl_cons, ih, mem_insert, List.mem_cons, or_left_comm, or_assoc]

theorem mem_ofList : x ∈ ofList keys ↔ x ∈ keys := by
  rw [ofList, mem_foldl_insert]
  simp

theorem insert_of_lt {key : String} (above : ∀ k ∈ sorted, k < key) : insert key sorted = sorted ++ [key] := by
  induction sorted with
  | nil => rfl
  | cons k rest ih =>
      have below : k < key := above k List.mem_cons_self
      rw [insert, if_neg (String.lt_asymm below), if_neg (String.ne_of_lt below).symm,
        ih fun x hx => above x (List.mem_cons_of_mem k hx)]
      rfl

theorem foldl_insert_of_ascending (h : Ascending (sorted ++ keys)) :
    keys.foldl (fun sorted key => insert key sorted) sorted = sorted ++ keys := by
  induction keys generalizing sorted with
  | nil => rw [List.append_nil]; rfl
  | cons k rest ih =>
      have above : ∀ x ∈ sorted, x < k := fun x hx =>
        (List.pairwise_append.1 h).2.2 x hx k List.mem_cons_self
      have moved : sorted ++ k :: rest = sorted ++ [k] ++ rest := by simp
      rw [List.foldl_cons, insert_of_lt above, moved]
      exact ih (moved ▸ h)

/-- Putting in order what is in order changes nothing. -/
theorem ofList_of_ascending (h : Ascending keys) : ofList keys = keys :=
  foldl_insert_of_ascending h

end Ascending
end TaskForest
