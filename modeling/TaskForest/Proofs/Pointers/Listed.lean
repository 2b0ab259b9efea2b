import TaskForest.Proofs.Pointers.Change

/-!
The pointers of a list of records, each of which has an id and may name a parent. The records in memory and
the rows of a table are such lists, and the ways in which these change are changes of the pointers.
-/

namespace TaskForest
namespace Pointers

variable {α : Type} {id : α → String} {parent : α → Option String} {l : List α} {x p : String}
  {ids : List String} {a : α}

/-- Of records with the same id the first one counts. -/
def listed (id : α → String) (parent : α → Option String) (l : List α) : Pointers :=
  ⟨fun x => (l.find? fun a => id a = x).map parent⟩

theorem find?_id_eq_some (distinct : (l.map id).Nodup) :
    (l.find? fun b => id b = x) = some a ↔ a ∈ l ∧ id a = x := by
  constructor
  · intro h
    exact ⟨List.mem_of_find?_eq_some h, by simpa using List.find?_some h⟩
  · intro got
    obtain ⟨ha, same⟩ := got
    subst same
    cases h : l.find? fun b => id b = id a with
    | none =>
        have apart := List.find?_eq_none.1 h a ha
        simp at apart
    | some b =>
        have same : id b = id a := by simpa using List.find?_some h
        rw [List.inj_on_of_nodup_map distinct (List.mem_of_find?_eq_some h) ha same]

theorem find?_id_eq_none : (l.find? fun b => id b = x) = none ↔ x ∉ l.map id := by
  simp [List.find?_eq_none]

theorem listed_stored : (listed id parent l).Stored x ↔ x ∈ l.map id := by
  rw [Stored, listed, ne_eq, Option.map_eq_none_iff, find?_id_eq_none, not_not]

theorem listed_step (distinct : (l.map id).Nodup) :
    (listed id parent l).Step x p ↔ ∃ a ∈ l, id a = x ∧ parent a = some p := by
  simp only [Step, listed, Option.map_eq_some_iff, find?_id_eq_some distinct, and_assoc]

theorem listed_cons : listed id parent (a :: l) = (listed id parent l).put (id a) (parent a) := by
  ext1
  funext x
  by_cases h : x = id a
  · subst h
    simp [listed, put]
  · simp [listed, put, h, Ne.symm h]

theorem listed_filter :
    listed id parent (l.filter fun a => id a ∉ ids) = (listed id parent l).without ids := by
  ext1
  funext x
  by_cases h : x ∈ ids
  · have gone : x ∉ (l.filter fun a => id a ∉ ids).map id := by
      simp only [List.mem_map, List.mem_filter, decide_eq_true_eq, not_exists, not_and]
      intro a got same
      obtain ⟨_, stays⟩ := got
      subst same
      exact stays h
    simp only [listed, without, h, if_true, find?_id_eq_none.2 gone, Option.map_none]
  · have same : (l.filter fun a => id a ∉ ids).find? (fun a => id a = x) =
        l.find? fun a => id a = x := by
      rw [List.find?_filter]
      congr 1
      funext a
      by_cases k : id a = x <;> simp [k, h]
    simp only [listed, without, h, if_false, same]

theorem id_replace (a old : α) : id (if id old = id a then a else old) = id old := by
  split
  · next same => exact same.symm
  · rfl

theorem map_id_replace (l : List α) (a : α) :
    (l.map fun old => if id old = id a then a else old).map id = l.map id := by
  rw [List.map_map]
  exact List.map_congr_left fun old _ => id_replace a old

theorem listed_replace (h : id a ∈ l.map id) :
    listed id parent (l.map fun old => if id old = id a then a else old) =
      (listed id parent l).put (id a) (parent a) := by
  have kept : ∀ old, id (if id old = id a then a else old) = id old := fun old => id_replace a old
  ext1
  funext x
  simp only [listed, put, List.find?_map, Function.comp_def, kept, Option.map_map]
  cases found : l.find? fun old => id old = x with
  | none =>
      have other : x ≠ id a := by
        intro same
        subst same
        exact find?_id_eq_none.1 found h
      simp [other]
  | some old =>
      have same : id old = x := by simpa using List.find?_some found
      subst same
      by_cases k : id old = id a <;> simp [k]

/-- The ids of the records that have this for their parent, in any order. -/
theorem listed_select {q : Option String} (distinct : (l.map id).Nodup)
    (h : ids.Perm ((l.filter fun a => parent a = q).map id)) :
    ids.Nodup ∧ ∀ x, x ∈ ids ↔ (listed id parent l).entry x = some q := by
  refine ⟨h.nodup_iff.2 (distinct.sublist (List.filter_sublist.map id)), fun x => ?_⟩
  simp only [h.mem_iff, listed, Option.map_eq_some_iff, find?_id_eq_some distinct, List.mem_map,
    List.mem_filter, decide_eq_true_eq, and_assoc]
  exact exists_congr fun a => and_congr_right fun _ => and_comm

/-- Leaving out the record of an id, if there is one, makes the list shorter by one. -/
theorem length_filter_ne (distinct : (l.map id).Nodup) (x : String) :
    (if x ∈ l.map id then 1 else 0) + (l.filter fun a => id a ≠ x).length = l.length := by
  have left : (l.filter fun a => id a ≠ x).map id = (l.map id).erase x := by
    rw [distinct.erase_eq_filter x, List.filter_map]
    refine congrArg _ (List.filter_congr fun a _ => ?_)
    by_cases same : id a = x <;> simp [same]
  rw [← List.length_map id, left, ← List.length_map id]
  split
  · next stored => rw [Nat.add_comm, List.length_erase_add_one stored]
  · next missing => rw [List.erase_of_not_mem missing, Nat.zero_add]

/-- The listed ones of some ids and the records that remain without them are all there are. -/
theorem encard_listed (distinct : (l.map id).Nodup) (ids : List String) :
    {x | x ∈ ids ∧ x ∈ l.map id}.encard + (l.filter fun a => id a ∉ ids).length = l.length := by
  have taken : {x | x ∈ ids ∧ x ∈ l.map id} = (((l.map id).filter (· ∈ ids)).toFinset : Set String) := by
    ext x
    simp [and_comm]
  have nodup : ((l.map id).filter (· ∈ ids)).Nodup := distinct.filter _
  rw [taken, Set.encard_coe_eq_coe_finsetCard, List.toFinset_card_of_nodup nodup, List.filter_map, List.length_map]
  have parts := List.length_eq_length_filter_add (l := l) (id · ∈ ids)
  simp only [decide_not]
  exact_mod_cast parts.symm

/-- A removal that is counted by what remains takes away the listed ones of the ids. -/
theorem encard_removed (distinct : (l.map id).Nodup) {removed : Nat}
    (count : removed + (l.filter fun a => id a ∉ ids).length = l.length) :
    {x | x ∈ ids ∧ x ∈ l.map id}.encard = removed := by
  have parts := encard_listed distinct ids
  rw [← count, Nat.cast_add] at parts
  exact WithTop.add_right_cancel (ENat.natCast_ne_top _) parts

end Pointers
end TaskForest
