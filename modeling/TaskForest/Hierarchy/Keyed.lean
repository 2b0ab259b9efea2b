/-!
Finite maps from ids.
-/

namespace TaskForest

/-- The first entry of an id counts. -/
structure Keyed (α : Type) where
  entries : List (String × α)

namespace Keyed

variable {α : Type}

def empty : Keyed α := ⟨[]⟩

def find? (m : Keyed α) (id : String) : Option α := m.entries.lookup id

def erase (m : Keyed α) (id : String) : Keyed α :=
  ⟨m.entries.filter fun e => e.1 ≠ id⟩

/-- What the id had before is gone. -/
def insert (m : Keyed α) (id : String) (value : α) : Keyed α :=
  ⟨(id, value) :: (m.erase id).entries⟩

/-- Puts in the entries one after the other. -/
def extend (m : Keyed α) (entries : List (String × α)) : Keyed α :=
  entries.foldl (fun m e => m.insert e.1 e.2) m

@[simp] theorem find?_empty (id : String) : (empty : Keyed α).find? id = none := rfl

theorem find?_cons (id : String) (value : α) (rest : List (String × α)) (x : String) :
    find? ⟨(id, value) :: rest⟩ x = if x = id then some value else find? ⟨rest⟩ x := by
  rw [find?, List.lookup_cons]
  by_cases here : x = id
  · rw [if_pos here, beq_iff_eq.2 here]
  · rw [if_neg here, beq_eq_false_iff_ne.2 here]
    rfl

@[simp] theorem find?_erase (m : Keyed α) (id x : String) :
    (m.erase id).find? x = if x = id then none else m.find? x := by
  obtain ⟨entries⟩ := m
  induction entries with
  | nil => exact (ite_self none).symm
  | cons e rest ih =>
      obtain ⟨k, value⟩ := e
      rw [erase] at ih ⊢
      rw [find?_cons, List.filter_cons]
      by_cases gone : k = id
      · subst gone
        rw [if_neg (by simp), ih]
        split <;> rfl
      · rw [if_pos (by simpa using gone), find?_cons, ih]
        by_cases here : x = k
        · rw [if_pos here, if_pos here, if_neg (here ▸ gone)]
        · rw [if_neg here, if_neg here]

@[simp] theorem find?_insert (m : Keyed α) (id : String) (value : α) (x : String) :
    (m.insert id value).find? x = if x = id then some value else m.find? x := by
  rw [insert, find?_cons]
  split
  · rfl
  · next other => exact (find?_erase m id x).trans (if_neg other)

theorem extend_append (m : Keyed α) (first second : List (String × α)) :
    m.extend (first ++ second) = (m.extend first).extend second :=
  List.foldl_append

theorem find?_extend_of_not_mem {entries : List (String × α)} {x : String} (h : x ∉ entries.map Prod.fst)
    (m : Keyed α) : (m.extend entries).find? x = m.find? x := by
  induction entries generalizing m with
  | nil => rfl
  | cons e rest ih =>
      rw [List.map_cons, List.mem_cons, not_or] at h
      exact (ih h.2 _).trans ((find?_insert m e.1 e.2 x).trans (if_neg h.1))

/-- Entries with different ids are all found. -/
theorem find?_extend {entries : List (String × α)} (distinct : (entries.map Prod.fst).Nodup)
    {e : String × α} (h : e ∈ entries) (m : Keyed α) : (m.extend entries).find? e.1 = some e.2 := by
  induction entries generalizing m with
  | nil => cases h
  | cons first rest ih =>
      rw [List.map_cons, List.nodup_cons] at distinct
      rcases List.mem_cons.1 h with rfl | h
      · refine (find?_extend_of_not_mem distinct.1 _).trans ?_
        rw [find?_insert, if_pos rfl]
      · exact ih distinct.2 h _

end Keyed
end TaskForest
