import TaskForest.Proofs.Pointers.Basic

/-!
The way up from an id, position by position. It ends where there is no parent and where the pointer dangles. From
an id that is met again it goes round, so a way that ends meets no id twice.
-/

namespace TaskForest
namespace Pointers

variable {f : Pointers} {x y p : String} {as : List String} {i j k n : Nat}

/-- The parent of an id, if it is stored. -/
def storedParent (f : Pointers) (x : String) : Option String :=
  (f.parent x).filter fun p => (f.entry p).isSome

/-- The `k`th stored id on the way up from `x`; the 0th is `x` itself, stored or not. -/
def ancestor? (f : Pointers) (x : String) : Nat → Option String
  | 0 => some x
  | k + 1 => (f.ancestor? x k).bind f.storedParent

/-- The way up from `x` ends, and these are the stored ids on it, the nearest first. -/
def Ancestry (f : Pointers) (x : String) (as : List String) : Prop :=
  ∀ k, as[k]? = f.ancestor? x (k + 1)

/-- The first `n` stored ids on the way up from `x`. -/
structure Nearest (f : Pointers) (x : String) (n : Nat) (as : List String) : Prop where
  length : as.length = n
  listed : ∀ k < n, as[k]? = f.ancestor? x (k + 1)

/-- The id at position `k` was met before, as the first of all that are met again. -/
structure FirstRepeat (f : Pointers) (x : String) (k : Nat) (y : String) : Prop where
  here : f.ancestor? x k = some y
  before : ∃ j < k, f.ancestor? x j = some y
  apart : ∀ i j, i < j → j < k → f.ancestor? x i ≠ f.ancestor? x j

/-- Up to position `n` the way does not end and meets no id twice. -/
structure Straight (f : Pointers) (x : String) (n : Nat) : Prop where
  met : f.ancestor? x n ≠ none
  apart : ∀ i j, i < j → j ≤ n → f.ancestor? x i ≠ f.ancestor? x j

theorem storedParent_eq_some : f.storedParent x = some p ↔ f.parent x = some p ∧ f.Stored p := by
  rw [storedParent, Option.filter_eq_some_iff, Stored, ne_eq, Option.isSome_iff_ne_none]

theorem storedParent_of_missing (h : ¬ f.Stored x) : f.storedParent x = none := by
  rw [Stored, not_not] at h
  simp [storedParent, parent, h]

theorem ancestor?_succ (h : f.ancestor? x k = some y) : f.ancestor? x (k + 1) = f.storedParent y := by
  rw [ancestor?, h, Option.bind_some]

/-- Behind its end the way does not go on. -/
theorem ancestor?_eq_none_of_le (h : f.ancestor? x i = none) (le : i ≤ j) : f.ancestor? x j = none := by
  induction le with
  | refl => exact h
  | step _ ih => rw [ancestor?, ih, Option.bind_none]

/-- What follows an id is the same wherever it is met. -/
theorem ancestor?_add_congr (h : f.ancestor? x i = f.ancestor? x j) (n : Nat) :
    f.ancestor? x (i + n) = f.ancestor? x (j + n) := by
  induction n with
  | zero => exact h
  | succ n ih => rw [← Nat.add_assoc, ← Nat.add_assoc, ancestor?, ancestor?, ih]

theorem Straight.start (f : Pointers) (x : String) : f.Straight x 0 := by
  refine ⟨?_, ?_⟩
  · rw [ancestor?]
    exact Option.some_ne_none x
  · intro i j lt le
    omega

theorem Straight.of_succ (h : f.Straight x (n + 1)) : f.Straight x n where
  met ended := h.met (ancestor?_eq_none_of_le ended (Nat.le_succ n))
  apart i j lt le := h.apart i j lt (Nat.le_succ_of_le le)

namespace Ancestry

theorem ends (h : f.Ancestry x as) : f.ancestor? x (as.length + 1) = none := by
  rw [← h as.length]
  exact List.getElem?_eq_none (Nat.le_refl _)

/-- From an id that was met twice the way would go round and not end. -/
theorem straight (h : f.Ancestry x as) : f.Straight x as.length := by
  have met : ∀ i, i ≤ as.length → f.ancestor? x i ≠ none := by
    intro i le
    cases i with
    | zero => exact (Straight.start f x).met
    | succ i =>
        rw [← h i]
        exact List.getElem?_eq_none_iff.not.2 (Nat.not_le.2 le)
  refine ⟨met as.length (Nat.le_refl _), ?_⟩
  intro i j lt le same
  have round := ancestor?_add_congr same (as.length + 1 - j)
  rw [Nat.add_sub_cancel' (Nat.le_succ_of_le le), h.ends] at round
  exact met _ (by omega) round

end Ancestry

theorem FirstRepeat.exists_straight (h : f.FirstRepeat x k y) : ∃ n, k = n + 1 ∧ f.Straight x n := by
  obtain ⟨j, lt, _⟩ := h.before
  obtain ⟨n, rfl⟩ : ∃ n, k = n + 1 := ⟨k - 1, by omega⟩
  refine ⟨n, rfl, ?_, fun i j lt le => h.apart i j lt (Nat.lt_succ_of_le le)⟩
  intro ended
  have nothing := ancestor?_eq_none_of_le ended (Nat.le_succ n)
  rw [h.here] at nothing
  cases nothing

namespace Nearest

theorem zero (f : Pointers) (x : String) : f.Nearest x 0 [] :=
  ⟨rfl, fun k lt => absurd lt (Nat.not_lt_zero k)⟩

theorem succ (h : f.Nearest x n as) (next : f.ancestor? x (n + 1) = some p) :
    f.Nearest x (n + 1) (as ++ [p]) where
  length := by simp [h.length]
  listed k lt := by
    rcases Nat.lt_succ_iff_lt_or_eq.1 lt with lt | rfl
    · rw [List.getElem?_append_left (h.length ▸ lt)]
      exact h.listed k lt
    · rw [next, ← h.length]
      exact List.getElem?_concat_length

theorem met (h : f.Nearest x n as) : f.ancestor? x n ≠ none := by
  cases n with
  | zero => exact (Straight.start f x).met
  | succ n =>
      have lt : n < as.length := by
        rw [h.length]
        exact Nat.lt_succ_self n
      rw [← h.listed n (Nat.lt_succ_self n)]
      exact List.getElem?_eq_none_iff.not.2 (Nat.not_le.2 lt)

theorem ancestry (h : f.Nearest x n as) (ends : f.ancestor? x (n + 1) = none) : f.Ancestry x as := by
  intro k
  by_cases lt : k < n
  · exact h.listed k lt
  · have beyond : as.length ≤ k := by
      rw [h.length]
      exact Nat.le_of_not_lt lt
    rw [List.getElem?_eq_none beyond, ancestor?_eq_none_of_le ends (by omega)]

end Nearest

theorem Ancestry.eq_of_nearest {bs : List String} (h : f.Ancestry x as) (k : f.Nearest x as.length bs) :
    bs = as := by
  refine List.ext_getElem? fun i => ?_
  by_cases lt : i < as.length
  · rw [k.listed i lt, h i]
  · have beyond : bs.length ≤ i := by
      rw [k.length]
      exact Nat.le_of_not_lt lt
    rw [List.getElem?_eq_none beyond, List.getElem?_eq_none (Nat.le_of_not_lt lt)]

/-- Either the way goes on up to position `n`, or it ends before. -/
theorem nearest_or_ancestry (f : Pointers) (x : String) (n : Nat) :
    (∃ as, f.Nearest x n as) ∨ ∃ as, f.Ancestry x as ∧ as.length < n := by
  induction n with
  | zero => exact .inl ⟨[], .zero f x⟩
  | succ n ih =>
      rcases ih with ⟨as, nearest⟩ | ⟨as, ancestry, short⟩
      · cases next : f.ancestor? x (n + 1) with
        | none => exact .inr ⟨as, nearest.ancestry next, nearest.length ▸ Nat.lt_succ_self _⟩
        | some p => exact .inl ⟨as ++ [p], nearest.succ next⟩
      · exact .inr ⟨as, ancestry, Nat.lt_succ_of_lt short⟩

/-- As long as the way does not end, there is a first id that is met again or none is. -/
theorem straight_or_firstRepeat (met : f.ancestor? x n ≠ none) :
    f.Straight x n ∨ ∃ k y, f.FirstRepeat x k y ∧ k ≤ n := by
  induction n with
  | zero => exact .inl (.start f x)
  | succ n ih =>
      have before : f.ancestor? x n ≠ none := fun ended => met (ancestor?_eq_none_of_le ended (Nat.le_succ n))
      rcases ih before with straight | ⟨k, y, again, le⟩
      · obtain ⟨y, here⟩ := Option.ne_none_iff_exists'.1 met
        by_cases again : ∃ j < n + 1, f.ancestor? x j = some y
        · refine .inr ⟨n + 1, y, ⟨here, again, fun i j lt le => ?_⟩, Nat.le_refl _⟩
          exact straight.apart i j lt (Nat.le_of_lt_succ le)
        · refine .inl ⟨met, fun i j lt le same => ?_⟩
          rcases Nat.le_succ_iff.1 le with le | rfl
          · exact straight.apart i j lt le same
          · exact again ⟨i, lt, same.trans here⟩
      · exact .inr ⟨k, y, again, Nat.le_succ_of_le le⟩

end Pointers
end TaskForest
