import Mathlib
import TaskForest.Proofs.Pointers.Change

/-!
The height of a subtree: the number of its levels, from its root down. Below an id on a cycle there is no last
level, so its height is infinite. Together with the level of the new parent the height of a task says whether a
move of the task is admitted.
-/

namespace TaskForest
namespace Pointers

variable {f : Pointers} {root x y t p : String} {l : ℕ∞} {m n : Nat}

noncomputable def height (f : Pointers) (root : String) : ℕ∞ :=
  ⨆ (x : String) (n : Nat) (_ : f.AtLevel root x n), (n : ℕ∞)

theorem height_le_iff : f.height root ≤ l ↔ ∀ x n, f.AtLevel root x n → n ≤ l := by
  simp only [height, iSup_le_iff]

theorem AtLevel.le_height (h : f.AtLevel root x n) : n ≤ f.height root :=
  height_le_iff.1 le_rfl x n h

theorem add_height_le_iff : l + f.height root ≤ m ↔ ∀ x n, f.AtLevel root x n → l + n ≤ m := by
  constructor
  · intro fits x n h
    exact (add_le_add_right h.le_height l).trans fits
  · intro fits
    -- the root itself is at level 1, so the bound leaves room for a height that is a number
    have first : l + (1 : Nat) ≤ m := fits root 1 .root
    obtain ⟨k, rfl⟩ : ∃ k : Nat, l = k := by
      refine (ENat.ne_top_iff_exists.1 ?_).imp fun _ => Eq.symm
      rintro rfl
      simp at first
    have low : f.height root ≤ ((m - k : Nat) : ℕ∞) := by
      refine height_le_iff.2 fun x n h => ?_
      have fit : k + n ≤ m := by exact_mod_cast fits x n h
      exact_mod_cast Nat.le_sub_of_add_le' fit
    have sum : k + (m - k) = m := Nat.add_sub_of_le (by
      have fit : k + 1 ≤ m := by exact_mod_cast first
      omega)
    calc (k : ℕ∞) + f.height root ≤ k + ((m - k : Nat) : ℕ∞) := by gcongr
      _ = m := by exact_mod_cast sum

/-- Levels below an id continue the levels that lead to it, the id being counted once. -/
theorem AtLevel.trans (h : f.AtLevel root y m) (k : f.AtLevel y x n) :
    f.AtLevel root x (m + n - 1) := by
  induction k with
  | root => exact h
  | @child x p n above step ih =>
      have low := above.pos
      have next : m + (n + 1) - 1 = m + n - 1 + 1 := by omega
      exact next ▸ ih.child step

theorem OnCycle.exists_atLevel (h : f.OnCycle root) (m : Nat) : ∃ n, m ≤ n ∧ f.AtLevel root root n := by
  obtain ⟨p, step, up⟩ := Relation.TransGen.head'_iff.1 h
  obtain ⟨round, above⟩ := exists_atLevel_iff.2 up
  have low := above.pos
  induction m with
  | zero => exact ⟨1, Nat.zero_le 1, .root⟩
  | succ m ih =>
      obtain ⟨n, le, level⟩ := ih
      exact ⟨n + (round + 1) - 1, by omega, level.trans (above.child step)⟩

theorem OnCycle.height_eq_top (h : f.OnCycle root) : f.height root = ⊤ := by
  refine ENat.eq_top_iff_forall_ge.2 fun m => ?_
  obtain ⟨n, le, level⟩ := h.exists_atLevel m
  calc (m : ℕ∞) ≤ n := by exact_mod_cast le
    _ ≤ f.height root := level.le_height

theorem admits_iff :
    f.Admits m t p ↔ f.Stored p ∧ p ≠ t ∧ f.CycleFree p ∧ ¬ Relation.TransGen f.Step p t ∧
      ¬ f.OnCycle t ∧ f.level p + f.height t ≤ m := by
  constructor
  · intro h
    have fits : f.level p + f.height t ≤ m := add_height_le_iff.2 h.room
    refine ⟨h.stored, ?_, h.free, fun up => h.apart up.to_reflTransGen, fun cyclic => ?_, fits⟩
    · rintro rfl
      exact h.apart .refl
    · rw [cyclic.height_eq_top] at fits
      simp at fits
  · intro got
    obtain ⟨stored, ne, free, apart, _, fits⟩ := got
    refine ⟨stored, free, fun up => ?_, add_height_le_iff.1 fits⟩
    rcases Relation.reflTransGen_iff_eq_or_transGen.1 up with same | above
    · exact ne same.symm
    · exact apart above

end Pointers
end TaskForest
