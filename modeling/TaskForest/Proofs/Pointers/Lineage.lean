import TaskForest.Proofs.Pointers.Basic

/-!
The stored ancestors of an id and its level. A lineage is the line of stored ids from a pointer upwards; it
ends at an id without parent and at a pointer that dangles, and there is none where the line runs into a
cycle. The level counts the stored ancestors as a set, so it is defined on any pointers; where there is a
lineage it is one more than its length.
-/

namespace TaskForest
namespace Pointers

variable {f : Pointers} {x y p root : String} {q : Option String} {as bs : List String} {n : Nat}

/-- The stored ids from a pointer upwards, the nearest first. -/
inductive Lineage (f : Pointers) : Option String → List String → Prop
  | root : Lineage f none []
  | dangling {p : String} (missing : ¬ f.Stored p) : Lineage f (some p) []
  | step {p : String} {as : List String} (stored : f.Stored p) (above : Lineage f (f.parent p) as) :
      Lineage f (some p) (p :: as)

def ancestors (f : Pointers) (x : String) : Set String :=
  {y | f.Stored y ∧ Relation.TransGen f.Step x y}

/-- The number of stored ancestors, and one. -/
noncomputable def level (f : Pointers) (x : String) : ℕ∞ := (f.ancestors x).encard + 1

def Within (f : Pointers) (m : Nat) : Prop := ∀ x, f.Stored x → f.level x ≤ m

theorem ancestors_eq_empty (h : ∀ p, f.Step x p → ¬ f.Stored p) : f.ancestors x = ∅ := by
  rw [Set.eq_empty_iff_forall_notMem]
  intro y got
  obtain ⟨stored, up⟩ := got
  obtain ⟨p, step, above⟩ := Relation.TransGen.head'_iff.1 up
  exact h p step (Reaches.stored above stored)

theorem ancestors_eq_insert (step : f.Step x p) (stored : f.Stored p) :
    f.ancestors x = insert p (f.ancestors p) := by
  ext y
  simp only [ancestors, Set.mem_ofPred_eq, Set.mem_insert_iff]
  constructor
  · intro got
    obtain ⟨hy, up⟩ := got
    obtain ⟨c, first, above⟩ := Relation.TransGen.head'_iff.1 up
    obtain rfl := step.unique first
    rcases Relation.reflTransGen_iff_eq_or_transGen.1 above with rfl | up
    · exact .inl rfl
    · exact .inr ⟨hy, up⟩
  · rintro (rfl | ⟨hy, up⟩)
    · exact ⟨stored, .single step⟩
    · exact ⟨hy, .head step up⟩

theorem level_eq_one (h : ∀ p, f.Step x p → ¬ f.Stored p) : f.level x = 1 := by
  simp [level, ancestors_eq_empty h]

theorem one_le_level (f : Pointers) (x : String) : 1 ≤ f.level x :=
  le_add_self

theorem level_of_step (step : f.Step x p) (stored : f.Stored p) (off : ¬ f.OnCycle p) :
    f.level x = f.level p + 1 := by
  have new : p ∉ f.ancestors p := fun h => off h.2
  rw [level, ancestors_eq_insert step stored, Set.encard_insert_of_notMem new, level]

namespace Lineage

theorem cycleFree (h : f.Lineage q as) (hq : q = some p) : f.CycleFree p := by
  induction h generalizing p with
  | root => cases hq
  | dangling missing =>
      cases hq
      exact .of_no_step fun _ step => missing step.stored
  | @step r as stored above ih =>
      cases hq
      cases hr : f.parent r with
      | none =>
          refine .of_no_step fun _ step => ?_
          rw [← parent_eq_some, hr] at step
          cases step
      | some t => exact (ih hr).below (.single (parent_eq_some.1 hr))

theorem cycleFree_of_parent (h : f.Lineage (f.parent x) as) : f.CycleFree x := by
  cases hp : f.parent x with
  | none =>
      refine .of_no_step fun _ step => ?_
      rw [← parent_eq_some, hp] at step
      cases step
  | some p => exact (h.cycleFree hp).below (.single (parent_eq_some.1 hp))

/-- A lineage holds every stored id that is met on the way up. -/
theorem mem_iff (h : f.Lineage q as) :
    y ∈ as ↔ f.Stored y ∧ ∃ p, q = some p ∧ f.Reaches p y := by
  induction h with
  | root => simp
  | @dangling p missing =>
      simp only [List.not_mem_nil, Option.some.injEq, exists_eq_left', false_iff, not_and]
      exact fun hy up => missing (Reaches.stored up hy)
  | @step p as stored above ih =>
      simp only [List.mem_cons, ih, Option.some.injEq, exists_eq_left']
      constructor
      · rintro (rfl | ⟨hy, r, hr, up⟩)
        · exact ⟨stored, .refl⟩
        · exact ⟨hy, .head (parent_eq_some.1 hr) up⟩
      · intro got
        obtain ⟨hy, up⟩ := got
        rcases Relation.ReflTransGen.cases_head_iff.1 up with rfl | ⟨r, step, up⟩
        · exact .inl rfl
        · exact .inr ⟨hy, r, parent_eq_some.2 step, up⟩

theorem mem_iff_of_parent (h : f.Lineage (f.parent x) as) : y ∈ as ↔ y ∈ f.ancestors x := by
  rw [h.mem_iff]
  refine and_congr_right fun _ => ?_
  simp only [parent_eq_some]
  exact Relation.TransGen.head'_iff.symm

/-- Of the other stored ids, a lineage has exactly those that are met. -/
theorem mem_iff_reaches (h : f.Lineage (f.parent x) as) (stored : f.Stored y) (other : x ≠ y) :
    y ∈ as ↔ f.Reaches x y := by
  rw [h.mem_iff_of_parent]
  constructor
  · exact fun above => above.2.to_reflTransGen
  · intro up
    rcases Relation.reflTransGen_iff_eq_or_transGen.1 up with same | up
    · exact absurd same.symm other
    · exact ⟨stored, up⟩

theorem nodup (h : f.Lineage q as) : as.Nodup := by
  induction h with
  | root => exact List.nodup_nil
  | dangling _ => exact List.nodup_nil
  | @step p as stored above ih =>
      refine List.nodup_cons.2 ⟨fun hp => ?_, ih⟩
      exact above.cycleFree_of_parent.not_onCycle (above.mem_iff_of_parent.1 hp).2

theorem notMem_self (h : f.Lineage (f.parent x) as) : x ∉ as :=
  fun hx => h.cycleFree_of_parent.not_onCycle (h.mem_iff_of_parent.1 hx).2

theorem level_eq (h : f.Lineage (f.parent x) as) : f.level x = as.length + 1 := by
  generalize hq : f.parent x = q at h
  induction h generalizing x with
  | root =>
      refine level_eq_one fun p step => ?_
      rw [← parent_eq_some, hq] at step
      cases step
  | dangling missing =>
      refine level_eq_one fun p step => ?_
      rwa [← (parent_eq_some.1 hq).unique step]
  | step stored above ih =>
      rw [level_of_step (parent_eq_some.1 hq) stored above.cycleFree_of_parent.not_onCycle, ih rfl]
      simp

end Lineage

theorem CycleFree.exists_lineage (free : f.CycleFree x) {m : Nat} (h : f.level x ≤ m) :
    ∃ as, f.Lineage (f.parent x) as ∧ as.length < m := by
  induction m generalizing x with
  | zero =>
      exact absurd ((one_le_level f x).trans h) (by simp)
  | succ m ih =>
      cases hp : f.parent x with
      | none => exact ⟨[], .root, by simp⟩
      | some p =>
          by_cases stored : f.Stored p
          · have step := parent_eq_some.1 hp
            have free_above : f.CycleFree p := free.of_reaches (.single step)
            rw [level_of_step step stored free_above.not_onCycle] at h
            obtain ⟨as, above, short⟩ := ih free_above (by simpa using h)
            exact ⟨p :: as, .step stored above, by simpa using short⟩
          · exact ⟨[], .dangling stored, by simp⟩

theorem Acyclic.exists_lineage (acyclic : f.Acyclic) {m : Nat} (h : f.level x ≤ m) :
    ∃ as, f.Lineage (f.parent x) as ∧ as.length < m :=
  (acyclic.cycleFree x).exists_lineage h

/-- Levels below a root add up with the level of the root. -/
theorem AtLevel.level_add (h : f.AtLevel root x n) (free : f.CycleFree root) (stored : f.Stored root) :
    f.level x + 1 = f.level root + n := by
  induction h with
  | root => simp
  | @child x p n above step ih =>
      have hp : f.Stored p := above.reaches.stored stored
      have off : ¬ f.OnCycle p := (free.below above.reaches).not_onCycle
      rw [level_of_step step hp off, ih, Nat.cast_add, Nat.cast_one, add_assoc]

end Pointers
end TaskForest
