import TaskForest.Proofs.Pointers.Lineage

/-!
One pointer set, or some ids taken away. What is said of an id by the way up from it stays true as long as
the way stays the same. An id whose way leads over the changed pointer goes on to it as before, and from
there along the new pointer.
-/

namespace TaskForest
namespace Pointers

variable {f g : Pointers} {x y z t p : String} {q : Option String} {m n : Nat}

/-- `id` is stored from now on, with this parent. -/
def put (f : Pointers) (id : String) (parent : Option String) : Pointers :=
  ⟨fun x => if x = id then some parent else f.entry x⟩

def without (f : Pointers) (ids : List String) : Pointers :=
  ⟨fun x => if x ∈ ids then none else f.entry x⟩

/-- All that is met on the way up from `x` is the same. -/
def AgreeFrom (f g : Pointers) (x : String) : Prop := ∀ y, f.Reaches x y → g.entry y = f.entry y

namespace AgreeFrom

theorem of_reaches (h : f.AgreeFrom g x) (k : f.Reaches x y) : f.AgreeFrom g y :=
  fun z hz => h z (k.trans hz)

theorem step_iff (h : f.AgreeFrom g x) : g.Step x p ↔ f.Step x p := by
  rw [Step, Step, h x .refl]

theorem reaches_iff (h : f.AgreeFrom g x) : g.Reaches x y ↔ f.Reaches x y := by
  constructor
  · intro k
    induction k with
    | refl => exact .refl
    | tail _ step ih => exact ih.tail ((h.of_reaches ih).step_iff.1 step)
  · intro k
    induction k with
    | refl => exact .refl
    | tail up step ih => exact ih.tail ((h.of_reaches up).step_iff.2 step)

theorem transGen_iff (h : f.AgreeFrom g x) :
    Relation.TransGen g.Step x y ↔ Relation.TransGen f.Step x y := by
  simp only [Relation.TransGen.head'_iff]
  refine exists_congr fun p => ?_
  rw [h.step_iff]
  exact and_congr_right fun step => (h.of_reaches (.single step)).reaches_iff

theorem cycleFree (h : f.AgreeFrom g x) (free : f.CycleFree x) : g.CycleFree x := by
  intro y hy cyclic
  have up : f.Reaches x y := h.reaches_iff.1 hy
  exact free y up ((h.of_reaches up).transGen_iff.1 cyclic)

theorem level_eq (h : f.AgreeFrom g x) : g.level x = f.level x := by
  have same : g.ancestors x = f.ancestors x := by
    ext y
    simp only [ancestors, Set.mem_ofPred_eq, h.transGen_iff]
    refine and_congr_left fun up => ?_
    rw [Stored, Stored, h y up.to_reflTransGen]
  rw [level, level, same]

end AgreeFrom

theorem put_entry_self : (f.put t q).entry t = some q :=
  if_pos rfl

theorem put_entry_of_ne (h : x ≠ t) : (f.put t q).entry x = f.entry x :=
  if_neg h

theorem put_stored : (f.put t q).Stored x ↔ x = t ∨ f.Stored x := by
  by_cases h : x = t
  · simp [Stored, h, put_entry_self]
  · simp [Stored, h, put_entry_of_ne h]

theorem put_step_self : (f.put t q).Step t p ↔ q = some p := by
  rw [Step, put_entry_self, Option.some.injEq]

theorem put_step_of_ne (h : x ≠ t) : (f.put t q).Step x p ↔ f.Step x p := by
  rw [Step, put_entry_of_ne h, Step]

theorem agreeFrom_put (h : ¬ f.Reaches x t) : f.AgreeFrom (f.put t q) x := by
  intro y hy
  refine put_entry_of_ne ?_
  intro same
  subst same
  exact h hy

/-- The first way to `t` does not lead over the pointer of `t`. -/
theorem exists_atLevel_put (q : Option String) (h : f.Reaches x t) :
    ∃ n, f.AtLevel t x n ∧ (f.put t q).AtLevel t x n := by
  induction h using Relation.ReflTransGen.head_induction_on with
  | refl => exact ⟨1, .root, .root⟩
  | @head x p step _ ih =>
      by_cases hx : x = t
      · subst hx
        exact ⟨1, .root, .root⟩
      · obtain ⟨n, old, new⟩ := ih
        exact ⟨n + 1, .child old step, .child new ((put_step_of_ne hx).2 step)⟩

/-- A new parent of `t` changes nothing about what leads to `t`. -/
theorem put_reaches_self : (f.put t q).Reaches x t ↔ f.Reaches x t := by
  by_cases h : f.Reaches x t
  · obtain ⟨n, _, new⟩ := exists_atLevel_put q h
    exact iff_of_true new.reaches h
  · exact (agreeFrom_put h).reaches_iff

/-- What the move of `t` below `p` needs: the way up from `p` ends and does not lead over `t`, and no id
below `t` comes to stand below level `m`. -/
structure Admits (f : Pointers) (m : Nat) (t p : String) : Prop where
  stored : f.Stored p
  free : f.CycleFree p
  apart : ¬ f.Reaches p t
  room : ∀ x n, f.AtLevel t x n → f.level p + n ≤ m

def AdmitsAt (f : Pointers) (m : Nat) (t : String) (q : Option String) : Prop :=
  ∀ p, q = some p → f.Admits m t p

theorem admitsAt_none : f.AdmitsAt m t none := by
  intro p same
  cases same

namespace AdmitsAt

theorem cycleFree_self (h : f.AdmitsAt m t q) : (f.put t q).CycleFree t := by
  cases q with
  | none =>
      refine .of_no_step fun p step => ?_
      cases put_step_self.1 step
  | some p =>
      obtain ⟨_, free, apart, _⟩ := h p rfl
      have above : (f.put t (some p)).CycleFree p := (agreeFrom_put apart).cycleFree free
      exact above.below (.single (put_step_self.2 rfl))

theorem cycleFree_below (h : f.AdmitsAt m t q) (k : f.Reaches x t) : (f.put t q).CycleFree x := by
  obtain ⟨n, _, new⟩ := exists_atLevel_put q k
  exact h.cycleFree_self.below new.reaches

theorem cycleFree (h : f.AdmitsAt m t q) (free : f.CycleFree x) : (f.put t q).CycleFree x := by
  by_cases k : f.Reaches x t
  · exact h.cycleFree_below k
  · exact (agreeFrom_put k).cycleFree free

/-- A cycle that is there afterwards was there before. -/
theorem onCycle (h : f.AdmitsAt m t q) (cyclic : (f.put t q).OnCycle x) : f.OnCycle x := by
  by_cases k : f.Reaches x t
  · exact absurd cyclic (h.cycleFree_below k).not_onCycle
  · exact (agreeFrom_put k).transGen_iff.1 cyclic

theorem acyclic (h : f.AdmitsAt m t q) (acyclic : f.Acyclic) : (f.put t q).Acyclic :=
  acyclic_of_cycleFree fun x => h.cycleFree (acyclic.cycleFree x)

/-- The level of the moved id, and what the levels below it add to that. -/
theorem level_self_add (h : f.AdmitsAt m t q) (within : f.Within m) (acyclic : f.Acyclic)
    (stored : f.Stored t) (k : f.AtLevel t x n) : (f.put t q).level t + n ≤ m + 1 := by
  cases q with
  | none =>
      have top : (f.put t none).level t = 1 := by
        refine level_eq_one fun p step => ?_
        cases put_step_self.1 step
      have below : f.level x + 1 = f.level t + n := k.level_add (acyclic.cycleFree t) stored
      calc (f.put t none).level t + n = 1 + n := by rw [top]
        _ ≤ f.level t + n := by gcongr; exact one_le_level f t
        _ = f.level x + 1 := below.symm
        _ ≤ m + 1 := by gcongr; exact within x (k.reaches.stored stored)
  | some p =>
      obtain ⟨hp, free, apart, room⟩ := h p rfl
      have agree : f.AgreeFrom (f.put t (some p)) p := agreeFrom_put apart
      have up : (f.put t (some p)).level t = f.level p + 1 := by
        rw [level_of_step (put_step_self.2 rfl) (put_stored.2 (.inr hp))
          (agree.cycleFree free).not_onCycle, agree.level_eq]
      calc (f.put t (some p)).level t + n = f.level p + n + 1 := by rw [up, add_right_comm]
        _ ≤ m + 1 := by gcongr; exact room x n k

theorem within (h : f.AdmitsAt m t q) (acyclic : f.Acyclic) (within : f.Within m)
    (stored : f.Stored t) : (f.put t q).Within m := by
  intro x hx
  by_cases k : f.Reaches x t
  · obtain ⟨n, old, new⟩ := exists_atLevel_put q k
    have sum : (f.put t q).level x + 1 = (f.put t q).level t + n :=
      new.level_add h.cycleFree_self (put_stored.2 (.inl rfl))
    have bound := h.level_self_add within acyclic stored old
    rw [← sum] at bound
    exact (ENat.add_le_add_iff_right ENat.one_ne_top).1 bound
  · rw [(agreeFrom_put k).level_eq]
    refine within x ((put_stored.1 hx).resolve_left ?_)
    intro same
    subst same
    exact k .refl

end AdmitsAt

end Pointers
end TaskForest
