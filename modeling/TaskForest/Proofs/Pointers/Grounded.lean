import TaskForest.Proofs.Pointers.Change
import TaskForest.Text.Ascending

/-!
Pointers that form a forest: from every stored id the way up ends at a stored id without parent. Then no
pointer dangles and there is no cycle. A new id, a move that closes no cycle and the removal of ids together
with all that hangs below them keep this.
-/

namespace TaskForest
namespace Pointers

variable {f g : Pointers} {x y t p : String} {q : Option String} {ids : List String}

/-- The way up from `x` ends at a stored id without parent. -/
def EndsAtRoot (f : Pointers) (x : String) : Prop := ∃ y, f.Reaches x y ∧ f.entry y = some none

def Grounded (f : Pointers) : Prop := ∀ x, f.Stored x → f.EndsAtRoot x

theorem EndsAtRoot.stored (h : f.EndsAtRoot x) : f.Stored x := by
  obtain ⟨y, up, top⟩ := h
  exact up.stored (by simp [Stored, top])

/-- An id without a parent is all that is met on the way up from it. -/
theorem Reaches.eq_of_top (h : f.Reaches x y) (top : f.entry x = some none) : x = y := by
  rcases Relation.ReflTransGen.cases_head_iff.1 h with same | ⟨p, step, _⟩
  · exact same
  · rw [Step, top] at step
    cases step

theorem EndsAtRoot.of_reaches (h : f.EndsAtRoot x) (k : f.Reaches x y) : f.EndsAtRoot y := by
  obtain ⟨r, up, top⟩ := h
  refine ⟨r, ?_, top⟩
  rcases Reaches.total k up with above | below
  · exact above
  · exact below.eq_of_top top ▸ .refl

theorem EndsAtRoot.below (h : f.EndsAtRoot y) (k : f.Reaches x y) : f.EndsAtRoot x := by
  obtain ⟨r, up, top⟩ := h
  exact ⟨r, k.trans up, top⟩

theorem AgreeFrom.endsAtRoot (h : f.AgreeFrom g x) (k : f.EndsAtRoot x) : g.EndsAtRoot x := by
  obtain ⟨r, up, top⟩ := k
  exact ⟨r, h.reaches_iff.2 up, (h r up).trans top⟩

/-- No two roots are met on the way up from one id. -/
theorem eq_of_reaches_roots {r s : String} (hr : f.Reaches x r) (hs : f.Reaches x s)
    (r_top : f.entry r = some none) (s_top : f.entry s = some none) : r = s := by
  rcases Reaches.total hr hs with up | up
  · exact up.eq_of_top r_top
  · exact (up.eq_of_top s_top).symm

theorem Lineage.endsAtRoot {as : List String} (h : f.Lineage (f.parent x) as) (stored : f.Stored x)
    (linked : ∀ x p, f.Step x p → f.Stored p) : f.EndsAtRoot x := by
  generalize hq : f.parent x = q at h
  induction h generalizing x with
  | root =>
      refine ⟨x, .refl, ?_⟩
      obtain ⟨parent, named⟩ := Option.ne_none_iff_exists'.1 stored
      rw [Pointers.parent, named, Option.join_some] at hq
      rw [named, hq]
  | @dangling p missing => exact absurd (linked x p (parent_eq_some.1 hq)) missing
  | step stored_above _ ih => exact (ih stored_above rfl).below (.single (parent_eq_some.1 hq))

theorem Grounded.parent_stored (h : f.Grounded) (step : f.Step x p) : f.Stored p :=
  ((h x step.stored).of_reaches (.single step)).stored

theorem Grounded.not_reaches (h : f.Grounded) (hx : f.Stored x) (ht : ¬ f.Stored t) :
    ¬ f.Reaches x t :=
  fun up => ht ((h x hx).of_reaches up).stored

theorem Grounded.put (h : f.Grounded) (hq : ∀ p, q = some p → f.Stored p ∧ ¬ f.Reaches p t) :
    (f.put t q).Grounded := by
  have top : (f.put t q).EndsAtRoot t := by
    cases q with
    | none => exact ⟨t, .refl, put_entry_self⟩
    | some p =>
        obtain ⟨hp, apart⟩ := hq p rfl
        have above : (f.put t (some p)).EndsAtRoot p := (agreeFrom_put apart).endsAtRoot (h p hp)
        exact above.below (.single (put_step_self.2 rfl))
  intro x hx
  by_cases k : f.Reaches x t
  · obtain ⟨n, _, new⟩ := exists_atLevel_put q k
    exact top.below new.reaches
  · refine (agreeFrom_put k).endsAtRoot (h x ((put_stored.1 hx).resolve_left ?_))
    intro same
    subst same
    exact k .refl

theorem Grounded.add (h : f.Grounded) (new : ¬ f.Stored t) (hq : ∀ p, q = some p → f.Stored p) :
    (f.put t q).Grounded :=
  h.put fun p hp => ⟨hq p hp, h.not_reaches (hq p hp) new⟩

theorem Grounded.move {m : Nat} (h : f.Grounded) (fits : f.AdmitsAt m t q) : (f.put t q).Grounded :=
  h.put fun p hp => ⟨(fits p hp).stored, (fits p hp).apart⟩

theorem without_nil (f : Pointers) : f.without [] = f := by
  simp [Pointers.without]

theorem without_stored : (f.without ids).Stored x ↔ f.Stored x ∧ x ∉ ids := by
  by_cases h : x ∈ ids <;> simp [Stored, without, h]

theorem without_step : (f.without ids).Step x p ↔ f.Step x p ∧ x ∉ ids := by
  by_cases h : x ∈ ids <;> simp [Step, without, h]

/-- Nothing that stays points at one of the ids. -/
def Closed (f : Pointers) (ids : List String) : Prop := ∀ x p, f.Step x p → p ∈ ids → x ∈ ids

theorem Closed.notMem_of_reaches (closed : f.Closed ids) (hx : x ∉ ids) (k : f.Reaches x y) :
    y ∉ ids := by
  induction k with
  | refl => exact hx
  | tail _ step ih => exact fun hy => ih (closed _ _ step hy)

theorem Closed.agreeFrom (closed : f.Closed ids) (hx : x ∉ ids) : f.AgreeFrom (f.without ids) x :=
  fun _ hy => if_neg (closed.notMem_of_reaches hx hy)

theorem Grounded.without (h : f.Grounded) (closed : f.Closed ids) : (f.without ids).Grounded := by
  intro x hx
  obtain ⟨stored, stays⟩ := without_stored.1 hx
  exact (closed.agreeFrom stays).endsAtRoot (h x stored)

/-- What reaches a root is closed: what points at it reaches the root as well. -/
theorem closed_of_reaches {root : String} (h : ∀ x, x ∈ ids ↔ f.Reaches x root) : f.Closed ids :=
  fun _ p step hp => (h _).2 (.head step ((h p).1 hp))

/-- An id that is not one of the ids and has its parent among them. -/
def Attached (f : Pointers) (ids : List String) (x : String) : Prop := x ∉ ids ∧ ∃ p ∈ ids, f.Step x p

theorem closed_iff_not_attached : f.Closed ids ↔ ¬ ∃ x, f.Attached ids x := by
  constructor
  · intro closed got
    obtain ⟨x, stays, p, hp, step⟩ := got
    exact stays (closed x p step hp)
  · intro none_attached x p step hp
    by_contra stays
    exact none_attached ⟨x, stays, p, hp, step⟩

/-- The ids that are attached to some ids, in order. -/
structure Orphans (f : Pointers) (ids orphans : List String) : Prop where
  ascending : Ascending orphans
  mem_iff : ∀ x, x ∈ orphans ↔ f.Attached ids x

theorem Orphans.eq_nil_iff {orphans : List String} (h : f.Orphans ids orphans) :
    orphans = [] ↔ f.Closed ids := by
  rw [closed_iff_not_attached, not_exists, List.eq_nil_iff_forall_not_mem]
  exact forall_congr' fun x => not_congr (h.mem_iff x)

end Pointers
end TaskForest
