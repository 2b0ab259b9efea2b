import TaskForest.Proofs.Pointers.Grounded

/-!
What a command may do to the parent pointers, and what that keeps. A forest stays a forest. A bound on the
levels stays one if the ids that are new are within it: a move is checked against the bound and a removal
lowers nothing, but nothing is checked of the level of a new id.
-/

namespace TaskForest
namespace Pointers

variable {f g : Pointers} {m : Nat}

/-- Nothing; a new id, at the top or below a stored one; a move that the level admits; ids taken away with all
that hangs below them. -/
inductive Evolves (f : Pointers) (m : Nat) : Pointers → Prop
  | same : Evolves f m f
  | added {t : String} {q : Option String} (new : ¬ f.Stored t)
      (below : ∀ p, q = some p → f.Stored p) : Evolves f m (f.put t q)
  | moved {t : String} {q : Option String} (stored : f.Stored t) (fits : f.AdmitsAt m t q) :
      Evolves f m (f.put t q)
  | removed {ids : List String} (closed : f.Closed ids) : Evolves f m (f.without ids)

theorem Grounded.acyclic (h : f.Grounded) : f.Acyclic := by
  intro x cyclic
  obtain ⟨p, step, _⟩ := Relation.TransGen.head'_iff.1 cyclic
  obtain ⟨y, up, top⟩ := h x step.stored
  obtain ⟨q, loop, _⟩ := Relation.TransGen.head'_iff.1 (cyclic.of_reaches up)
  rw [Step, top] at loop
  cases loop

namespace Evolves

theorem grounded (h : f.Evolves m g) (forest : f.Grounded) : g.Grounded := by
  cases h with
  | same => exact forest
  | added new below => exact forest.add new below
  | moved _ fits => exact forest.move fits
  | removed closed => exact forest.without closed

theorem within (h : f.Evolves m g) (forest : f.Grounded) (within : f.Within m)
    (low : ∀ x, g.Stored x → ¬ f.Stored x → g.level x ≤ m) : g.Within m := by
  cases h with
  | same => exact within
  | @added t q new below =>
      intro x hx
      by_cases old : f.Stored x
      · rw [(agreeFrom_put (forest.not_reaches old new)).level_eq]
        exact within x old
      · exact low x hx old
  | moved stored fits => exact fits.within forest.acyclic within stored
  | removed closed =>
      intro x hx
      obtain ⟨old, stays⟩ := without_stored.1 hx
      rw [(closed.agreeFrom stays).level_eq]
      exact within x old

/-- There is nothing that the first id could stand below. -/
theorem within_of_empty (h : f.Evolves m g) (empty : ∀ x, ¬ f.Stored x) (some_level : 1 ≤ m) :
    g.Within m := by
  intro x hx
  cases h with
  | same => exact absurd hx (empty x)
  | @added t q new below =>
      obtain rfl := (put_stored.1 hx).resolve_right (empty x)
      rw [level_eq_one fun p step => absurd (below p (put_step_self.1 step)) (empty p)]
      exact_mod_cast some_level
  | moved stored fits => exact absurd stored (empty _)
  | removed closed => exact absurd (without_stored.1 hx).1 (empty x)

end Evolves

end Pointers
end TaskForest
