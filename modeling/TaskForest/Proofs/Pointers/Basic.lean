import Mathlib.Data.Set.Card
import Mathlib.Logic.Relation

/-!
Parent pointers, apart from the store that holds them. A pointer may dangle, and following pointers may
come back to where it began; nothing here assumes otherwise. Since an id has at most one parent, what is
reached from it is a line, and a cycle met on that line holds everything behind the place where it is met.
-/

namespace TaskForest

/-- Of each id, nothing if it is not stored, and else its parent or that it has none. -/
@[ext]
structure Pointers where
  entry : String → Option (Option String)

namespace Pointers

variable {f g : Pointers} {x y z p q root : String} {m n : Nat}

def Stored (f : Pointers) (x : String) : Prop := f.entry x ≠ none

/-- The parent that a stored id names. -/
def parent (f : Pointers) (x : String) : Option String := (f.entry x).join

/-- `x` is stored and names `p` as its parent, which need not be stored. -/
def Step (f : Pointers) (x p : String) : Prop := f.entry x = some (some p)

/-- `y` is met by following parents from `x`, which counts as met. -/
def Reaches (f : Pointers) : String → String → Prop := Relation.ReflTransGen f.Step

def OnCycle (f : Pointers) (x : String) : Prop := Relation.TransGen f.Step x x

/-- No id on the way up from `x` is met twice. -/
def CycleFree (f : Pointers) (x : String) : Prop := ∀ y, f.Reaches x y → ¬ f.OnCycle y

def Acyclic (f : Pointers) : Prop := ∀ x, ¬ f.OnCycle x

/-- The levels below a root, the root being at level 1 and every other id one below its parent. On a cycle
an id is at many levels. -/
inductive AtLevel (f : Pointers) (root : String) : String → Nat → Prop
  | root : AtLevel f root root 1
  | child {x p : String} {n : Nat} (above : AtLevel f root p n) (step : f.Step x p) :
      AtLevel f root x (n + 1)

theorem Step.unique (h : f.Step x p) (k : f.Step x q) : p = q :=
  Option.some.inj (Option.some.inj (h.symm.trans k))

theorem Step.stored (h : f.Step x p) : f.Stored x := by
  rw [Step] at h
  simp [Stored, h]

theorem parent_eq_some : f.parent x = some p ↔ f.Step x p := by
  simp [parent, Step, Option.join_eq_some_iff]

theorem Reaches.eq_or_stored (h : f.Reaches x y) : x = y ∨ f.Stored x := by
  rcases Relation.ReflTransGen.cases_head_iff.1 h with same | ⟨p, step, _⟩
  · exact .inl same
  · exact .inr step.stored

theorem Reaches.stored (h : f.Reaches x y) (hy : f.Stored y) : f.Stored x := by
  rcases h.eq_or_stored with rfl | stored
  · exact hy
  · exact stored

/-- Of two ids met on the way up from one, the later is met from the earlier. -/
theorem Reaches.total (h : f.Reaches x y) (k : f.Reaches x z) : f.Reaches y z ∨ f.Reaches z y :=
  Relation.ReflTransGen.total_of_right_unique (fun _ _ _ h k => h.unique k) h k

theorem OnCycle.of_reaches (h : f.OnCycle x) (k : f.Reaches x y) : f.OnCycle y := by
  induction k with
  | refl => exact h
  | tail _ step ih =>
      obtain ⟨c, first, back⟩ := Relation.TransGen.head'_iff.1 ih
      obtain rfl := step.unique first
      exact Relation.TransGen.tail' back step

theorem OnCycle.stored (h : f.OnCycle x) : f.Stored x := by
  obtain ⟨p, step, _⟩ := Relation.TransGen.head'_iff.1 h
  exact step.stored

/-- What is met from an id on a cycle is on that cycle and leads back. -/
theorem OnCycle.reaches_back (h : f.OnCycle x) (k : f.Reaches x y) : f.Reaches y x := by
  induction k with
  | refl => exact .refl
  | @tail b c up step ih =>
      obtain ⟨p, first, back⟩ := Relation.TransGen.head'_iff.1 (h.of_reaches up)
      obtain rfl := step.unique first
      exact back.trans ih

theorem CycleFree.not_onCycle (h : f.CycleFree x) : ¬ f.OnCycle x :=
  h x .refl

theorem CycleFree.of_reaches (h : f.CycleFree x) (k : f.Reaches x y) : f.CycleFree y :=
  fun z hz => h z (k.trans hz)

/-- A cycle met from `x` is met from every id that `x` reaches. -/
theorem CycleFree.below (h : f.CycleFree y) (k : f.Reaches x y) : f.CycleFree x := by
  intro c hc cyclic
  rcases Reaches.total k hc with hyc | hcy
  · exact h c hyc cyclic
  · exact h.not_onCycle (cyclic.of_reaches hcy)

theorem CycleFree.of_no_step (h : ∀ p, ¬ f.Step x p) : f.CycleFree x := by
  intro y hy cyclic
  rcases Relation.ReflTransGen.cases_head_iff.1 hy with rfl | ⟨p, step, _⟩
  · obtain ⟨p, step, _⟩ := Relation.TransGen.head'_iff.1 cyclic
    exact h p step
  · exact h p step

theorem Acyclic.cycleFree (h : f.Acyclic) (x : String) : f.CycleFree x :=
  fun y _ => h y

theorem acyclic_of_cycleFree (h : ∀ x, f.CycleFree x) : f.Acyclic :=
  fun x => (h x).not_onCycle

/-- Where every parent stands lower than its child, no way up comes back. -/
theorem acyclic_of_rank (rank : String → Nat) (h : ∀ x p, f.Step x p → rank p < rank x) : f.Acyclic := by
  have lower : ∀ x y, Relation.TransGen f.Step x y → rank y < rank x := by
    intro x y up
    induction up with
    | single step => exact h _ _ step
    | tail _ step ih => exact (h _ _ step).trans ih
  exact fun x cyclic => Nat.lt_irrefl _ (lower x x cyclic)

namespace AtLevel

theorem pos (h : f.AtLevel root x n) : 1 ≤ n := by
  cases h <;> omega

theorem reaches (h : f.AtLevel root x n) : f.Reaches x root := by
  induction h with
  | root => exact .refl
  | child _ step ih => exact .head step ih

theorem transGen (h : f.AtLevel root x n) (below : 2 ≤ n) : Relation.TransGen f.Step x root := by
  cases h with
  | root => omega
  | child above step => exact Relation.TransGen.head' step above.reaches

theorem unique (off : ¬ f.OnCycle root) (h : f.AtLevel root x n) (k : f.AtLevel root x m) :
    n = m := by
  induction h generalizing m with
  | root =>
      cases k with
      | root => rfl
      | child above step => exact absurd (Relation.TransGen.head' step above.reaches) off
  | child above step ih =>
      cases k with
      | root => exact absurd (Relation.TransGen.head' step above.reaches) off
      | child above' step' =>
          obtain rfl := step.unique step'
          rw [ih above']

end AtLevel

theorem exists_atLevel_iff : (∃ n, f.AtLevel root x n) ↔ f.Reaches x root := by
  constructor
  · intro got
    obtain ⟨n, h⟩ := got
    exact h.reaches
  · intro h
    induction h using Relation.ReflTransGen.head_induction_on with
    | refl => exact ⟨1, .root⟩
    | head step _ ih =>
        obtain ⟨n, above⟩ := ih
        exact ⟨n + 1, .child above step⟩

end Pointers
end TaskForest
