import TaskForest.Proofs.Hierarchy.Intact
import TaskForest.Proofs.Hierarchy.Move
import TaskForest.Proofs.Pointers.Height

/-!
Moves that are accepted. The way up from the new parent and the walk below the task are cut off at the greatest
level and may run into cycles themselves, but on an intact store they fail only where the move would break the
bound or close a cycle. So it is the pointers alone that decide whether a move succeeds, and one that does
changes one task in two fields.
-/

namespace TaskForest

open LinkedStore (pointers)
open OrderedStore (holds)
open ItemStore (items idOf encode Resembles)
open CodedStore (Lossless Replaces)

namespace Pointers.Admits

variable {f : Pointers} {m : Nat} {id p : String} {e : HierarchyError}

/-- The level below the task that is too deep would be too deep below the new parent all the more. -/
theorem not_structural (h : f.Admits m id p) (refuses : f.Refuses id m e) : e.isStructural = false := by
  cases e with
  | cycle x => exact absurd refuses.2 (admits_iff.1 h).2.2.2.2.1
  | tooDeep x =>
      have fits : ((m + 1 : Nat) : ℕ∞) ≤ m := le_add_self.trans (h.room x (m + 1) refuses)
      have absurdity : m + 1 ≤ m := by exact_mod_cast fits
      omega
  | subtreeChanged _ | store _ => rfl

theorem exists_lineage (h : f.Admits m id p) : ∃ as, f.Lineage (f.parent p) as ∧ as.length < m :=
  h.free.exists_lineage (le_self_add.trans (h.room id 1 .root))

theorem fits {subtree : Subtree} {above : List String} (h : f.Admits m id p)
    (lineage : f.Lineage (f.parent p) above) (spans : f.Spans id m subtree) :
    above.length + 1 + subtree.depth ≤ m := by
  obtain ⟨x, deepest⟩ := spans.depth.1
  have room := h.room x subtree.depth deepest
  rw [lineage.level_eq] at room
  exact_mod_cast room

end Pointers.Admits

namespace Intact

variable {σ : Type} [TaskStore σ] [CodedStore σ] {s s₁ : σ}

theorem moveCheck_yields (h : Intact s) (maxDepth : Nat) (id p : String) :
    Yields (Move.check maxDepth id p) s (fun _ s' => Resembles s' s)
      (fun _ _ => ¬ (pointers s).Admits maxDepth id p) := by
  rw [Move.check]
  refine .check (fun same admits => admits.apart (same ▸ .refl)) (fun _ => ?_)
  refine .bind (.lift ((h.get_yields p).mono ?_ (fun _ _ none => none.elim)))
  intro found s got
  obtain ⟨rfl, shown⟩ := got
  refine .check (fun missing admits => ?_) (fun _ => ?_)
  · obtain ⟨t, held, same⟩ := CodedStore.exists_held h.readable admits.stored
    rw [(shown t).2 ⟨held, same⟩] at missing
    cases missing
  refine .bind ((h.ancestors_yields maxDepth p).mono ?_ ?_)
  · intro above s got
    obtain ⟨rfl, lineage⟩ := got
    refine .check (fun below admits => ?_) (fun _ => ?_)
    · exact admits.apart (lineage.mem_iff_of_parent.1 below).2.to_reflTransGen
    refine .bind ((h.collect_yields maxDepth id).mono ?_ ?_)
    · intro subtree s' got
      obtain ⟨kept, spans⟩ := got
      change Yields (if _ then _ else _) _ _ _
      split
      · next deep => exact .throw fun admits => Nat.not_le.2 deep (admits.fits lineage spans)
      · exact .pure kept
    · intro e s' got admits
      obtain ⟨_, refuses, structural⟩ := got
      cases structural.symm.trans (admits.not_structural refuses)
  · intro e s' got admits
    obtain ⟨_, long⟩ := got
    obtain ⟨as, lineage, short⟩ := admits.exists_lineage
    exact Nat.not_le.2 short (long as lineage)

/-- What a move leaves that succeeds, and that it succeeds where it is admitted. -/
theorem reparent_yields (h : Intact s) (maxDepth : Nat) (now : Int64) (id : String)
    (parent : Option String) :
    Yields (reparent maxDepth now id parent) s
      (fun task s' => Intact s' ∧ Replaces s' s task ∧
        ∃ old, holds s old ∧ old.id = id ∧ task = { old with parent := parent, updatedAt := now })
      (fun _ _ => ¬ ((pointers s).Stored id ∧ (pointers s).AdmitsAt maxDepth id parent)) := by
  refine reparent_yields_of (fun old s₂ => Resembles s₂ s ∧ holds s old ∧ old.id = id) ?_ ?_
  · refine (h.get_yields id).mono ?_ (fun _ _ none => none.elim)
    intro found s got
    obtain ⟨rfl, shown⟩ := got
    refine ⟨fun missing admits => ?_, fun old here => ?_⟩
    · obtain ⟨t, held⟩ := CodedStore.exists_held h.readable admits.1
      cases ((shown t).2 held).symm.trans missing
    have kept := (shown old).1 here
    cases parent with
    | none => exact ⟨⟨rfl, rfl, rfl, h.faultless⟩, kept⟩
    | some p =>
        exact (h.moveCheck_yields maxDepth id p).mono (fun _ s₂ same => ⟨same, kept⟩)
          (fun _ _ refused admits => refused (admits.2 p rfl))
  · intro old s₂ got
    obtain ⟨same, held, named⟩ := got
    refine ((h.of_resembles same).update_yields _).mono ?_ ?_
    · intro _ s' got
      obtain ⟨replaced, intact⟩ := got
      exact ⟨intact, same.replaces replaced, old, held, named, rfl⟩
    · intro _ _ missing admits
      rw [same.pointers, named] at missing
      exact missing admits.1

end Intact

variable {σ : Type} [TaskStore σ] [CodedStore σ]

/-- A move below another task succeeds exactly if both tasks are stored and differ, the way up from the new parent
runs into no cycle and does not lead over the task, the task is on no cycle, and the level of the new parent and
the height of the task together stay within the bound. To take a task out of its tree it has to be stored only.
A move that succeeds answers with the task that it stored, in which the parent and the time of the update are new,
and leaves all other tasks as they were. -/
theorem reparent_succeeds_iff (s : σ) (h : Intact s) (maxDepth : Nat) (now : Int64) (id : String) :
    (∀ p, (∃ task s', reparent maxDepth now id (some p) s = .ok task s') ↔
      (pointers s).Stored id ∧ (pointers s).Stored p ∧ p ≠ id ∧ (pointers s).CycleFree p ∧
        ¬ Relation.TransGen (pointers s).Step p id ∧ ¬ (pointers s).OnCycle id ∧
        (pointers s).level p + (pointers s).height id ≤ maxDepth) ∧
    ((∃ task s', reparent maxDepth now id none s = .ok task s') ↔ (pointers s).Stored id) ∧
    ∀ parent task s', reparent maxDepth now id parent s = .ok task s' →
      (∃ old, holds s old ∧ old.id = id ∧ task = { old with parent := parent, updatedAt := now }) ∧
      items s' = (items s).map (fun a => if idOf a = id then encode s task else a) ∧
      (∀ u, u.id ≠ id → (holds s' u ↔ holds s u)) ∧
      (Lossless σ task → TaskStore.get id s' = .ok (some task) s') := by
  have outcome := fun parent => h.reparent_yields maxDepth now id parent
  have admitted : ∀ parent, (∃ task s', reparent maxDepth now id parent s = .ok task s') ↔
      (pointers s).Stored id ∧ (pointers s).AdmitsAt maxDepth id parent := by
    intro parent
    constructor
    · intro got
      obtain ⟨task, s', ok⟩ := got
      exact ((TaskForest.reparent_yields maxDepth now id parent s).of_ok ok).2
    · intro admits
      cases moved : reparent maxDepth now id parent s with
      | ok task s' => exact ⟨task, s', rfl⟩
      | error e s' => exact absurd admits ((outcome parent).of_error moved)
  refine ⟨fun p => ?_, ?_, fun parent task s' ok => ?_⟩
  · rw [admitted, ← Pointers.admits_iff]
    exact and_congr_right fun _ => ⟨fun fits => fits p rfl, fun fits _ same => Option.some.inj same ▸ fits⟩
  · rw [admitted]
    refine and_iff_left fun p same => ?_
    cases same
  · obtain ⟨intact, replaced, old, held, rfl, rfl⟩ := (outcome parent).of_ok ok
    have stored : (pointers s).Stored old.id := ((admitted parent).1 ⟨_, s', ok⟩).1
    exact ⟨⟨old, held, rfl, rfl⟩, replaced, fun u other => replaced.holds_iff other,
      intact.get_of_replaces replaced stored⟩

/-- A tree of two is moved below the lower task of another one. The bound is met exactly. -/
theorem reparent_succeeds_iff_of_four :
    let oak : Task := .new "oak" "Oak" 1
    let elm : Task := { Task.new "elm" "Elm" 2 with parent := some "oak" }
    let ash : Task := .new "ash" "Ash" 3
    let ivy : Task := { Task.new "ivy" "Ivy" 4 with parent := some "ash" }
    let store : Table := .ofList [oak, elm, ash, ivy]
    let moved : Task := { ash with parent := some "elm", updatedAt := 9 }
    (pointers store).level "elm" + (pointers store).height "ash" ≤ 4 ∧
    ¬ (pointers store).level "elm" + (pointers store).height "ash" ≤ 3 ∧
    (∃ task s', reparent 3 9 "ash" none store = .ok task s') ∧
    ∃ s', reparent 4 9 "ash" (some "elm") store = .ok moved s' ∧
      TaskStore.get "ash" s' = .ok (some moved) s' ∧ (holds s' ivy ↔ holds store ivy) := by
  intro oak elm ash ivy store moved
  have intact : Intact store := Table.intact_ofList _
  have refused : reparent 3 9 "ash" (some "elm") store = .error (.tooDeep "ash") store := by cbv
  obtain ⟨s', ok⟩ : ∃ s', reparent 4 9 "ash" (some "elm") store = .ok moved s' := ⟨_, by cbv⟩
  obtain ⟨below, _, leaves⟩ := reparent_succeeds_iff store intact 4 9 "ash"
  obtain ⟨lower, apart, _⟩ := reparent_succeeds_iff store intact 3 9 "ash"
  obtain ⟨stored, parent, ne, free, up, off, fits⟩ := (below "elm").1 ⟨_, _, ok⟩
  obtain ⟨_, _, others, back⟩ := leaves (some "elm") moved s' ok
  have storable : moved.Storable := by
    intro m given
    cases given
  refine ⟨fits, ?_, apart.2 stored, s', ok, back (Table.lossless storable), others ivy (by decide)⟩
  intro low
  obtain ⟨_, _, accepted⟩ := (lower "elm").2 ⟨stored, parent, ne, free, up, off, low⟩
  cases refused.symm.trans accepted

end TaskForest
