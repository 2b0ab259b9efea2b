import TaskForest.Proofs.Hierarchy.Intact
import TaskForest.Proofs.Hierarchy.Failure
import TaskForest.Proofs.Store.Coded

/-!
Operations under a greater bound. A bound is asked about only where it would end an operation, which then fails
for a level; so an operation that ends in another way takes the same steps under every greater bound, whatever
the store. A move that is accepted is accepted then, and writes the same task at whatever time.
-/

namespace TaskForest

open LinkedStore (pointers)
open ItemStore (Faultless Resembles)
open CodedStore (Replaces)

variable {σ α β : Type}

/-- From every state, `low` fails for a level or `high` does the same. -/
def Widens (low high : HierarchyM σ α) : Prop :=
  ∀ s, (∃ id s', low s = .error (.tooDeep id) s') ∨ high s = low s

/-- The successes of `low`, and the cycles that it finds, are those of `high`. -/
structure Withstands (low high : HierarchyM σ α) (s : σ) : Prop where
  ok : ∀ a s', low s = .ok a s' → high s = .ok a s'
  cycle : ∀ id s', low s = .error (.cycle id) s' → high s = .error (.cycle id) s'

namespace Widens

variable {low high : HierarchyM σ α}

theorem same (m : HierarchyM σ α) : Widens m m := fun _ => .inr rfl

theorem tooDeep (id : String) : Widens (throw (.tooDeep id)) high := fun s => .inl ⟨id, s, rfl⟩

theorem bind {f g : α → HierarchyM σ β} (first : Widens low high) (next : ∀ a, Widens (f a) (g a)) :
    Widens (low >>= f) (high >>= g) := by
  intro s
  rcases first s with ⟨id, s', deep⟩ | same
  · exact .inl ⟨id, s', bind_of_error deep⟩
  · cases k : low s with
    | ok a s' =>
        rw [bind_of_ok k, bind_of_ok (same.trans k)]
        exact next a s'
    | error e s' => exact .inr ((bind_of_error (same.trans k)).trans (bind_of_error k).symm)

theorem map (f : α → β) (h : Widens low high) : Widens (f <$> low) (f <$> high) :=
  fun s => (h s).imp (fun ⟨id, s', deep⟩ => ⟨id, s', map_of_error deep⟩) map_congr_at

/-- A check in front of steps, which is made on both sides. -/
theorem check {c : Prop} [Decidable c] {e : HierarchyError} {f g : Unit → HierarchyM σ α}
    (good : ¬ c → Widens (f ()) (g ())) :
    Widens (if c then (throw e >>= f) else f ()) (if c then (throw e >>= g) else g ()) := by
  intro s
  split
  · exact .inr rfl
  · next h => exact good h s

theorem withstands (h : Widens low high) (s : σ) : Withstands low high s := by
  rcases h s with ⟨id, s', deep⟩ | same
  · refine ⟨fun a s₁ ok => ?_, fun x s₁ failed => ?_⟩
    · cases deep.symm.trans ok
    · cases deep.symm.trans failed
  · exact ⟨fun _ _ ok => same.trans ok, fun _ _ failed => same.trans failed⟩

end Widens

section Bounds

variable [TaskStore σ] {maxDepth greater : Nat}

theorem Ancestors.climb_widens {room more : Nat} (le : room ≤ more) (start : String) (seen : List String)
    (parent : Option String) :
    Widens (climb start room seen parent : HierarchyM σ _) (climb start more seen parent) := by
  induction room generalizing more seen parent with
  | zero =>
      unfold climb
      cases parent with
      | none => exact .same _
      | some id =>
          refine .bind (.same _) fun found => ?_
          cases found with
          | none => exact .same _
          | some task => exact .check fun _ => .tooDeep start
  | succ room ih =>
      obtain ⟨more, rfl⟩ := Nat.exists_eq_add_of_le' (Nat.le_trans (Nat.le_add_left 1 room) le)
      unfold climb
      cases parent with
      | none => exact .same _
      | some id =>
          refine .bind (.same _) fun found => ?_
          cases found with
          | none => exact .same _
          | some task =>
              exact .check fun _ =>
                .bind (ih (Nat.le_of_succ_le_succ le) (id :: seen) task.parent) fun _ => .same _

variable (le : maxDepth ≤ greater)
include le

theorem ancestors_widens (id : String) :
    Widens (ancestors maxDepth id : HierarchyM σ _) (ancestors greater id) :=
  .bind (.same _) fun _ => Ancestors.climb_widens (Nat.sub_le_sub_right le 1) id [id] _

/-- A turn of the loop that is not ended by the bound is the same turn under a greater one. -/
theorem Walk.drain_widens (visited : List String) (stack : List Entry) (s : σ) :
    (∃ id, (drain maxDepth visited stack s).1.failure = some (.tooDeep id)) ∨
      drain greater visited stack s = drain maxDepth visited stack s := by
  fun_induction drain maxDepth visited stack s with
  | case1 visited s => exact .inr (by rw [drain])
  | case2 visited s e rest seen =>
      refine .inr ?_
      rw [drain, if_pos seen]
  | case3 visited s e rest new low err s' k =>
      refine .inr ?_
      rw [drain, if_neg new, dif_pos (low.trans le), k]
  | case4 visited s e rest new low children s' k w s'' drained ih =>
      rw [drained] at ih
      refine ih.imp_right fun same => ?_
      rw [drain, if_neg new, dif_pos (low.trans le), k]
      simp only [same]
  | case5 visited s e rest new deep => exact .inl ⟨e.id, rfl⟩

theorem fullWalk_widens (root : String) :
    Widens (fullWalk maxDepth root : HierarchyM σ _) (fullWalk greater root) := by
  intro s
  simp only [fullWalk, walk]
  rcases Walk.drain_widens le [] [⟨root, 1⟩] s with ⟨id, deep⟩ | same
  · exact .inl ⟨id, (Walk.drain maxDepth [] [⟨root, 1⟩] s).2, by rw [deep]⟩
  · exact .inr (by rw [same])

theorem collect_widens (root : String) :
    Widens (collect maxDepth root : HierarchyM σ _) (collect greater root) :=
  .map _ (fullWalk_widens le root)

theorem loadTree_widens (root : String) :
    Widens (loadTree maxDepth root : HierarchyM σ _) (loadTree greater root) := by
  refine .bind (.same _) fun found => ?_
  cases found with
  | none => exact .same _
  | some task => exact .bind (fullWalk_widens le root) fun _ => .same _

theorem Move.check_widens (id parent : String) :
    Widens (check maxDepth id parent : HierarchyM σ _) (check greater id parent) := by
  unfold check
  refine .check fun _ => .bind (.same _) fun found => .check fun _ => ?_
  refine .bind (ancestors_widens le parent) fun above => .check fun _ => ?_
  refine .bind (collect_widens le id) fun subtree => ?_
  -- a sum that is not above the bound is not above a greater one
  split
  · exact .tooDeep id
  · next fits =>
      rw [if_neg (by omega)]
      exact .same _

theorem reparent_widens (now : Int64) (id : String) (parent : Option String) :
    Widens (reparent maxDepth now id parent : HierarchyM σ _) (reparent greater now id parent) := by
  refine .bind (.same _) fun found => ?_
  cases found with
  | none => exact .same _
  | some task =>
      cases parent with
      | none => exact .same _
      | some p => exact .bind (Move.check_widens le id p) fun _ => .same _

end Bounds

section Moves

variable [TaskStore σ] {maxDepth greater : Nat} {s : σ}

theorem ItemStore.looks_resemble [ItemStore σ] (s : σ) : LooksKeep fun s' => Resembles s' s where
  get id _ h := (get_tells id _).mono (fun _ _ got => got.1 ▸ h) (fun _ _ got => got.1 ▸ h)
  childrenOf id s' h :=
    (childrenOf_answered s id s' h).mono (fun _ _ got => got.1) (fun _ _ got => got.1)

/-- The second move looks where the first looked, and has the same task to write when it has looked. -/
theorem reparent_again [CodedStore σ] (le : maxDepth ≤ greater) (faultless : Faultless s) (id : String)
    (parent : Option String) (now later : Int64) :
    Yields (reparent maxDepth now id parent) s
      (fun task s₁ => task.id = id ∧ Replaces s₁ s task ∧
        ∃ s₂, reparent greater later id parent s = .ok { task with updatedAt := later } s₂ ∧
          Replaces s₂ s { task with updatedAt := later })
      (fun _ _ => True) := by
  have start : Resembles s s := ⟨rfl, rfl, rfl, faultless⟩
  refine reparent_yields_of (fun old s₂ => Resembles s₂ s ∧ old.id = id ∧ (pointers s).Stored id ∧
    reparent greater later id parent s = (do
      let moved := { old with parent := parent, updatedAt := later }
      (TaskStore.update moved : StoreM σ Unit)
      pure moved : HierarchyM σ Task) s₂) ?_ ?_
  · refine .intro (fun found s₁ k => ⟨fun _ => trivial, fun old here => ?_⟩) (fun _ _ _ => trivial)
    subst here
    obtain ⟨rfl, told⟩ := (ItemStore.get_tells id s).of_ok k
    obtain ⟨_, shows⟩ := (LinkedStore.get_yields id s₁).of_ok k
    have first : ∀ rest : Option Task → HierarchyM σ Task,
        ((TaskStore.get id : StoreM σ (Option Task)) >>= rest : HierarchyM σ Task) s₁ = rest (some old) s₁ :=
      fun _ => bind_of_ok (lift_of_ok k)
    cases parent with
    | none => exact ⟨start, shows.2 old rfl, shows.stored, first _⟩
    | some p =>
        have looked := (ItemStore.looks_resemble s₁).moveCheck maxDepth id p start
        refine .intro (fun _ s₂ checked => ?_) (fun _ _ _ => trivial)
        have again := ((Move.check_widens le id p).withstands s₁).ok _ _ checked
        exact ⟨looked.of_ok checked, shows.2 old rfl, shows.stored, (first _).trans (bind_of_ok again)⟩
  · intro old s₂ ready
    obtain ⟨looked, rfl, stored, again⟩ := ready
    refine (CodedStore.update_replaces _ looked.faultless).mono ?_ (fun _ _ _ => trivial)
    intro _ s₁ written
    refine ⟨rfl, looked.replaces written.1, ?_⟩
    have other := CodedStore.update_replaces { old with parent := parent, updatedAt := later } looked.faultless
    cases k : TaskStore.update { old with parent := parent, updatedAt := later } s₂ with
    | ok _ s₃ =>
        refine ⟨s₃, again.trans ((bind_of_ok (lift_of_ok k)).trans rfl), ?_⟩
        exact looked.replaces (other.of_ok k).1
    | error e s₃ => exact absurd (looked.pointers ▸ stored) (other.of_error k)

/-- What no level ended is not changed by a greater bound: a walk makes the same visits and ends in the same way,
the way up and the tree are the same, and so is a cycle that was found. A move that was accepted is accepted, and
a later one leaves the same items up to the time that it notes. -/
theorem greater_bound_agrees [CodedStore σ] (s : σ) (le : maxDepth ≤ greater) (id : String) :
    (∀ w s', walk maxDepth id s = (w, s') → (∀ x, w.failure ≠ some (.tooDeep x)) →
      walk greater id s = (w, s')) ∧
    Withstands (collect maxDepth id) (collect greater id) s ∧
    Withstands (ancestors maxDepth id) (ancestors greater id) s ∧
    Withstands (loadTree maxDepth id) (loadTree greater id) s ∧
    ∀ parent now task s₁, reparent maxDepth now id parent s = .ok task s₁ →
      reparent greater now id parent s = .ok task s₁ ∧
      (Faultless s → task.id = id ∧ Replaces s₁ s task ∧
        ∀ later, ∃ s₂, reparent greater later id parent s = .ok { task with updatedAt := later } s₂ ∧
          Replaces s₂ s { task with updatedAt := later }) := by
  refine ⟨fun w s' walked notDeep => ?_, (collect_widens le id).withstands s,
    (ancestors_widens le id).withstands s, (loadTree_widens le id).withstands s, ?_⟩
  · rcases Walk.drain_widens le [] [⟨id, 1⟩] s with ⟨x, deep⟩ | same
    · rw [← walk, walked] at deep
      exact absurd deep (notDeep x)
    · exact Eq.trans same walked
  · intro parent now task s₁ moved
    refine ⟨((reparent_widens le now id parent).withstands s).ok task s₁ moved, fun faultless => ?_⟩
    have again := fun later => (reparent_again le faultless id parent now later).of_ok moved
    exact ⟨(again now).1, (again now).2.1, fun later => (again later).2.2⟩

/-- A tree of two, a tree of one that is moved below the root of the other, and a cycle. -/
theorem greater_bound_agrees_of_five :
    let oak : Task := .new "oak" "Oak" 1
    let ash : Task := { Task.new "ash" "Ash" 2 with parent := some "oak" }
    let elm : Task := .new "elm" "Elm" 3
    let ivy : Task := { Task.new "ivy" "Ivy" 4 with parent := some "fir" }
    let fir : Task := { Task.new "fir" "Fir" 5 with parent := some "ivy" }
    let store : InMemory := .ofList [oak, ash, elm, ivy, fir]
    let twice := store.countQuery.countQuery
    2 ≤ 100 ∧ Faultless store ∧
    (walk 100 "ivy" store).1.ids = ["ivy", "fir"] ∧
    collect 100 "ivy" store = .error (.cycle "ivy") twice ∧
    ancestors 100 "ash" store = .ok ["oak"] store ∧
    loadTree 100 "oak" store = .ok (some (.node oak [.node ash []])) twice ∧
    ∃ left, reparent 100 9 "elm" (some "oak") store =
        .ok { elm with parent := some "oak", updatedAt := 9 } left ∧
      left.records.tasks = [fir, ivy, { elm with parent := some "oak", updatedAt := 9 }, ash, oak] := by
  intro oak ash elm ivy fir store twice
  have le : 2 ≤ 100 := by decide
  have faultless : Faultless store := by cbv
  have cyclic : collect 2 "ivy" store = .error (.cycle "ivy") twice := by cbv
  have climbed : ancestors 2 "ash" store = .ok ["oak"] store := by cbv
  have loaded : loadTree 2 "oak" store = .ok (some (.node oak [.node ash []])) twice := by cbv
  have accepted : reparent 2 7 "elm" (some "oak") store =
      .ok { elm with parent := some "oak", updatedAt := 7 } (InMemory.countQuery
        (.ofList [oak, ash, { elm with parent := some "oak", updatedAt := 7 }, ivy, fir])) := by cbv
  have failure : (walk 2 "ivy" store).1.failure = some (.cycle "ivy") := by cbv
  have walked : walk 100 "ivy" store = walk 2 "ivy" store := by
    refine (greater_bound_agrees store le "ivy").1 _ _ rfl fun x deep => ?_
    cases failure.symm.trans deep
  obtain ⟨_, faultlessly⟩ := (greater_bound_agrees store le "elm").2.2.2.2 _ _ _ _ accepted
  obtain ⟨left, again, replaced⟩ := (faultlessly faultless).2.2 9
  refine ⟨le, faultless, ?_, (greater_bound_agrees store le "ivy").2.1.cycle _ _ cyclic,
    (greater_bound_agrees store le "ash").2.2.1.ok _ _ climbed,
    (greater_bound_agrees store le "oak").2.2.2.1.ok _ _ loaded, left, again, Eq.trans replaced ?_⟩
  · rw [walked]
    cbv
  · cbv

end Moves

end TaskForest
