import TaskForest.Proofs.Hierarchy.Intact

/-!
Cycles as the walk down meets them. Levels do not run ahead of the visits, so a walk that is too deep has met more
ids than the greatest level says. On a cycle there is always one more child to visit, and the ids run out before
the levels do if as many levels are allowed as there are items. A walk from an id that is on no cycle never meets
one, not even if the id hangs below it.
-/

namespace TaskForest

open LinkedStore (pointers)
open ItemStore (items Resembles)

namespace Walk.Run

variable {f : Pointers} {root x : String} {maxDepth : Nat} {visited : List String}
  {stack rest : List Entry} {e : Entry} {children : List Task} {w : Walk}

/-- Every id above an entry of the stack was visited, and no id twice. -/
structure Paced (f : Pointers) (root : String) (visited : List String) (stack : List Entry) : Prop where
  nodup : visited.Nodup
  visited_below : ∀ x ∈ visited, f.Reaches x root
  stack_below : ∀ e ∈ stack, f.Reaches e.id root
  level_le : ∀ e ∈ stack, e.level ≤ visited.length + 1

theorem Paced.start (f : Pointers) (root : String) : Paced f root [] [⟨root, 1⟩] :=
  ⟨List.nodup_nil, by simp, by simpa using .refl, by simp⟩

theorem Paced.step (h : Paced f root visited (e :: rest)) (new : e.id ∉ visited)
    (shows : f.ShowsChildren e.id children) :
    Paced f root (e.id :: visited) (Walk.below e.level children ++ rest) := by
  have top_below := h.stack_below e List.mem_cons_self
  obtain ⟨top_le, rest_le⟩ := List.forall_mem_cons.1 h.level_le
  refine ⟨List.nodup_cons.2 ⟨new, h.nodup⟩, List.forall_mem_cons.2 ⟨top_below, h.visited_below⟩, ?_, ?_⟩
  · refine forall_mem_pushed (fun t ht => ?_) h.stack_below
    exact .head ((shows.2 t.id).1 (List.mem_map_of_mem ht)) top_below
  · rw [List.length_cons]
    refine List.forall_mem_append.2 ⟨fun e' he' => ?_, fun e' he' => ?_⟩
    · obtain ⟨t, _, rfl⟩ := mem_below.1 he'
      exact Nat.succ_le_succ top_le
    · exact Nat.le_succ_of_le (rest_le e' he')

theorem exists_many_of_tooDeep (h : Run f.Tells maxDepth visited stack w)
    (paced : Paced f root visited stack) (k : w.failure = some (.tooDeep x)) :
    ∃ ids : List String, ids.Nodup ∧ (∀ y ∈ ids, f.Reaches y root) ∧ maxDepth < ids.length := by
  induction h with
  | done | cycle _ | refused _ _ _ => cases k
  | @tooDeep visited e rest new deep =>
      refine ⟨e.id :: visited, List.nodup_cons.2 ⟨new, paced.nodup⟩, ?_, ?_⟩
      · exact List.forall_mem_cons.2 ⟨paced.stack_below e List.mem_cons_self, paced.visited_below⟩
      · exact Nat.lt_of_lt_of_le deep (paced.level_le e List.mem_cons_self)
  | visit new _ shows _ ih => exact ih (paced.step new shows) k

end Walk.Run

variable {σ : Type} [TaskStore σ] [ItemStore σ] {s : σ} {maxDepth : Nat} {root x : String}

/-- As many levels as there are items are enough for the ids of a walk from a stored id. -/
theorem not_tooDeep_of_items {w : Walk} (stored : (pointers s).Stored root)
    (run : Walk.Run (pointers s).Tells maxDepth [] [⟨root, 1⟩] w) (enough : (items s).length ≤ maxDepth) :
    w.failure ≠ some (.tooDeep x) := by
  intro deep
  obtain ⟨ids, nodup, below, many⟩ := run.exists_many_of_tooDeep (.start _ root) deep
  have few := ItemStore.length_le_items nodup fun y hy => (below y hy).stored stored
  omega

/-- Where nothing is in the way of a walk, it is a full one. -/
theorem Intact.exists_fullWalk (h : Intact s) (stored : (pointers s).Stored root)
    (off : ¬ (pointers s).OnCycle root) (enough : (items s).length ≤ maxDepth) :
    ∃ w s', fullWalk maxDepth root s = .ok w s' ∧ Resembles s' s ∧ w.failure = none ∧
      Walk.Run (pointers s).Tells maxDepth [] [⟨root, 1⟩] w := by
  have outcome := h.fullWalk_yields maxDepth root
  cases walked : fullWalk maxDepth root s with
  | ok w s' => exact ⟨w, s', rfl, outcome.of_ok walked⟩
  | error e s' =>
      obtain ⟨_, structural, w, failure, run⟩ := outcome.of_error walked
      cases e with
      | cycle x => exact absurd (run.refuses failure).2 off
      | tooDeep x => exact absurd failure (not_tooDeep_of_items stored run enough)
      | subtreeChanged _ | store _ => cases structural

/-- A walk reports a cycle only at its root, which is on one then. From an id on a cycle it never succeeds, and on
an intact store it reports the cycle if it may go down as many levels as there are items. From any other id it
reports none, even if the id hangs below one, and an id that is too deep is one child step below the last level. -/
theorem fullWalk_reports_own_cycle (s : σ) (maxDepth : Nat) (root : String) :
    (∀ x s', fullWalk maxDepth root s = .error (.cycle x) s' → x = root ∧ (pointers s).OnCycle root) ∧
    ((pointers s).OnCycle root →
      (∀ w s', fullWalk maxDepth root s ≠ .ok w s') ∧
      (Intact s → (items s).length ≤ maxDepth →
        ∃ s', fullWalk maxDepth root s = .error (.cycle root) s')) ∧
    (¬ (pointers s).OnCycle root → ∀ x s', fullWalk maxDepth root s ≠ .error (.cycle x) s') ∧
    ∀ x s', fullWalk maxDepth root s = .error (.tooDeep x) s' →
      (pointers s).AtLevel root x (maxDepth + 1) := by
  have refused : ∀ e s', fullWalk maxDepth root s = .error e s' →
      (pointers s).Refuses root maxDepth e :=
    fun e s' failed => ((fullWalk_refuses maxDepth root s).of_error failed).2
  have stopped : (pointers s).OnCycle root → ∀ w s', fullWalk maxDepth root s ≠ .ok w s' := by
    intro cyclic w s' ok
    obtain ⟨_, run, full⟩ :=
      (Walk.fullWalk_yields childrenOf_tells maxDepth root s rfl).of_ok ok
    exact run.root_not_onCycle full cyclic
  refine ⟨fun x s' => refused _ s', fun cyclic => ⟨stopped cyclic, fun h enough => ?_⟩, ?_,
    fun x s' => refused _ s'⟩
  · cases walked : fullWalk maxDepth root s with
    | ok w s' => exact absurd walked (stopped cyclic w s')
    | error e s' =>
        obtain ⟨_, structural, w, failure, run⟩ := (h.fullWalk_yields maxDepth root).of_error walked
        cases e with
        | cycle x =>
            obtain ⟨rfl, _⟩ := run.refuses failure
            exact ⟨s', rfl⟩
        | tooDeep x => exact absurd failure (not_tooDeep_of_items cyclic.stored run enough)
        | subtreeChanged _ | store _ => cases structural
  · intro off x s' failed
    exact off (refused _ s' failed).2

/-- A cycle of two, and a subtree of two that hangs below it. -/
theorem fullWalk_reports_own_cycle_of_two :
    let oak : Task := { Task.new "oak" "Oak" 1 with parent := some "elm" }
    let elm : Task := { Task.new "elm" "Elm" 2 with parent := some "oak" }
    let ash : Task := { Task.new "ash" "Ash" 3 with parent := some "elm" }
    let ivy : Task := { Task.new "ivy" "Ivy" 4 with parent := some "ash" }
    let store : Table := .ofList [oak, elm, ash, ivy]
    (∃ s', fullWalk 4 "oak" store = .error (.cycle "oak") s') ∧
    (∀ w s', fullWalk 1 "oak" store ≠ .ok w s') ∧
    (∀ x s', fullWalk 1 "ash" store ≠ .error (.cycle x) s') ∧
    ∃ s', fullWalk 1 "ash" store = .error (.tooDeep "ivy") s' ∧ (pointers store).AtLevel "ash" "ivy" 2 := by
  intro oak elm ash ivy store
  have intact : Intact store := Table.intact_ofList _
  have up : (pointers store).Step "oak" "elm" := by cbv
  have back : (pointers store).Step "elm" "oak" := by cbv
  have four : (items store).length ≤ 4 := by decide
  obtain ⟨w, s', walked⟩ : ∃ w s', fullWalk 4 "ash" store = .ok w s' := ⟨_, _, by cbv⟩
  obtain ⟨s₁, shallow⟩ : ∃ s', fullWalk 1 "ash" store = .error (.tooDeep "ivy") s' := ⟨_, by cbv⟩
  have off : ¬ (pointers store).OnCycle "ash" := fun cyclic =>
    ((fullWalk_reports_own_cycle store 4 "ash").2.1 cyclic).1 w s' walked
  obtain ⟨_, cyclic, _⟩ := fullWalk_reports_own_cycle store 4 "oak"
  obtain ⟨_, cyclic', _⟩ := fullWalk_reports_own_cycle store 1 "oak"
  obtain ⟨_, _, clear, deep⟩ := fullWalk_reports_own_cycle store 1 "ash"
  have round : (pointers store).OnCycle "oak" := .head up (.single back)
  exact ⟨(cyclic round).2 intact four, (cyclic' round).1, clear off, s₁, shallow, deep _ _ shallow⟩

end TaskForest
