import Mathlib
import TaskForest.Proofs.Store.Shared
import TaskForest.Proofs.Store.Table

/-!
Cycles that a walk reports while other clients call the store. The walk takes an id that it meets twice for a cycle,
but its answers are about different states: an id that is moved in between is listed by the old parent and by the new
one. So the id of a report is the root, or it was moved; and nothing is reported if the parents of all states
together form no cycle.
-/

namespace TaskForest

open LinkedStore (pointers)

/-- What stands twice in lists without repetitions stands in two of them. -/
theorem exists_pair_of_count {α : Type} {x : String} {l : List α} {f : α → List String}
    (once : ∀ a ∈ l, (f a).Nodup) (twice : 2 ≤ (l.flatMap f).count x) :
    ∃ a b, [a, b].Sublist l ∧ x ∈ f a ∧ x ∈ f b := by
  induction l with
  | nil => cases twice
  | cons a rest ih =>
      rw [List.flatMap_cons, List.count_append] at twice
      obtain ⟨first, others⟩ := List.forall_mem_cons.1 once
      by_cases listed : x ∈ f a
      · have one := List.nodup_iff_count_le_one.1 first x
        have again : 0 < (rest.flatMap f).count x := by omega
        obtain ⟨b, hb, also⟩ := List.mem_flatMap.1 (List.count_pos_iff.1 again)
        exact ⟨a, b, (List.singleton_sublist.2 hb).cons_cons a, listed, also⟩
      · rw [List.count_eq_zero_of_not_mem listed, Nat.zero_add] at twice
        obtain ⟨b, b', pair, both⟩ := ih others twice
        exact ⟨b, b', pair.cons a, both⟩

namespace Walk

variable {Answer : String → Except StoreError (List Task) → Prop} {maxDepth : Nat}
  {visited : List String} {stack : List Entry} {w : Walk} {root x : String}

/-- The ids that the visits were told of. -/
def listed (w : Walk) : List String := w.visits.flatMap fun v => v.children.map Task.id

namespace Run

/-- Every id that is met was on the stack or is listed, once for each time that it is met. -/
theorem two_le_count (h : Run Answer maxDepth visited stack w) (k : w.failure = some (.cycle x)) :
    2 ≤ visited.count x + (stack.map Entry.id).count x + w.listed.count x := by
  induction h with
  | done | tooDeep _ _ | refused _ _ _ => cases k
  | cycle seen =>
      cases k
      have before := List.count_pos_iff.2 seen
      rw [List.map_cons, List.count_cons_self]
      omega
  | @visit visited e rest children w new le answer next ih =>
      have later := ih k
      have told : (w.visiting ⟨e.id, e.level, children⟩).listed = children.map Task.id ++ w.listed := rfl
      rw [List.map_append, map_id_below, List.count_append, List.count_cons] at later
      rw [told, List.map_cons, List.count_append, List.count_cons]
      omega

/-- Two visits listed the id of a report, unless it is that of the root. -/
theorem exists_two_visits (h : Run Answer maxDepth [] [⟨root, 1⟩] w)
    (once : ∀ id children, Answer id (.ok children) → (children.map Task.id).Nodup)
    (k : w.failure = some (.cycle x)) (other : x ≠ root) :
    ∃ v ∈ w.visits, ∃ u ∈ w.visits, v.id ≠ u.id ∧ x ∈ v.children.map Task.id ∧ x ∈ u.children.map Task.id := by
  have twice : 2 ≤ w.listed.count x := by simpa [other.symm] using h.two_le_count k
  obtain ⟨v, u, pair, both⟩ := exists_pair_of_count
    (fun v hv => once v.id v.children (h.visit_le_and_answered v hv).2) twice
  have distinct := (pair.map Visit.id).nodup h.nodup.1
  refine ⟨v, pair.subset (by simp), u, pair.subset (by simp), ?_, both⟩
  simpa using distinct

/-- The id of a report hangs below the root, link by link as the answers have it. -/
theorem transGen_of_cycle {Link : String → String → Prop} (h : Run Answer maxDepth [] [⟨root, 1⟩] w)
    (link : ∀ id children, Answer id (.ok children) → ∀ t ∈ children, Link t.id id)
    (k : w.failure = some (.cycle x)) : Relation.TransGen Link x root := by
  cases h with
  | cycle seen => cases seen
  | tooDeep _ _ | refused _ _ _ => cases k
  | visit new le answer next =>
      have met := next.forall_met (Q := fun id _ => Relation.TransGen Link id root)
        (fun id _ children below _ told t ht => .head (link id children told t ht) below) ?_
      · obtain ⟨_, below⟩ := met.2 _ k
        exact below
      · intro e he
        rw [List.append_nil] at he
        obtain ⟨t, ht, rfl⟩ := mem_below.1 he
        exact .single (link root _ answer t ht)

end Run
end Walk

theorem InMemory.acyclic_of_rank {s : InMemory} (rank : String → Nat)
    (h : (s.records.tasks.all fun t => t.parent.all fun p => rank p < rank t.id) = true) :
    (pointers s).Acyclic := by
  refine Pointers.acyclic_of_rank rank fun x p step => ?_
  obtain ⟨t, ht, rfl, parent⟩ := Records.parents_step.1 step
  have lower := List.all_eq_true.1 h t ht
  rw [parent] at lower
  exact of_decide_eq_true lower

variable {σ : Type} [TaskStore σ] [LinkedStore σ]

/-- While other clients call the store, a walk reports only its root or an id that had two parents, one after the
other. It reports nothing if the parents that ids had in any of the states are those of one set of pointers without
a cycle. -/
theorem cycle_report_amid_calls (maxDepth : Nat) (root : String) (s : σ) (calls : List (List Call)) :
    let walked := walk maxDepth root (⟨s, calls, []⟩ : Shared σ)
    (∀ x, walked.1.failure = some (.cycle x) → x ≠ root →
      ∃ p q, p ≠ q ∧ walked.2.HadParent x p ∧ walked.2.HadParent x q) ∧
    ∀ f : Pointers, f.Acyclic → (∀ x p, walked.2.HadParent x p → f.Step x p) →
      ∀ x, walked.1.failure ≠ some (.cycle x) := by
  intro walked
  have run : Walk.Run walked.2.Tells maxDepth [] [⟨root, 1⟩] walked.1 :=
    (Shared.drain_run maxDepth [] [⟨root, 1⟩] ⟨s, calls, []⟩).2
  have moved : ∀ x, walked.1.failure = some (.cycle x) → x ≠ root →
      ∃ p q, p ≠ q ∧ walked.2.HadParent x p ∧ walked.2.HadParent x q := by
    intro x report other
    obtain ⟨v, hv, u, hu, apart, under_v, under_u⟩ :=
      run.exists_two_visits (fun _ _ told => told.nodup) report other
    have had : ∀ v ∈ walked.1.visits, x ∈ v.children.map Task.id → walked.2.HadParent x v.id := by
      intro v hv under
      obtain ⟨t, ht, rfl⟩ := List.mem_map.1 under
      exact (run.visit_le_and_answered v hv).2.hadParent ht
    exact ⟨v.id, u.id, apart, had v hv under_v, had u hu under_u⟩
  refine ⟨moved, fun f acyclic together x report => ?_⟩
  by_cases same : x = root
  · subst same
    have round := run.transGen_of_cycle (fun _ _ told _ ht => told.hadParent ht) report
    exact acyclic x (Relation.TransGen.mono together x x round)
  · obtain ⟨p, q, apart, before, behind⟩ := moved x report same
    exact apart ((together x p before).unique (together x q behind))

/-- A bud is moved to the branch that the walk comes to last, and in another run one more tree is made. -/
theorem cycle_report_amid_calls_of_four :
    let oak : Task := .new "oak" "Oak" 1
    let ash : Task := { Task.new "ash" "Ash" 2 with parent := some "oak" }
    let elm : Task := { Task.new "elm" "Elm" 3 with parent := some "oak" }
    let bud : Task := { Task.new "bud" "Bud" 4 with parent := some "ash" }
    let move : Call := .update { bud with parent := some "elm" }
    let moving : Shared Table := ⟨.ofList [oak, ash, elm, bud], [[], [], [], [move]], []⟩
    let growing : Shared InMemory := ⟨.ofList [oak], [[.create ash]], []⟩
    (∃ p q, p ≠ q ∧ (walk 3 "oak" moving).2.HadParent "bud" p ∧ (walk 3 "oak" moving).2.HadParent "bud" q) ∧
    (walk 3 "oak" growing).1.ids = ["oak", "ash"] ∧
    ∀ x, (walk 3 "oak" growing).1.failure ≠ some (.cycle x) := by
  intro oak ash elm bud move moving growing
  have report : (walk 3 "oak" moving).1.failure = some (.cycle "bud") := by cbv
  have left : (walk 3 "oak" growing).2.store.records.tasks = [ash, oak] := by cbv
  have states : (walk 3 "oak" growing).2.states.map (fun s => s.records.tasks) =
      [[oak], [ash, oak], [ash, oak]] := by cbv
  have acyclic : (pointers (walk 3 "oak" growing).2.store).Acyclic :=
    InMemory.acyclic_of_rank (fun x => if x = "oak" then 0 else 1) (by cbv)
  refine ⟨(cycle_report_amid_calls 3 "oak" _ _).1 "bud" report (by decide), by cbv,
    (cycle_report_amid_calls 3 "oak" _ _).2 _ acyclic fun x p had => ?_⟩
  obtain ⟨s, hs, step⟩ := had
  obtain ⟨t, ht, same⟩ := Records.parents_step.1 step
  have kept : ∀ tasks ∈ (walk 3 "oak" growing).2.states.map (fun s => s.records.tasks), tasks ⊆ [ash, oak] := by
    rw [states]
    simp
  refine Records.parents_step.2 ⟨t, ?_, same⟩
  rw [left]
  exact kept _ (List.mem_map_of_mem hs) ht

/-- Right before the walk asks for the children of the elm, the bud is moved from the ash to the elm, so it is listed
twice. There is no cycle in any state, and the report says that trying again does not help; but it does. -/
theorem cycle_reported_in_forest :
    let oak : Task := .new "oak" "Oak" 1
    let ash : Task := { Task.new "ash" "Ash" 2 with parent := some "oak" }
    let elm : Task := { Task.new "elm" "Elm" 3 with parent := some "oak" }
    let bud : Task := { Task.new "bud" "Bud" 4 with parent := some "ash" }
    let move : Call := .update { bud with parent := some "elm" }
    let moving : Shared InMemory := ⟨.ofList [oak, ash, elm, bud], [[], [], [], [move]], []⟩
    (walk 3 "oak" moving).1.failure = some (.cycle "bud") ∧
    (∀ s ∈ (walk 3 "oak" moving).2.states, (pointers s).Acyclic) ∧
    (pointers (walk 3 "oak" moving).2.store).Acyclic ∧
    (HierarchyError.cycle "bud").isRetryable = false ∧
    (walk 3 "oak" (walk 3 "oak" moving).2).1.failure = none ∧
    (walk 3 "oak" (walk 3 "oak" moving).2).1.ids = ["oak", "ash", "elm", "bud"] := by
  intro oak ash elm bud move moving
  let rank : String → Nat := fun x => if x = "oak" then 0 else if x = "bud" then 2 else 1
  have ranked : ((walk 3 "oak" moving).2.states.all fun s =>
      s.records.tasks.all fun t => t.parent.all fun p => rank p < rank t.id) = true := by cbv
  exact ⟨by cbv, fun s hs => InMemory.acyclic_of_rank rank (List.all_eq_true.1 ranked s hs),
    InMemory.acyclic_of_rank rank (by cbv), rfl, by cbv, by cbv⟩

end TaskForest
