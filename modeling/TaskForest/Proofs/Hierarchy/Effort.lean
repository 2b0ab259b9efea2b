import TaskForest.Proofs.Hierarchy.Cycles
import TaskForest.Proofs.Hierarchy.Move
import TaskForest.Proofs.Store.Logged

/-!
What a walk takes. It asks for the children of every id that it visits and asks once, the root is the only one of
them that need not be stored, and no level runs ahead of the number of visits. So neither the queries nor the
levels depend on the bound, however great it is, and what a move adds up stays within the number of items.
-/

namespace TaskForest

open LinkedStore (pointers)
open ItemStore (items idOf)

namespace Walk

variable {f : Pointers} {root : String} {maxDepth k : Nat} {visited asked : List String} {stack : List Entry}
  {w : Walk}

/-- The ids whose children a walk asked for. The last of them has no visit if the query failed. -/
structure Asks (f : Pointers) (root : String) (visited : List String) (w : Walk) (asked : List String) :
    Prop where
  nodup : asked.Nodup
  new : ∀ x ∈ asked, x ∉ visited
  below : ∀ x ∈ asked, f.Reaches x root
  ids : asked = w.ids ∨ ∃ x e, asked = w.ids ++ [x] ∧ w.failure = some (.store e)

namespace Asks

theorem nothing (h : w.ids = []) : Asks f root visited w [] :=
  ⟨List.nodup_nil, by simp, by simp, .inl h.symm⟩

theorem refused {x : String} {e : StoreError} (new : x ∉ visited) (below : f.Reaches x root) :
    Asks f root visited (stopped (.store e)) [x] :=
  ⟨List.nodup_singleton x, by simpa using new, by simpa using below, .inr ⟨x, e, rfl, rfl⟩⟩

theorem visiting {v : Visit} (h : Asks f root (v.id :: visited) w asked) (new : v.id ∉ visited)
    (below : f.Reaches v.id root) : Asks f root visited (w.visiting v) (v.id :: asked) where
  nodup := List.nodup_cons.2 ⟨fun again => h.new v.id again List.mem_cons_self, h.nodup⟩
  new := List.forall_mem_cons.2 ⟨new, fun x hx before => h.new x hx (List.mem_cons_of_mem _ before)⟩
  below := List.forall_mem_cons.2 ⟨below, h.below⟩
  ids := by
    rcases h.ids with same | ⟨x, e, same, failed⟩
    · exact .inl (by rw [same, ids_visiting])
    · exact .inr ⟨x, e, by rw [same, ids_visiting, List.cons_append], failed⟩

theorem ids_length_le (h : Asks f root visited w asked) : w.ids.length ≤ asked.length := by
  rcases h.ids with same | ⟨x, e, same, _⟩
  · rw [same]
  · rw [same, List.length_append]
    exact Nat.le_add_right _ _

/-- Only the root may be asked of without being stored. -/
theorem length_le {σ : Type} [TaskStore σ] [ItemStore σ] {s : σ}
    (h : Asks (pointers s) root visited w asked) : asked.length ≤ (items s).length + 1 := by
  have listed : asked ⊆ root :: (items s).map idOf := by
    intro x hx
    rcases (h.below x hx).eq_or_stored with rfl | stored
    · exact List.mem_cons_self
    · exact List.mem_cons_of_mem _ ((ItemStore.stored_iff s x).1 stored)
  simpa using (List.subperm_of_subset h.nodup listed).length_le

end Asks

theorem Run.level_le_visits (h : Run f.Tells maxDepth visited stack w)
    (paced : Run.Paced f root visited stack) :
    ∀ v ∈ w.visits, v.level ≤ visited.length + w.ids.length := by
  induction h with
  | done => simp
  | cycle _ | tooDeep _ _ | refused _ _ _ => simp [stopped]
  | @visit visited e rest children w new le answer next ih =>
      have top := paced.level_le e List.mem_cons_self
      have behind := ih (paced.step new answer)
      rw [visits_visiting, ids_visiting, List.length_cons, List.forall_mem_cons]
      rw [List.length_cons] at behind
      exact ⟨top.trans (by omega), fun v hv => (behind v hv).trans (by omega)⟩

theorem depth_le (h : ∀ v ∈ w.visits, v.level ≤ k) : w.depth ≤ k := by
  by_cases nothing : w.visits = []
  · simp [depth, nothing]
  · obtain ⟨v, hv, deepest⟩ := exists_level_eq_depth nothing
    exact deepest ▸ h v hv

theorem Run.level_le_ids (h : Run f.Tells maxDepth [] [⟨root, 1⟩] w) :
    ∀ v ∈ w.visits, v.level ≤ w.ids.length := by
  simpa using h.level_le_visits (.start f root)

variable {σ : Type} [TaskStore σ]

/-- On a store that notes its queries the loop goes as it goes on the store itself, and notes one for each id. -/
theorem drain_asks [LinkedStore σ] (maxDepth : Nat) (visited : List String) (stack : List Entry) (s : σ)
    (log : List (Selection × SortOrder)) (same : pointers s = f) (paced : Run.Paced f root visited stack) :
    ∃ asked, Asks f root visited (drain maxDepth visited stack s).1 asked ∧
      drain maxDepth visited stack (⟨s, log⟩ : Logged σ) =
        ((drain maxDepth visited stack s).1,
          ⟨(drain maxDepth visited stack s).2, log ++ asked.map Logged.asking⟩) := by
  -- along the turns of the loop: `paced` is kept by a visit, and says that what is on the stack leads to the root
  fun_induction drain maxDepth visited stack s generalizing log with
  | case1 visited s =>
      refine ⟨[], .nothing rfl, ?_⟩
      rw [drain, List.map_nil, List.append_nil]
  | case2 visited s e rest seen =>
      refine ⟨[], .nothing rfl, ?_⟩
      rw [drain, if_pos seen, List.map_nil, List.append_nil]
  | case3 visited s e rest new le err s' k =>
      refine ⟨[e.id], .refused new (paced.stack_below e List.mem_cons_self), ?_⟩
      rw [drain, if_neg new, dif_pos le, Logged.childrenOf_eq, k]
      rfl
  | case4 visited s e rest new le children s' k w s'' drained ih =>
      obtain ⟨kept, shows⟩ := (childrenOf_tells e.id s same).of_ok k
      obtain ⟨asked, asks, logged⟩ := ih (log ++ [Logged.asking e.id]) kept (paced.step new shows)
      rw [drained] at asks logged
      refine ⟨e.id :: asked, asks.visiting new (paced.stack_below e List.mem_cons_self), ?_⟩
      rw [drain, if_neg new, dif_pos le, Logged.childrenOf_eq, k]
      simp only [Logged.withLog, logged, List.append_assoc, List.singleton_append, List.map_cons]
  | case5 visited s e rest new deep =>
      refine ⟨[], .nothing rfl, ?_⟩
      rw [drain, if_neg new, dif_neg deep, List.map_nil, List.append_nil]

end Walk

/-- What leads up from the new parent and what hangs below the task have no id in common. -/
theorem Pointers.Spans.nodup_append {f : Pointers} {maxDepth : Nat} {id p : String} {above : List String}
    {subtree : Subtree} (spans : f.Spans id maxDepth subtree) (lineage : f.Lineage (f.parent p) above)
    (apart : ¬ f.Reaches p id) : (p :: above ++ subtree.ids).Nodup := by
  refine List.nodup_append.2 ⟨List.nodup_cons.2 ⟨lineage.notMem_self, lineage.nodup⟩, spans.nodup, ?_⟩
  intro x hx y hy same
  subst same
  have below : f.Reaches x id := (spans.mem_iff x).1 hy
  rcases List.mem_cons.1 hx with rfl | hx
  · exact apart below
  · exact apart ((lineage.mem_iff_of_parent.1 hx).2.to_reflTransGen.trans below)

section Sums

variable {σ : Type} [TaskStore σ] {s left : σ} {maxDepth : Nat} {id parent : String} {above : List String}
  {subtree : Subtree}

/-- What the check of a move has found when it comes to its last step: the ids above the new parent, and the subtree
of the task. -/
structure Move.Weighs (maxDepth : Nat) (id parent : String) (s : σ) (above : List String) (subtree : Subtree)
    (left : σ) : Prop where
  other : parent ≠ id
  apart : id ∉ above
  found : ∃ task s₁ s₂, TaskStore.get parent s = .ok (some task) s₁ ∧
    ancestors maxDepth parent s₁ = .ok above s₂ ∧ collect maxDepth id s₂ = .ok subtree left

/-- The last step adds up what was found and compares it with the bound. -/
theorem Move.Weighs.check_eq (h : Weighs maxDepth id parent s above subtree left) :
    Move.check maxDepth id parent s =
      if maxDepth < above.length + 1 + subtree.depth then .error (.tooDeep id) left else .ok () left := by
  obtain ⟨task, s₁, s₂, got, climbed, walked⟩ := h.found
  have here : ¬ (some task).isNone = true := by simp
  simp only [Move.check, if_neg h.other, bind_of_ok (lift_of_ok got), if_neg here, bind_of_ok climbed,
    if_neg h.apart, bind_of_ok walked]
  split <;> rfl

theorem collect_depth_le [LinkedStore σ] (maxDepth : Nat) (id : String) (s : σ) :
    Yields (collect maxDepth id) s
      (fun subtree _ => (pointers s).Spans id maxDepth subtree ∧ subtree.depth ≤ subtree.ids.length)
      (fun _ _ => True) := by
  refine .map ((Walk.fullWalk_yields childrenOf_tells maxDepth id s rfl).mono ?_ (fun _ _ _ => trivial))
  intro w _ got
  obtain ⟨_, run, full⟩ := got
  exact ⟨run.subtree_spans full, Walk.depth_le run.level_le_ids⟩

theorem Move.Weighs.sum_le [ItemStore σ] (h : Weighs maxDepth id parent s above subtree left)
    (stored : (pointers s).Stored id) : above.length + 1 + subtree.depth ≤ (items s).length := by
  obtain ⟨task, s₁, s₂, got, climbed, walked⟩ := h.found
  obtain ⟨kept₁, shows⟩ := (LinkedStore.get_yields parent s).of_ok got
  obtain ⟨kept₂, lineage⟩ := (ancestors_yields maxDepth parent s₁).of_ok climbed
  obtain ⟨spans, low⟩ := (collect_depth_le maxDepth id s₂).of_ok walked
  rw [kept₁] at kept₂ lineage
  rw [kept₂] at spans
  have apart : ¬ (pointers s).Reaches parent id := fun up =>
    h.apart ((lineage.mem_iff_reaches stored h.other).2 up)
  have all : ∀ x ∈ parent :: above ++ subtree.ids, (pointers s).Stored x := by
    refine List.forall_mem_append.2 ⟨List.forall_mem_cons.2 ⟨shows.stored, fun x hx => ?_⟩, fun x hx => ?_⟩
    · exact (lineage.mem_iff_of_parent.1 hx).1
    · exact ((spans.mem_iff x).1 hx).stored stored
  have few := ItemStore.length_le_items (spans.nodup_append lineage apart) all
  rw [List.length_append, List.length_cons] at few
  exact (Nat.add_le_add_left low _).trans few

end Sums

/-- Counts whose sum is a machine word can be added as machine words. -/
theorem toNat_ofNat_add {a b : Nat} (small : a + b < UInt64.size) :
    (UInt64.ofNat a + UInt64.ofNat b).toNat = a + b := by
  rw [← UInt64.ofNat_add, UInt64.toNat_ofNat_of_lt' small]

variable {σ : Type} [TaskStore σ] [ItemStore σ]

/-- A walk visits no id twice, and asks once for the children of each id that it visits: these are the queries that
a store notes, and they are at most one more than the items, whatever the bound. The level of a visit, and the one
below it, are within two of the number of items. What the check of a move adds up, to compare it with the bound, is
within that number. If two more than the items can be counted in a machine word, none of these sums overflows. -/
theorem walk_effort (s : σ) (root : String) (maxDepth : Nat) :
    (∃ w left visited, walk maxDepth root s = (w, left) ∧
      walk maxDepth root (⟨s, []⟩ : Logged σ) = (w, ⟨left, visited.map Logged.asking⟩) ∧
      visited.Nodup ∧ visited.length ≤ (items s).length + 1 ∧
      (visited = w.ids ∨ ∃ x e, visited = w.ids ++ [x] ∧ w.failure = some (.store e)) ∧
      ∀ v ∈ w.visits, v.level + 1 ≤ (items s).length + 2 ∧
        ((items s).length + 2 < UInt64.size →
          (UInt64.ofNat v.level + UInt64.ofNat 1).toNat = v.level + 1)) ∧
    ∀ parent above subtree left, (pointers s).Stored root →
      Move.Weighs maxDepth root parent s above subtree left →
      Move.check maxDepth root parent s =
        (if maxDepth < above.length + 1 + subtree.depth then .error (.tooDeep root) left else .ok () left) ∧
      above.length + 1 + subtree.depth ≤ (items s).length ∧
      ((items s).length + 2 < UInt64.size →
        (UInt64.ofNat (above.length + 1) + UInt64.ofNat subtree.depth).toNat =
          above.length + 1 + subtree.depth) := by
  obtain ⟨visited, asks, logged⟩ := Walk.drain_asks maxDepth [] [⟨root, 1⟩] s [] rfl (.start _ root)
  obtain ⟨_, run⟩ := Walk.drain_run childrenOf_tells maxDepth [] [⟨root, 1⟩] s rfl
  refine ⟨⟨_, _, visited, rfl, logged, asks.nodup, asks.length_le, asks.ids, fun v hv => ?_⟩, ?_⟩
  · have low : v.level + 1 ≤ (items s).length + 2 :=
      Nat.succ_le_succ ((run.level_le_ids v hv).trans (asks.ids_length_le.trans asks.length_le))
    exact ⟨low, fun small => toNat_ofNat_add (low.trans_lt small)⟩
  · intro parent above subtree left stored weighs
    have low := weighs.sum_le stored
    exact ⟨weighs.check_eq, low, fun small => toNat_ofNat_add (by omega)⟩

/-- A cycle of two with a task below it, a task that is its own parent, and a chain of two whose pointer dangles. The
walk into the cycle is stopped after two queries; the move adds up two levels and one. -/
theorem walk_effort_of_six :
    let oak : Task := { Task.new "oak" "Oak" 1 with parent := some "elm" }
    let elm : Task := { Task.new "elm" "Elm" 2 with parent := some "oak" }
    let ash : Task := { Task.new "ash" "Ash" 3 with parent := some "elm" }
    let fir : Task := { Task.new "fir" "Fir" 4 with parent := some "fir" }
    let ivy : Task := { Task.new "ivy" "Ivy" 5 with parent := some "ghost" }
    let bud : Task := { Task.new "bud" "Bud" 6 with parent := some "ivy" }
    let store : InMemory := .ofList [oak, elm, ash, fir, ivy, bud]
    let bound := UInt64.size - 1
    (∃ visited : List String, visited = ["oak", "elm"] ∧ visited.Nodup ∧
      (walk bound "oak" (⟨store, []⟩ : Logged InMemory)).2.asked = visited.map Logged.asking) ∧
    ∃ left, Move.check bound "ash" "bud" store = .ok () left ∧
      (UInt64.ofNat 2 + UInt64.ofNat 1).toNat = 2 + 1 := by
  intro oak elm ash fir ivy bud store bound
  have ids : (walk bound "oak" store).1.ids = ["oak", "elm"] := by cbv
  have stopped : (walk bound "oak" store).1.failure = some (.cycle "oak") := by cbv
  have held : (pointers store).Stored "ash" := (ItemStore.stored_iff store "ash").2 (by decide +kernel)
  have six : (items store).length + 2 < UInt64.size := by decide +kernel
  obtain ⟨left, walked⟩ : ∃ left, collect bound "ash" store = .ok ⟨["ash"], 1⟩ left := ⟨_, by cbv⟩
  have weighs : Move.Weighs bound "ash" "bud" store ["ivy"] ⟨["ash"], 1⟩ left :=
    ⟨by decide, by decide, bud, store, store, by cbv, by cbv, walked⟩
  obtain ⟨⟨w, seen, visited, rest, logged, nodup, _, same, _⟩, _⟩ := walk_effort store "oak" bound
  obtain ⟨_, moves⟩ := walk_effort store "ash" bound
  obtain ⟨checked, _, adds⟩ := moves "bud" _ _ left held weighs
  refine ⟨⟨visited, ?_, nodup, by rw [logged]⟩, left, checked, adds six⟩
  rw [rest] at ids stopped
  rcases same with same | ⟨x, e, _, failed⟩
  · rw [same, ids]
  · cases stopped.symm.trans failed

end TaskForest
