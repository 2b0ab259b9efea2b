import TaskForest.Proofs.Hierarchy.Walk

/-!
What a walk collects, and why it is refused, in terms of parent pointers. The answers to the queries tell
the children of an id; they need not be in order. A walk that visits all there is to visit collects the ids
that reach the root, and its depth is the greatest of their levels. Otherwise it is refused by the root, if
that is on a cycle, by an id right below the greatest level, or by a query that fails.
-/

namespace TaskForest

namespace Pointers

/-- An answer to a query for children that agrees with the pointers; a failure tells nothing. -/
def Tells (f : Pointers) (id : String) : Except StoreError (List Task) → Prop
  | .ok children => f.ShowsChildren id children
  | .error _ => True

/-- The subtree of a root, collected up to a level. -/
structure Spans (f : Pointers) (root : String) (maxDepth : Nat) (s : Subtree) : Prop where
  nodup : s.ids.Nodup
  mem_iff : ∀ x, x ∈ s.ids ↔ f.Reaches x root
  depth : IsGreatest {n | ∃ x, f.AtLevel root x n} s.depth
  le : s.depth ≤ maxDepth
  off : ¬ f.OnCycle root

/-- What a failure of a walk from the root says. -/
def Refuses (f : Pointers) (root : String) (maxDepth : Nat) : HierarchyError → Prop
  | .cycle x => x = root ∧ f.OnCycle root
  | .tooDeep x => f.AtLevel root x (maxDepth + 1)
  | .subtreeChanged _ => False
  | .store _ => True

end Pointers

namespace Walk
namespace Run

variable {Answer : String → Except StoreError (List Task) → Prop} {f : Pointers} {maxDepth : Nat}
  {visited : List String} {stack : List Entry} {w : Walk} {root x : String}

theorem nodup (h : Run Answer maxDepth visited stack w) :
    w.ids.Nodup ∧ ∀ x ∈ w.ids, x ∉ visited := by
  induction h with
  | done => exact ⟨List.nodup_nil, by simp [ids]⟩
  | cycle _ | tooDeep _ _ | refused _ _ _ => exact ⟨List.nodup_nil, by simp⟩
  | @visit visited e rest children w new le answer next ih =>
      obtain ⟨nodup, apart⟩ := ih
      rw [ids_visiting]
      refine ⟨List.nodup_cons.2 ⟨fun he => apart _ he List.mem_cons_self, nodup⟩, ?_⟩
      intro x hx
      rcases List.mem_cons.1 hx with rfl | hx
      · exact new
      · exact fun k => apart x hx (List.mem_cons_of_mem _ k)

/-- What every visit was checked for and told. -/
theorem visit_le_and_answered (h : Run Answer maxDepth visited stack w) :
    ∀ v ∈ w.visits, v.level ≤ maxDepth ∧ Answer v.id (.ok v.children) := by
  induction h with
  | done => simp
  | cycle _ | tooDeep _ _ | refused _ _ _ => simp [stopped]
  | visit new le answer next ih =>
      rw [visits_visiting, List.forall_mem_cons]
      exact ⟨⟨le, answer⟩, ih⟩

/-- A walk that is not stopped visits what is on the stack. -/
theorem exists_visit_of_mem (h : Run Answer maxDepth visited stack w) (full : w.failure = none) :
    ∀ e ∈ stack, ∃ v ∈ w.visits, v.id = e.id ∧ v.level = e.level := by
  induction h with
  | done => simp
  | cycle _ | tooDeep _ _ | refused _ _ _ => cases full
  | visit new le answer next ih =>
      intro e he
      rcases List.mem_cons.1 he with rfl | he
      · exact ⟨_, List.mem_cons_self, rfl, rfl⟩
      · obtain ⟨v, hv, same⟩ := ih full e (List.mem_append_right _ he)
        exact ⟨v, List.mem_cons_of_mem _ hv, same⟩

/-- It visits the children of what it visits, one level below. -/
theorem exists_visit_of_child (h : Run Answer maxDepth visited stack w) (full : w.failure = none) :
    ∀ v ∈ w.visits, ∀ t ∈ v.children, ∃ u ∈ w.visits, u.id = t.id ∧ u.level = v.level + 1 := by
  induction h with
  | done => simp
  | cycle _ | tooDeep _ _ | refused _ _ _ => cases full
  | @visit visited e rest children w new le answer next ih =>
      intro v hv t ht
      rcases List.mem_cons.1 hv with rfl | hv
      · have pushed : ⟨t.id, e.level + 1⟩ ∈ Walk.below e.level children ++ rest :=
          List.mem_append_left rest (mem_below.2 ⟨t, ht, rfl⟩)
        obtain ⟨u, hu, same⟩ := next.exists_visit_of_mem full _ pushed
        exact ⟨u, List.mem_cons_of_mem _ hu, same⟩
      · obtain ⟨u, hu, same⟩ := ih full v hv t ht
        exact ⟨u, List.mem_cons_of_mem _ hu, same⟩

/-- The id of a failure, with the level at which it was met. -/
def Blames (maxDepth : Nat) (Q : String → Nat → Prop) : HierarchyError → Prop
  | .cycle x => ∃ n, Q x n
  | .tooDeep x => ∃ n, maxDepth < n ∧ Q x n
  | .subtreeChanged _ => False
  | .store _ => True

/-- What holds of the stack and is handed on to the children holds of all that is met. -/
theorem forall_met {Q : String → Nat → Prop} (h : Run Answer maxDepth visited stack w)
    (hand : ∀ id n children, Q id n → n ≤ maxDepth → Answer id (.ok children) →
      ∀ t ∈ children, Q t.id (n + 1))
    (start : ∀ e ∈ stack, Q e.id e.level) :
    (∀ v ∈ w.visits, Q v.id v.level) ∧ ∀ e, w.failure = some e → Blames maxDepth Q e := by
  induction h with
  | done => simp
  | @cycle _ e _ _ =>
      refine ⟨by simp [stopped], ?_⟩
      rintro _ ⟨⟩
      exact ⟨e.level, start e List.mem_cons_self⟩
  | @tooDeep _ e _ _ deep =>
      refine ⟨by simp [stopped], ?_⟩
      rintro _ ⟨⟩
      exact ⟨e.level, deep, start e List.mem_cons_self⟩
  | refused _ _ _ =>
      refine ⟨by simp [stopped], ?_⟩
      rintro _ ⟨⟩
      trivial
  | @visit visited e rest children w new le answer next ih =>
      have top : Q e.id e.level := start e List.mem_cons_self
      have pushed : ∀ e' ∈ Walk.below e.level children ++ rest, Q e'.id e'.level :=
        forall_mem_pushed (hand e.id e.level children top le answer) start
      rw [visits_visiting, failure_visiting, List.forall_mem_cons]
      exact ⟨⟨top, (ih pushed).1⟩, (ih pushed).2⟩

/-- Less may be said of the answers. -/
theorem mono {Answer' : String → Except StoreError (List Task) → Prop}
    (weaker : ∀ id r, Answer id r → Answer' id r) (h : Run Answer maxDepth visited stack w) :
    Run Answer' maxDepth visited stack w := by
  induction h with
  | done => exact .done
  | cycle seen => exact .cycle seen
  | tooDeep new deep => exact .tooDeep new deep
  | refused new le answer => exact .refused new le (weaker _ _ answer)
  | visit new le answer next ih => exact .visit new le (weaker _ _ answer) ih

theorem failure_answered {err : StoreError} (h : Run Answer maxDepth visited stack w)
    (k : w.failure = some (.store err)) : ∃ id, Answer id (.error err) := by
  induction h with
  | done => cases k
  | cycle _ | tooDeep _ _ => cases k
  | refused _ _ answer =>
      cases k
      exact ⟨_, answer⟩
  | visit _ _ _ _ ih => exact ih k

/-- What is known of the ids met so far, the root apart: none of them is on the stack and visited, none is
on the stack twice, and the parent of each of them was visited. -/
structure Sprung (f : Pointers) (root : String) (visited : List String) (stack : List Entry) :
    Prop where
  apart : ∀ e ∈ stack, e.id ≠ root → e.id ∉ visited
  nodup : ((stack.map Entry.id).filter (· ≠ root)).Nodup
  from_visited : ∀ x, x ∈ visited ∨ x ∈ stack.map Entry.id → x ≠ root → ∃ p ∈ visited, f.Step x p

/-- A child of an id that is not visited yet was not met before. -/
theorem Sprung.not_met (h : Sprung f root visited stack) {p : String} (new : p ∉ visited)
    (step : f.Step x p) (other : x ≠ root) : x ∉ visited ∧ x ∉ stack.map Entry.id := by
  refine not_or.1 fun met => ?_
  obtain ⟨q, hq, step'⟩ := h.from_visited x met other
  rw [step.unique step'] at new
  exact new hq

theorem Sprung.step {e : Entry} {rest : List Entry} {children : List Task}
    (h : Sprung f root visited (e :: rest)) (new : e.id ∉ visited)
    (shows : f.ShowsChildren e.id children) :
    Sprung f root (e.id :: visited) (Walk.below e.level children ++ rest) := by
  have child_new : ∀ x ∈ children.map Task.id, x ≠ root →
      x ∉ visited ∧ x ≠ e.id ∧ x ∉ rest.map Entry.id := by
    intro x hx other
    obtain ⟨unvisited, unmet⟩ := h.not_met new ((shows.2 x).1 hx) other
    rw [List.map_cons, List.mem_cons, not_or] at unmet
    exact ⟨unvisited, unmet.1, unmet.2⟩
  have stack_nodup := h.nodup
  rw [List.map_cons, List.filter_cons] at stack_nodup
  refine ⟨?_, ?_, ?_⟩
  · intro e' he' other
    rw [List.mem_cons, not_or]
    rcases List.mem_append.1 he' with he' | he'
    · obtain ⟨t, ht, rfl⟩ := mem_below.1 he'
      obtain ⟨unvisited, ne, _⟩ := child_new t.id (List.mem_map_of_mem ht) other
      exact ⟨ne, unvisited⟩
    · refine ⟨fun same => ?_, h.apart e' (List.mem_cons_of_mem _ he') other⟩
      rw [same] at other
      rw [if_pos (by simpa using other)] at stack_nodup
      refine (List.nodup_cons.1 stack_nodup).1 (List.mem_filter.2 ⟨?_, by simpa using other⟩)
      exact same ▸ List.mem_map_of_mem he'
  · rw [List.map_append, map_id_below, List.filter_append]
    have rest_nodup : ((rest.map Entry.id).filter (· ≠ root)).Nodup := by
      split at stack_nodup
      · exact (List.nodup_cons.1 stack_nodup).2
      · exact stack_nodup
    refine List.nodup_append.2 ⟨shows.1.filter _, rest_nodup, ?_⟩
    intro x hx _ hy same
    subst same
    obtain ⟨hx, other⟩ := List.mem_filter.1 hx
    exact (child_new x hx (by simpa using other)).2.2 (List.mem_filter.1 hy).1
  · intro x met other
    rw [List.map_append, map_id_below, List.mem_append, List.mem_cons] at met
    by_cases child : x ∈ children.map Task.id
    · exact ⟨e.id, List.mem_cons_self, (shows.2 x).1 child⟩
    · have before : x ∈ visited ∨ x ∈ (e :: rest).map Entry.id := by
        rw [List.map_cons, List.mem_cons]
        tauto
      obtain ⟨p, hp, step⟩ := h.from_visited x before other
      exact ⟨p, List.mem_cons_of_mem _ hp, step⟩

/-- Only the root is met a second time. -/
theorem eq_root_of_cycle (h : Run f.Tells maxDepth visited stack w)
    (sprung : Sprung f root visited stack) (k : w.failure = some (.cycle x)) : x = root := by
  induction h with
  | done => cases k
  | @cycle _ e _ seen =>
      cases k
      by_contra other
      exact sprung.apart e List.mem_cons_self other seen
  | tooDeep _ _ => cases k
  | refused _ _ _ => cases k
  | visit new le answer next ih => exact ih (sprung.step new answer) k

section FromRoot

variable (h : Run f.Tells maxDepth [] [⟨root, 1⟩] w)
include h

theorem visit_atLevel : ∀ v ∈ w.visits, f.AtLevel root v.id v.level :=
  (h.forall_met (fun _ _ _ above _ shows _ ht =>
      .child above ((shows.2 _).1 (List.mem_map_of_mem ht)))
    (by simpa using .root)).1

theorem atLevel_iff (full : w.failure = none) {n : Nat} :
    f.AtLevel root x n ↔ ∃ v ∈ w.visits, v.id = x ∧ v.level = n := by
  constructor
  · intro k
    induction k with
    | root => exact h.exists_visit_of_mem full ⟨root, 1⟩ List.mem_cons_self
    | @child x p n above step ih =>
        obtain ⟨v, hv, rfl, rfl⟩ := ih
        obtain ⟨_, shows⟩ := h.visit_le_and_answered v hv
        obtain ⟨t, ht, rfl⟩ := List.mem_map.1 ((shows.2 x).2 step)
        exact h.exists_visit_of_child full v hv t ht
  · intro got
    obtain ⟨v, hv, same₁, same₂⟩ := got
    subst same₁ same₂
    exact h.visit_atLevel v hv

/-- The root is visited once, at its first level. -/
theorem root_not_onCycle (full : w.failure = none) : ¬ f.OnCycle root := by
  intro cyclic
  obtain ⟨p, step, up⟩ := Relation.TransGen.head'_iff.1 cyclic
  obtain ⟨n, above⟩ := Pointers.exists_atLevel_iff.2 up
  obtain ⟨v, hv, id_v, level_v⟩ := (h.atLevel_iff full).1 (.child above step)
  obtain ⟨u, hu, id_u, level_u⟩ := (h.atLevel_iff full).1 .root
  have same : v = u :=
    List.inj_on_of_nodup_map h.nodup.1 hv hu (id_v.trans id_u.symm)
  have low : 1 ≤ n := above.pos
  rw [same] at level_v
  omega

theorem subtree_spans (full : w.failure = none) : f.Spans root maxDepth w.subtree where
  nodup := h.nodup.1
  mem_iff := by
    intro x
    change x ∈ w.ids ↔ _
    rw [mem_ids, ← Pointers.exists_atLevel_iff]
    simp only [h.atLevel_iff full]
    constructor
    · intro got
      obtain ⟨v, hv, id⟩ := got
      exact ⟨v.level, v, hv, id, rfl⟩
    · intro got
      obtain ⟨_, v, hv, id, _⟩ := got
      exact ⟨v, hv, id⟩
  depth := by
    have first := h.exists_visit_of_mem full ⟨root, 1⟩ List.mem_cons_self
    refine ⟨?_, ?_⟩
    · obtain ⟨u, hu, _⟩ := first
      obtain ⟨v, hv, deepest⟩ := exists_level_eq_depth (List.ne_nil_of_mem hu)
      exact ⟨v.id, (h.atLevel_iff full).2 ⟨v, hv, rfl, deepest⟩⟩
    · intro n got
      obtain ⟨x, k⟩ := got
      obtain ⟨v, hv, _, rfl⟩ := (h.atLevel_iff full).1 k
      exact level_le_depth hv
  le := by
    obtain ⟨u, hu, _⟩ := h.exists_visit_of_mem full ⟨root, 1⟩ List.mem_cons_self
    obtain ⟨v, hv, deepest⟩ := exists_level_eq_depth (List.ne_nil_of_mem hu)
    change w.depth ≤ maxDepth
    rw [← deepest]
    exact (h.visit_le_and_answered v hv).1
  off := h.root_not_onCycle full

theorem refuses {e : HierarchyError} (k : w.failure = some e) : f.Refuses root maxDepth e := by
  have met := (h.forall_met (Q := fun x n => f.AtLevel root x n ∧ n ≤ maxDepth + 1)
    (fun _ _ _ above le shows _ ht =>
      ⟨.child above.1 ((shows.2 _).1 (List.mem_map_of_mem ht)), by omega⟩)
    (by simpa using .root)).2 e k
  cases e with
  | tooDeep x =>
      obtain ⟨n, deep, above, le⟩ := met
      obtain rfl : n = maxDepth + 1 := by omega
      exact above
  | subtreeChanged _ => exact met
  | store _ => trivial
  | cycle x =>
      -- the stack holds the root alone, so the first turn visits it and the cycle is met behind
      cases h with
      | cycle seen => cases seen
      | tooDeep _ _ => cases k
      | refused _ _ _ => cases k
      | visit new le answer next =>
          have start : Sprung f root [] [⟨root, 1⟩] := ⟨by simp, by simp, by simp⟩
          have hx : x = root := next.eq_root_of_cycle (start.step new answer) k
          obtain ⟨n, above, low⟩ := (next.forall_met
            (Q := fun x n => f.AtLevel root x n ∧ 2 ≤ n)
            (fun _ _ _ above _ shows _ ht =>
              ⟨.child above.1 ((shows.2 _).1 (List.mem_map_of_mem ht)), by omega⟩)
            (by
              intro e he
              rw [List.append_nil] at he
              obtain ⟨t, ht, rfl⟩ := mem_below.1 he
              exact ⟨.child .root ((answer.2 _).1 (List.mem_map_of_mem ht)), Nat.le_refl 2⟩)).2 _ k
          rw [hx] at above
          exact ⟨hx, above.transGen low⟩

end FromRoot

end Run
end Walk

section Store

open LinkedStore (pointers)

variable {σ : Type} [TaskStore σ] {P : σ → Prop} {f : Pointers}
  {Answer : String → Except StoreError (List Task) → Prop}

/-- The walk on a store whose queries keep `P` and agree with the pointers. -/
theorem collect_yields_of (answers : Walk.Answered P Answer)
    (tells : ∀ id r, Answer id r → f.Tells id r) (maxDepth : Nat) (root : String) (s : σ) (h : P s) :
    Yields (collect maxDepth root) s
      (fun subtree s' => P s' ∧ f.Spans root maxDepth subtree)
      (fun e s' => P s' ∧ f.Refuses root maxDepth e ∧
        ∀ err, e = .store err → ∃ id, Answer id (.error err)) := by
  refine .map ((Walk.fullWalk_yields answers maxDepth root s h).mono ?_ ?_)
  · intro w s' got
    obtain ⟨kept, run, full⟩ := got
    exact ⟨kept, (run.mono tells).subtree_spans full⟩
  · intro e s' got
    obtain ⟨kept, w, run, failed⟩ := got
    refine ⟨kept, (run.mono tells).refuses failed, ?_⟩
    intro err same
    subst same
    exact run.failure_answered failed

/-- Where no query fails, only a cycle or a level stops the walk. -/
theorem collect_yields_of_faultless (answers : Walk.Answered P Answer)
    (tells : ∀ id r, Answer id r → f.Tells id r) (faultless : ∀ id e, ¬ Answer id (.error e))
    (maxDepth : Nat) (root : String) (s : σ) (h : P s) :
    Yields (collect maxDepth root) s
      (fun subtree s' => P s' ∧ f.Spans root maxDepth subtree)
      (fun e s' => P s' ∧ f.Refuses root maxDepth e ∧ e.isStructural = true) := by
  refine (collect_yields_of answers tells maxDepth root s h).mono (fun _ _ h => h) ?_
  intro e s' got
  obtain ⟨held, refuses, answered⟩ := got
  refine ⟨held, refuses, ?_⟩
  cases e with
  | cycle _ | tooDeep _ => rfl
  | subtreeChanged _ => exact refuses.elim
  | store err =>
      obtain ⟨id, told⟩ := answered err rfl
      exact absurd told (faultless id err)

variable [LinkedStore σ]

theorem childrenOf_tells : Walk.Answered (fun s : σ => pointers s = f) f.Tells := by
  intro id s h
  subst h
  refine .intro (fun found s' k => ?_) (fun e s' k => ?_)
  · exact ⟨(LinkedStore.query_yields _ _ s).of_ok k, (LinkedStore.childrenOf_shows id s).of_ok k⟩
  · exact ⟨(LinkedStore.query_yields _ _ s).of_error k, trivial⟩

theorem collect_yields (maxDepth : Nat) (root : String) (s : σ) :
    Yields (collect maxDepth root) s
      (fun subtree s' => pointers s' = pointers s ∧ (pointers s).Spans root maxDepth subtree)
      (fun e s' => pointers s' = pointers s ∧ (pointers s).Refuses root maxDepth e) :=
  (collect_yields_of childrenOf_tells (fun _ _ h => h) maxDepth root s rfl).mono
    (fun _ _ h => h) (fun _ _ h => ⟨h.1, h.2.1⟩)

theorem fullWalk_refuses (maxDepth : Nat) (root : String) (s : σ) :
    Yields (fullWalk maxDepth root) s
      (fun _ s' => pointers s' = pointers s)
      (fun e s' => pointers s' = pointers s ∧ (pointers s).Refuses root maxDepth e) := by
  refine (Walk.fullWalk_yields childrenOf_tells maxDepth root s rfl).mono (fun _ _ h => h.1) ?_
  intro e s' got
  obtain ⟨kept, w, run, failed⟩ := got
  exact ⟨kept, run.refuses failed⟩

end Store
end TaskForest
