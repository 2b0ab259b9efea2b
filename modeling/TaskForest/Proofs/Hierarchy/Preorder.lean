import Mathlib
import TaskForest.Proofs.Hierarchy.Subtree
import TaskForest.Proofs.Store.Sorted

/-!
The walk down as a recursion. The preorder of a root is the root and then the preorders of its children, one
after the other; the walk goes along it up to the first entry that does not pass the checks. So a walk of which
nothing is left unvisited has the whole preorder, in which every id stands behind its parent.
-/

namespace TaskForest

open LinkedStore (pointers)

section Recursion

variable (answer : String → Except StoreError (List Task)) (maxDepth : Nat)

/-- The entry and then what is below it, down to `room` more levels. What fails to tell its children has
none. -/
def preorder : (room : Nat) → Entry → List Entry
  | 0, e => [e]
  | room + 1, e =>
    e :: (Walk.below e.level ((answer e.id).toOption.getD [])).flatMap (preorder room)

namespace Entry

/-- The checks in their order, and the children of an entry that passes them. -/
def check (seen : List String) (e : Entry) : Except HierarchyError (List Task) :=
  if e.id ∈ seen then .error (.cycle e.id)
  else if maxDepth < e.level then .error (.tooDeep e.id)
  else (answer e.id).mapError .store

end Entry

/-- Visits the entries in order, up to the first that does not pass. -/
def Walk.along (seen : List String) : List Entry → Walk
  | [] => ⟨[], none⟩
  | e :: rest =>
    match e.check answer maxDepth seen with
    | .error err => .stopped err
    | .ok children => (along (e.id :: seen) rest).visiting ⟨e.id, e.level, children⟩

end Recursion

def Visit.entry (v : Visit) : Entry := ⟨v.id, v.level⟩

variable {answer : String → Except StoreError (List Task)} {maxDepth : Nat} {seen : List String}
  {e : Entry}

theorem exists_preorder_eq_cons (answer : String → Except StoreError (List Task)) (room : Nat) (e : Entry) :
    ∃ below, preorder answer room e = e :: below := by
  cases room with
  | zero => exact ⟨[], rfl⟩
  | succ room => exact ⟨_, rfl⟩

namespace Entry

theorem check_of_mem (met : e.id ∈ seen) : e.check answer maxDepth seen = .error (.cycle e.id) :=
  if_pos met

theorem check_of_deep (new : e.id ∉ seen) (deep : maxDepth < e.level) :
    e.check answer maxDepth seen = .error (.tooDeep e.id) := by
  rw [check, if_neg new, if_pos deep]

theorem check_of_le (answer : String → Except StoreError (List Task)) (new : e.id ∉ seen)
    (le : e.level ≤ maxDepth) :
    e.check answer maxDepth seen = (answer e.id).mapError .store := by
  rw [check, if_neg new, if_neg (Nat.not_lt.2 le)]

theorem check_congr {other : List String} (same : ∀ x, x ∈ seen ↔ x ∈ other) (e : Entry) :
    e.check answer maxDepth seen = e.check answer maxDepth other := by
  simp only [check, same]

end Entry

namespace Walk

variable {visited : List String} {stack order : List Entry} {w : Walk} {f : Pointers}
  {root : String}

theorem along_of_fails {err : HierarchyError} (failed : e.check answer maxDepth seen = .error err)
    (room : Nat) (rest : List Entry) :
    along answer maxDepth seen (preorder answer room e ++ rest) = stopped err := by
  obtain ⟨below, first⟩ := exists_preorder_eq_cons answer room e
  rw [first, List.cons_append, along, failed]

theorem along_of_passes {children : List Task}
    (passed : e.check answer maxDepth seen = .ok children) (rest : List Entry) :
    along answer maxDepth seen (e :: rest) =
      (along answer maxDepth (e.id :: seen) rest).visiting ⟨e.id, e.level, children⟩ := by
  rw [along, passed]

/-- The stack holds the rest of the preorder: each of its entries stands for all that is below it. -/
theorem Run.eq_along (top : Nat) (h : Run (fun id r => r = answer id) maxDepth visited stack w)
    (deep : maxDepth < top) (low : ∀ e ∈ stack, e.level ≤ top) :
    w = along answer maxDepth visited
      (stack.flatMap fun e => preorder answer (top - e.level) e) := by
  induction h with
  | done => rfl
  | cycle met => rw [List.flatMap_cons, along_of_fails (Entry.check_of_mem met)]
  | tooDeep new beyond => rw [List.flatMap_cons, along_of_fails (Entry.check_of_deep new beyond)]
  | refused new le told =>
      have failed := Entry.check_of_le answer new le
      rw [← told] at failed
      rw [List.flatMap_cons, along_of_fails failed]
  | @visit visited e rest children w new le told next ih =>
      have room : top - e.level = (top - (e.level + 1)) + 1 := by omega
      have pushed :
          (Walk.below e.level children).flatMap (fun e' => preorder answer (top - e'.level) e') =
            (Walk.below e.level children).flatMap (preorder answer (top - (e.level + 1))) := by
        refine List.flatMap_congr fun e' he' => ?_
        obtain ⟨t, _, rfl⟩ := mem_below.1 he'
        rfl
      have low' : ∀ e' ∈ Walk.below e.level children ++ rest, e'.level ≤ top :=
        forall_mem_pushed (fun _ _ => Nat.lt_of_le_of_lt le deep) low
      have passed := Entry.check_of_le answer new le
      rw [← told] at passed
      rw [List.flatMap_cons, room, preorder, List.cons_append, along_of_passes passed, ← told]
      change _ = visiting _ (along answer maxDepth (e.id :: visited)
        ((Walk.below e.level children).flatMap _ ++ _))
      rw [← pushed, ← List.flatMap_append, ← ih low']

/-- Either all is visited, or the visits end right before the first entry that does not pass. -/
theorem along_whole_or_stopped (answer : String → Except StoreError (List Task)) (maxDepth : Nat)
    (seen : List String) (order : List Entry) :
    let w := along answer maxDepth seen order
    (w.visits.map Visit.entry = order ∧ w.failure = none) ∨
      ∃ stop later e, order = w.visits.map Visit.entry ++ stop :: later ∧
        stop.check answer maxDepth (w.ids ++ seen) = .error e ∧ w.failure = some e := by
  induction order generalizing seen with
  | nil => exact .inl ⟨rfl, rfl⟩
  | cons e rest ih =>
      intro w
      cases passed : e.check answer maxDepth seen with
      | error err =>
          have stop : w = stopped err := by
            change along answer maxDepth seen (e :: rest) = _
            rw [along, passed]
          rw [stop]
          exact .inr ⟨e, rest, err, rfl, passed, rfl⟩
      | ok children =>
          rw [show w = _ from along_of_passes passed rest]
          rcases ih (e.id :: seen) with ⟨all, full⟩ | ⟨stop, later, err, split, failed, failure⟩
          · exact .inl ⟨congrArg (e :: ·) all, full⟩
          · refine .inr ⟨stop, later, err, congrArg (e :: ·) split, ?_, failure⟩
            rw [← failed]
            refine Entry.check_congr (fun x => ?_) stop
            simp only [ids_visiting, List.cons_append, List.mem_cons, List.mem_append]
            tauto

/-- What is visited was on the stack, or is a child of an id that was visited before it. -/
theorem Run.visit_from {Answer : String → Except StoreError (List Task) → Prop}
    (h : Run Answer maxDepth visited stack w) {before after : List Visit} {v : Visit}
    (split : w.visits = before ++ v :: after) :
    v.entry ∈ stack ∨ ∃ u ∈ before, v.id ∈ u.children.map Task.id := by
  induction h generalizing before with
  | done | cycle _ | tooDeep _ _ | refused _ _ _ => cases before <;> cases split
  | @visit visited e rest children w new le told next ih =>
      rw [visits_visiting] at split
      cases before with
      | nil =>
          cases split
          exact .inl List.mem_cons_self
      | cons u before =>
          obtain ⟨rfl, others⟩ := List.cons.inj split
          rcases ih others with pushed | ⟨u, hu, child⟩
          · rcases List.mem_append.1 pushed with child | waiting
            · obtain ⟨t, ht, same⟩ := mem_below.1 child
              refine .inr ⟨_, List.mem_cons_self, ?_⟩
              rw [show v.id = t.id from congrArg Entry.id same]
              exact List.mem_map_of_mem ht
            · exact .inl (List.mem_cons_of_mem _ waiting)
          · exact .inr ⟨u, List.mem_cons_of_mem _ hu, child⟩

theorem Run.parent_before (h : Run f.Tells maxDepth [] [⟨root, 1⟩] w) {before after : List String}
    {x : String} (split : w.ids = before ++ x :: after) (other : x ≠ root) :
    ∃ p ∈ before, f.Step x p := by
  obtain ⟨first, rest, visits, ids_first, ids_rest⟩ := List.map_eq_append_iff.1 split
  obtain ⟨v, later, rfl, rfl, _⟩ := List.map_eq_cons_iff.1 ids_rest
  rcases h.visit_from visits with top | ⟨u, hu, child⟩
  · rw [List.mem_singleton] at top
    exact absurd (congrArg Entry.id top) other
  · have visited : u ∈ w.visits := visits ▸ List.mem_append_left _ hu
    obtain ⟨_, shows⟩ := h.visit_le_and_answered u visited
    exact ⟨u.id, ids_first ▸ List.mem_map_of_mem hu, (shows.2 _).1 child⟩

end Walk

/-- A subtree that has the whole of a preorder: each id once and behind its parent, the greatest level, and
the other way round every id before its parent. -/
structure Subtree.Holds (s : Subtree) (f : Pointers) (root : String) (order : List Entry) : Prop where
  ids : s.ids = order.map Entry.id
  nodup : s.ids.Nodup
  depth : IsGreatest {n | ∃ e ∈ order, e.level = n} s.depth
  parent_before : ∀ before x after, s.ids = before ++ x :: after → x ≠ root →
    ∃ p ∈ before, f.Step x p
  parent_behind : ∀ before x after, s.leavesFirst = before ++ x :: after → x ≠ root →
    ∃ p ∈ after, f.Step x p

theorem Walk.Run.subtree_holds {f : Pointers} {root : String} {order : List Entry} {w : Walk}
    (h : Run f.Tells maxDepth [] [⟨root, 1⟩] w) (some_order : order ≠ [])
    (all : w.visits.map Visit.entry = order) : w.subtree.Holds f root order := by
  subst all
  have some_visits : w.visits ≠ [] := fun none => some_order (by rw [none]; rfl)
  refine ⟨?_, h.nodup.1, ⟨?_, ?_⟩, fun _ _ _ => h.parent_before, ?_⟩
  · rw [List.map_map]
    rfl
  · obtain ⟨v, hv, level⟩ := exists_level_eq_depth some_visits
    exact ⟨v.entry, List.mem_map_of_mem hv, level⟩
  · rintro _ ⟨e, he, rfl⟩
    obtain ⟨v, hv, rfl⟩ := List.mem_map.1 he
    exact level_le_depth hv
  · intro before x after split other
    have reversed : w.ids = after.reverse ++ x :: before.reverse := by
      change w.ids.reverse = _ at split
      rw [← List.reverse_reverse w.ids, split]
      simp
    obtain ⟨p, hp, step⟩ := h.parent_before reversed other
    exact ⟨p, List.mem_reverse.1 hp, step⟩

section Store

variable {σ : Type} [TaskStore σ]

theorem collect_of_walk (maxDepth : Nat) (root : String) (s : σ) :
    collect maxDepth root s = match (walk maxDepth root s).1.failure with
      | none => .ok (walk maxDepth root s).1.subtree (walk maxDepth root s).2
      | some e => .error e (walk maxDepth root s).2 := by
  simp only [collect, fullWalk, Functor.map, EStateM.map]
  cases (walk maxDepth root s).1.failure <;> rfl

theorem walk_run_tells [LinkedStore σ] (maxDepth : Nat) (root : String) (s : σ) :
    Walk.Run (pointers s).Tells maxDepth [] [⟨root, 1⟩] (walk maxDepth root s).1 :=
  (Walk.drain_run childrenOf_tells maxDepth [] [⟨root, 1⟩] s rfl).2

theorem childrenOf_answered [OrderedStore σ] (answer : String → Except StoreError (List Task)) :
    Walk.Answered (fun s : σ => childrenAnswer s = answer) fun id r => r = answer id := by
  intro id s h
  subst h
  have kept := OrderedStore.childrenOf_keeps id s
  refine .intro (fun found s' k => ⟨kept.of_ok k, ?_⟩) (fun e s' k => ⟨kept.of_error k, ?_⟩)
  · simp only [childrenAnswer, k]
  · simp only [childrenAnswer, k]

theorem walk_run_answers [OrderedStore σ] (maxDepth : Nat) (root : String) (s : σ) :
    Walk.Run (fun id r => r = childrenAnswer s id) maxDepth [] [⟨root, 1⟩] (walk maxDepth root s).1 :=
  (Walk.drain_run (childrenOf_answered (childrenAnswer s)) maxDepth [] [⟨root, 1⟩] s rfl).2

/-- The walk goes along the preorder, and where this is cut off below the greatest level makes no
difference. -/
theorem walk_eq_along [OrderedStore σ] (s : σ) (maxDepth beyond : Nat) (root : String) :
    (walk maxDepth root s).1 = .along (childrenAnswer s) maxDepth []
      (preorder (childrenAnswer s) (maxDepth + beyond) ⟨root, 1⟩) := by
  have along := (walk_run_answers maxDepth root s).eq_along (maxDepth + beyond + 1) (by omega) (by simp)
  rwa [List.flatMap_singleton] at along

end Store

end TaskForest
