import TaskForest.Hierarchy.Error

/-!
The walk down from a task. A stack holds the ids that are still to be visited, with their levels; a
visited id asks the store for its children, which go on top of the stack, the oldest first. The walk
stops at an id that was visited before, at one below the greatest level, and at a query that fails. The
visits made up to there are part of the result.
-/

namespace TaskForest

/-- The children of an id, stored or not, the oldest first. -/
def childrenOf {σ : Type} [TaskStore σ] (id : String) : StoreM σ (List Task) :=
  TaskStore.query (.childrenOf id) .oldestFirst

def roots {σ : Type} [TaskStore σ] : StoreM σ (List Task) :=
  TaskStore.query .roots .oldestFirst

structure Entry where
  id : String
  level : Nat
deriving DecidableEq, Repr

structure Visit where
  id : String
  level : Nat
  children : List Task

/-- The visits in order, and why there are no more if some id was left unvisited. -/
structure Walk where
  visits : List Visit
  failure : Option HierarchyError

structure Subtree where
  ids : List String
  depth : Nat
deriving DecidableEq, Repr

namespace Subtree

/-- Every id stands before that of its parent. -/
def leavesFirst (s : Subtree) : List String := s.ids.reverse

end Subtree

namespace Walk

def visiting (v : Visit) (w : Walk) : Walk := ⟨v :: w.visits, w.failure⟩

def stopped (e : HierarchyError) : Walk := ⟨[], some e⟩

def ids (w : Walk) : List String := w.visits.map Visit.id

def depth (w : Walk) : Nat := (w.visits.map Visit.level).foldl max 0

def subtree (w : Walk) : Subtree := ⟨w.ids, w.depth⟩

def below (level : Nat) (children : List Task) : List Entry :=
  children.map fun t => ⟨t.id, level + 1⟩

/-- The stack after a visit, from the stack before it. Only levels up to `maxDepth` are visited. -/
def Follows (maxDepth : Nat) (after before : List Entry) : Prop :=
  ∃ e rest children, before = e :: rest ∧ e.level ≤ maxDepth ∧
    after = below e.level children ++ rest

theorem acc_below {maxDepth level : Nat} {rest : List Entry}
    (cons : ∀ id rest, Acc (Follows maxDepth) rest → Acc (Follows maxDepth) (⟨id, level + 1⟩ :: rest))
    (children : List Task) (h : Acc (Follows maxDepth) rest) :
    Acc (Follows maxDepth) (below level children ++ rest) := by
  induction children with
  | nil => exact h
  | cons t ts ih => exact cons t.id _ ih

theorem acc_cons {maxDepth : Nat} (room : Nat) :
    ∀ {level : Nat}, maxDepth + 1 - level = room → ∀ (id : String) (rest : List Entry),
      Acc (Follows maxDepth) rest → Acc (Follows maxDepth) (⟨id, level⟩ :: rest) := by
  induction room with
  | zero =>
    intro level hl id rest _
    refine Acc.intro _ ?_
    rintro _ ⟨e, rest', children, hb, le, rfl⟩
    obtain ⟨rfl, rfl⟩ := List.cons.inj hb
    simp only at le
    omega
  | succ room ih =>
    intro level hl id rest hr
    refine Acc.intro _ ?_
    rintro _ ⟨e, rest', children, hb, le, rfl⟩
    obtain ⟨rfl, rfl⟩ := List.cons.inj hb
    exact acc_below (ih (by simp only; omega)) children hr

/-- No sequence of visits is endless. -/
theorem follows_wf (maxDepth : Nat) : WellFounded (Follows maxDepth) := by
  refine ⟨fun stack => ?_⟩
  induction stack with
  | nil =>
    refine Acc.intro _ ?_
    rintro _ ⟨_, _, _, hb, _, _⟩
    cases hb
  | cons e rest ih => exact acc_cons _ rfl e.id rest ih

variable {σ : Type} [TaskStore σ]

/-- Visits what is on the stack, `visited` being the ids visited before. -/
def drain (maxDepth : Nat) (visited : List String) (stack : List Entry) (s : σ) : Walk × σ :=
  match stack with
  | [] => (⟨[], none⟩, s)
  | e :: rest =>
    if e.id ∈ visited then (stopped (.cycle e.id), s)
    else if _le : e.level ≤ maxDepth then
      match childrenOf e.id s with
      | .error err s => (stopped (.store err), s)
      | .ok children s =>
        let (w, s) := drain maxDepth (e.id :: visited) (below e.level children ++ rest) s
        (w.visiting ⟨e.id, e.level, children⟩, s)
    else (stopped (.tooDeep e.id), s)
termination_by WellFounded.wrap (follows_wf maxDepth) stack
decreasing_by exact ⟨e, rest, children, rfl, _le, rfl⟩

end Walk

variable {σ : Type} [TaskStore σ]

def walk (maxDepth : Nat) (root : String) : σ → Walk × σ :=
  Walk.drain maxDepth [] [⟨root, 1⟩]

/-- The walk from a task, if nothing is left unvisited. -/
def fullWalk (maxDepth : Nat) (root : String) : HierarchyM σ Walk := fun s =>
  match walk maxDepth root s with
  | (w, s) =>
    match w.failure with
    | none => .ok w s
    | some e => .error e s

def collect (maxDepth : Nat) (root : String) : HierarchyM σ Subtree :=
  Walk.subtree <$> fullWalk maxDepth root

end TaskForest
