import TaskForest.Hierarchy.Ancestors
import TaskForest.Hierarchy.Walk

/-!
Moving a task below another one, or making it a root. A move is refused if it would put the task below
itself, or a task of its subtree below the greatest level.
-/

namespace TaskForest

variable {σ : Type} [TaskStore σ]

namespace Move

/-- Fails unless `id` may be put below `parent`. -/
def check (maxDepth : Nat) (id parent : String) : HierarchyM σ Unit := do
  if parent = id then throw (.cycle id)
  if (← (TaskStore.get parent : StoreM σ (Option Task))).isNone then
    throw (.store (.notFound parent))
  let above ← ancestors maxDepth parent
  if id ∈ above then throw (.cycle id)
  let subtree ← collect maxDepth id
  if maxDepth < above.length + 1 + subtree.depth then throw (.tooDeep id)

end Move

/-- Gives a task another parent, or none, and notes `now` as the time of the update. -/
def reparent (maxDepth : Nat) (now : Int64) (id : String) (parent : Option String) :
    HierarchyM σ Task := do
  let some task ← (TaskStore.get id : StoreM σ (Option Task)) | throw (.store (.notFound id))
  match parent with
  | some p => Move.check maxDepth id p
  | none => pure ()
  let moved := { task with parent := parent, updatedAt := now }
  (TaskStore.update moved : StoreM σ Unit)
  pure moved

end TaskForest
