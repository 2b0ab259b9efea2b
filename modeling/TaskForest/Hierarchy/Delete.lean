import TaskForest.Hierarchy.Limits
import TaskForest.Hierarchy.Walk
import TaskForest.Report

/-!
Deleting a task and all that is below it. The ids are gathered first and then removed in one batch, so
other clients may write in between.
-/

namespace TaskForest

variable {σ : Type} [TaskStore σ]

/-- Removes all of these ids, or none. Tasks that would have lost their parent are a change of the
subtree. No batch is made for no ids. -/
def deleteAll (guarded : Bool) (ids : List String) : HierarchyM σ Nat := fun s =>
  match ids with
  | [] => .ok 0 s
  | _ :: _ =>
    match TaskStore.deleteMany ids guarded s with
    | .ok removed s => .ok removed s
    | .error (.orphaned orphans) s => .error (.subtreeChanged orphans) s
    | .error e s => .error (.store e) s

def preview (limits : Limits) (root : String) : HierarchyM σ Subtree :=
  collect limits.maxDepth root

def delete (limits : Limits) (root : String) : HierarchyM σ Report := do
  let subtree ← preview limits root
  let deleted ← deleteAll limits.orphanGuard subtree.leavesFirst
  pure {
    root := root
    collected := subtree.ids.length
    deleted := deleted
    depth := subtree.depth }

end TaskForest
