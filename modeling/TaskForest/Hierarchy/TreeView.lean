import TaskForest.Hierarchy.Keyed
import TaskForest.Hierarchy.Walk
import TaskForest.Tree.Basic

/-!
Trees out of walks. What a walk tells is kept by id: the ids of the children of each visited id, and the
task of each child. The visited ids are then taken with the leaves first. Each of them that has a task
gets a tree, below which stand the trees of its children as far as there are any; these are taken away
from what is built.
-/

namespace TaskForest

structure Assembly where
  childIds : Keyed (List String)
  tasks : Keyed Task
  built : Keyed TaskTree

namespace Assembly

def empty : Assembly := ⟨.empty, .empty, .empty⟩

/-- Keeps what a visit was told. -/
def hear (a : Assembly) (v : Visit) : Assembly :=
  { a with
    childIds := a.childIds.insert v.id (v.children.map Task.id)
    tasks := a.tasks.extend (v.children.map fun t => (t.id, t)) }

/-- The trees of these ids, and what is left without them. An id that has none is passed over. -/
def claim (built : Keyed TaskTree) : List String → List TaskTree × Keyed TaskTree
  | [] => ([], built)
  | id :: rest =>
    let (trees, left) := claim (built.erase id) rest
    (match built.find? id with
      | some tree => tree :: trees
      | none => trees, left)

/-- Takes up an id; one of which no children are known has none. -/
def build (a : Assembly) (id : String) : Assembly :=
  let (children, left) := claim a.built ((a.childIds.find? id).getD [])
  { childIds := a.childIds.erase id
    tasks := a.tasks.erase id
    built :=
      match a.tasks.find? id with
      | some task => left.insert id (.node task children)
      | none => left }

end Assembly

namespace Walk

/-- What the visits tell, and the task that the walk started from. -/
def told (w : Walk) (root : Task) : Assembly :=
  let heard := w.visits.foldl Assembly.hear .empty
  { heard with tasks := heard.tasks.insert root.id root }

/-- All that is built once every visited id was taken up. -/
def built (w : Walk) (root : Task) : Keyed TaskTree :=
  (w.subtree.leavesFirst.foldl Assembly.build (w.told root)).built

end Walk

variable {σ : Type} [TaskStore σ]

/-- A task with all that is below it; `none` if it is not stored. -/
def loadTree (maxDepth : Nat) (root : String) : HierarchyM σ (Option TaskTree) := do
  match ← (TaskStore.get root : StoreM σ (Option Task)) with
  | none => pure none
  | some task => do
    let w ← fullWalk maxDepth root
    pure ((w.built task).find? root)

end TaskForest
