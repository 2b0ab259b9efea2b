import TaskForest.Task.Basic

/-!
Trees of tasks and their outline. The outline is written by a loop over a stack of nodes still to be
written; `outlineLines` gives the same lines by recursion on the tree.
-/

namespace TaskForest

inductive TaskTree where
  | node (task : Task) (children : List TaskTree)

namespace TaskTree

def task : TaskTree → Task
  | node t _ => t

def children : TaskTree → List TaskTree
  | node _ cs => cs

mutual

def size : TaskTree → Nat
  | node _ cs => 1 + sizes cs

def sizes : List TaskTree → Nat
  | [] => 0
  | t :: rest => t.size + sizes rest

end

mutual

def preorder : TaskTree → List Task
  | node t cs => t :: preorders cs

def preorders : List TaskTree → List Task
  | [] => []
  | t :: rest => t.preorder ++ preorders rest

end

mutual

theorem size_eq_length : ∀ t : TaskTree, t.size = t.preorder.length
  | node t cs => by rw [size, preorder, List.length_cons, sizes_eq_length cs, Nat.add_comm]

theorem sizes_eq_length : ∀ ts : List TaskTree, sizes ts = (preorders ts).length
  | [] => rfl
  | t :: rest => by
    rw [sizes, preorders, List.length_append, size_eq_length t, sizes_eq_length rest]

end

mutual

def height : TaskTree → Nat
  | node _ cs => 1 + heights cs

def heights : List TaskTree → Nat
  | [] => 0
  | t :: rest => max t.height (heights rest)

end

/-- The line of a task, two blanks in for each level. -/
def indentedLine (indent : Nat) (t : Task) : String :=
  String.ofList (List.replicate (2 * indent) ' ') ++ t.line

mutual

/-- The outline by recursion: the line of the task, then the outlines of its children. -/
def outlineLines (indent : Nat) : TaskTree → List String
  | node t cs => indentedLine indent t :: outlinesLines (indent + 1) cs

def outlinesLines (indent : Nat) : List TaskTree → List String
  | [] => []
  | t :: rest => t.outlineLines indent ++ outlinesLines indent rest

end

/-- Trees to be written at one indentation. -/
def frames (indent : Nat) (trees : List TaskTree) : List (TaskTree × Nat) :=
  trees.map (·, indent)

/-- The tasks still to be written by a stack of nodes. -/
def pending (stack : List (TaskTree × Nat)) : Nat :=
  sizes (stack.map (·.1))

theorem sizes_append (as bs : List TaskTree) : sizes (as ++ bs) = sizes as + sizes bs := by
  induction as with
  | nil => simp [sizes]
  | cons a as ih => simp [sizes, ih, Nat.add_assoc]

theorem pending_frames (t : Task) (cs : List TaskTree) (indent : Nat)
    (stack : List (TaskTree × Nat)) :
    pending (frames (indent + 1) cs ++ stack) < pending ((node t cs, indent) :: stack) := by
  simp [pending, frames, sizes, size, sizes_append, Function.comp_def]

/-- The lines of a stack of nodes. The children of a node take its place, so that the first of them is
written next. -/
def drain : List (TaskTree × Nat) → List String
  | [] => []
  | (node t cs, indent) :: stack =>
    indentedLine indent t :: drain (frames (indent + 1) cs ++ stack)
termination_by stack => pending stack
decreasing_by exact pending_frames t cs indent stack

def outline (t : TaskTree) : String :=
  "\n".intercalate (drain [(t, 0)])

end TaskTree
end TaskForest
