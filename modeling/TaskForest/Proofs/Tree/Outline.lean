import TaskForest.Tree.Basic

/-!
The outline of a tree. The loop owes to its stack the outlines of the trees on it, one behind the other, each at
its own indentation; writing a node pays its line and owes the outlines of its children instead. So the text is
that of the recursion, there is one line for each task, and the lines stand in preorder.
-/

namespace TaskForest

/-- Some of the lines that are joined may be joined first. -/
theorem intercalate_append {sep : String} {block : List String} (some_line : block ≠ []) (rest : List String) :
    sep.intercalate (block ++ rest) = sep.intercalate (sep.intercalate block :: rest) := by
  cases rest with
  | nil => rw [List.append_nil, String.intercalate_singleton]
  | cons next rest =>
      rw [String.intercalate_append_of_ne_nil some_line (List.cons_ne_nil next rest),
        String.intercalate_cons_cons]

namespace TaskTree

mutual

/-- The outline as a text: the line of the task and the outlines of its children, joined by line feeds. -/
def outlineText (indent : Nat) : TaskTree → String
  | node t cs => "\n".intercalate (indentedLine indent t :: outlineTexts (indent + 1) cs)

def outlineTexts (indent : Nat) : List TaskTree → List String
  | [] => []
  | t :: rest => t.outlineText indent :: outlineTexts indent rest

end

mutual

/-- The tasks in preorder, each with its indentation. -/
def placed (indent : Nat) : TaskTree → List (Task × Nat)
  | node t cs => (t, indent) :: placedAll (indent + 1) cs

def placedAll (indent : Nat) : List TaskTree → List (Task × Nat)
  | [] => []
  | t :: rest => t.placed indent ++ placedAll indent rest

end

theorem outlinesLines_eq (indent : Nat) (trees : List TaskTree) :
    outlinesLines indent trees = (frames indent trees).flatMap fun f => f.1.outlineLines f.2 := by
  induction trees with
  | nil => rfl
  | cons t rest ih =>
      rw [outlinesLines, ih]
      rfl

/-- What the loop still writes are the outlines of all trees on the stack. -/
theorem drain_eq (stack : List (TaskTree × Nat)) :
    drain stack = stack.flatMap fun f => f.1.outlineLines f.2 := by
  fun_induction drain stack with
  | case1 => rfl
  | case2 t cs indent stack ih =>
      rw [ih, List.flatMap_append, ← outlinesLines_eq, List.flatMap_cons, outlineLines, List.cons_append]

theorem drain_single (tree : TaskTree) (indent : Nat) : drain [(tree, indent)] = tree.outlineLines indent := by
  rw [drain_eq, List.flatMap_singleton]

theorem outlineLines_ne_nil (tree : TaskTree) (indent : Nat) : tree.outlineLines indent ≠ [] := by
  cases tree
  rw [outlineLines]
  exact List.cons_ne_nil _ _

mutual

theorem intercalate_outlineLines : ∀ (tree : TaskTree) (indent : Nat),
    "\n".intercalate (tree.outlineLines indent) = tree.outlineText indent
  | node t cs, indent => by
    rw [outlineLines, outlineText, intercalate_outlinesLines cs (indent + 1) (indentedLine indent t)]

/-- A line stands in front, since joining does not tell no lines from one empty line. -/
theorem intercalate_outlinesLines : ∀ (trees : List TaskTree) (indent : Nat) (line : String),
    "\n".intercalate (line :: outlinesLines indent trees) = "\n".intercalate (line :: outlineTexts indent trees)
  | [], _, _ => rfl
  | t :: rest, indent, line => by
    have some_line := outlineLines_ne_nil t indent
    calc "\n".intercalate (line :: outlinesLines indent (t :: rest))
      _ = line ++ "\n" ++ "\n".intercalate (t.outlineLines indent ++ outlinesLines indent rest) :=
        String.intercalate_cons_of_ne_nil (List.append_ne_nil_of_left_ne_nil some_line _)
      _ = line ++ "\n" ++ "\n".intercalate (t.outlineText indent :: outlinesLines indent rest) := by
        rw [intercalate_append some_line, intercalate_outlineLines t indent]
      _ = line ++ "\n" ++ "\n".intercalate (t.outlineText indent :: outlineTexts indent rest) := by
        rw [intercalate_outlinesLines rest indent]
      _ = "\n".intercalate (line :: outlineTexts indent (t :: rest)) :=
        String.intercalate_cons_cons.symm

end

mutual

theorem map_placed : ∀ (tree : TaskTree) (indent : Nat), (tree.placed indent).map Prod.fst = tree.preorder
  | node t cs, indent => by rw [placed, preorder, List.map_cons, map_placedAll cs]

theorem map_placedAll : ∀ (trees : List TaskTree) (indent : Nat),
    (placedAll indent trees).map Prod.fst = preorders trees
  | [], _ => rfl
  | t :: rest, indent => by
    rw [placedAll, preorders, List.map_append, map_placed t, map_placedAll rest]

end

mutual

theorem outlineLines_eq : ∀ (tree : TaskTree) (indent : Nat),
    tree.outlineLines indent = (tree.placed indent).map fun p => indentedLine p.2 p.1
  | node t cs, indent => by rw [outlineLines, placed, List.map_cons, outlinesLines_eq_placedAll cs]

theorem outlinesLines_eq_placedAll : ∀ (trees : List TaskTree) (indent : Nat),
    outlinesLines indent trees = (placedAll indent trees).map fun p => indentedLine p.2 p.1
  | [], _ => rfl
  | t :: rest, indent => by
    rw [outlinesLines, placedAll, List.map_append, outlineLines_eq t, outlinesLines_eq_placedAll rest]

end

theorem length_placed (tree : TaskTree) (indent : Nat) : (tree.placed indent).length = tree.size := by
  rw [size_eq_length, ← map_placed tree indent, List.length_map]

/-- A line has no line feed but those of the id and of the title. -/
theorem newline_notMem_indentedLine {t : Task} (id : '\n' ∉ t.id.toList) (title : '\n' ∉ t.title.toList)
    (indent : Nat) : '\n' ∉ (indentedLine indent t).toList := by
  have status : '\n' ∉ t.status.name.toList := by cases t.status <;> decide
  simp [indentedLine, Task.line, id, title, status]

/-- The outline is the text of the recursion. It has one line for each task, and the line at a place has the
id of the task that stands at that place of the preorder, at the indentation of that task. Where no id and no
title has a line feed in it, these are the lines of the text. -/
theorem outline_follows_preorder (tree : TaskTree) :
    let lines := drain [(tree, 0)]
    tree.outline = "\n".intercalate lines ∧ tree.outline = tree.outlineText 0 ∧
    lines.length = tree.size ∧
    (∀ i < tree.size, ∃ t indent, tree.preorder[i]? = some t ∧ (tree.placed 0)[i]? = some (t, indent) ∧
      lines[i]? = some (String.ofList (List.replicate (2 * indent) ' ') ++
        (t.id ++ "  [" ++ t.status.name ++ "]  " ++ t.title))) ∧
    ((∀ t ∈ tree.preorder, '\n' ∉ t.id.toList ∧ '\n' ∉ t.title.toList) →
      tree.outline.toList.splitOn '\n' = lines.map String.toList) := by
  intro lines
  have recursive : lines = tree.outlineLines 0 := drain_single tree 0
  have in_order : lines = (tree.placed 0).map fun p => indentedLine p.2 p.1 :=
    recursive.trans (outlineLines_eq tree 0)
  refine ⟨rfl, ?_, ?_, fun i inside => ?_, fun unbroken => ?_⟩
  · exact (congrArg "\n".intercalate recursive).trans (intercalate_outlineLines tree 0)
  · rw [in_order, List.length_map, length_placed]
  · rw [← length_placed tree 0] at inside
    refine ⟨((tree.placed 0)[i]).1, ((tree.placed 0)[i]).2, ?_, List.getElem?_eq_getElem inside, ?_⟩
    · rw [← map_placed tree 0, List.getElem?_map, List.getElem?_eq_getElem inside, Option.map_some]
    · rw [in_order, List.getElem?_map, List.getElem?_eq_getElem inside]
      rfl
  · have whole : ∀ line ∈ lines.map String.toList, '\n' ∉ line := by
      rw [in_order]
      simp only [List.forall_mem_map]
      intro p hp
      have task : p.1 ∈ tree.preorder := map_placed tree 0 ▸ List.mem_map_of_mem hp
      exact newline_notMem_indentedLine (unbroken p.1 task).1 (unbroken p.1 task).2 p.2
    have some_line : lines.map String.toList ≠ [] := by
      rw [recursive]
      exact mt List.map_eq_nil_iff.1 (outlineLines_ne_nil tree 0)
    rw [← List.splitOn_intercalate '\n' whole some_line, outline, String.toList_intercalate]
    rfl

/-- The third line of a root with two children, of which the first has one of its own, and all lines of the
text. -/
theorem outline_follows_preorder_of_four :
    let oak : Task := .new "oak" "Oak" 1
    let elm : Task := { Task.new "elm" "Elm" 2 with status := .inProgress, parent := some "oak" }
    let ivy : Task := { Task.new "ivy" "Ivy [2]" 4 with parent := some "elm" }
    let ash : Task := { Task.new "ash" "Ash" 3 with parent := some "oak" }
    let tree : TaskTree := .node oak [.node elm [.node ivy []], .node ash []]
    2 < tree.size ∧ tree.preorder[2]? = some ivy ∧
    (drain [(tree, 0)])[2]? = some "    ivy  [todo]  Ivy [2]" ∧
    tree.outline.toList.splitOn '\n' =
      ["oak  [todo]  Oak", "  elm  [inProgress]  Elm", "    ivy  [todo]  Ivy [2]", "  ash  [todo]  Ash"].map
        String.toList := by
  intro oak elm ivy ash tree
  have inside : 2 < tree.size := by decide
  have unbroken : ∀ t ∈ tree.preorder, '\n' ∉ t.id.toList ∧ '\n' ∉ t.title.toList := by decide
  obtain ⟨_, _, _, lines, split⟩ := outline_follows_preorder tree
  obtain ⟨_, _, third, level, line⟩ := lines 2 inside
  cases level
  refine ⟨inside, third, line, (split unbroken).trans ?_⟩
  rw [drain_single]
  decide

end TaskTree
end TaskForest
