import TaskForest.Proofs.Task.Json
import TaskForest.Tree.Json

/-!
Trees are read back from their JSON, although the children of a node stand among the fields of its task. The reader
meets the children where they stand and holds the other fields back, in order, so that they are taken as those of a
task alone.
-/

namespace TaskForest

open Json (Draft Decoded)

namespace TaskTree

variable {t : Task} {tree : TaskTree} {data j : Json} {room : Nat}

mutual

/-- A tree as JSON, the fields of the metadata of each task in some order. -/
inductive Printed : TaskTree → Json → Prop
  | node {t : Task} {cs : List TaskTree} {data : Json} {js : List Json}
      (metadata : Metadata.Printed t.metadata data) (children : PrintedAll cs js) :
      Printed (.node t cs) (.object (t.fieldsWith data ++ [("children", .array js)]))

inductive PrintedAll : List TaskTree → List Json → Prop
  | nil : PrintedAll [] []
  | cons {tree : TaskTree} {trees : List TaskTree} {j : Json} {js : List Json}
      (first : Printed tree j) (behind : PrintedAll trees js) : PrintedAll (tree :: trees) (j :: js)

end

mutual

theorem printed_toJson : ∀ tree : TaskTree, tree.Printed tree.toJson
  | .node t cs => by
    have split : (node t cs).toJson = .object (t.fields ++ [("children", .array (toJsons cs))]) := by rw [toJson]
    exact split ▸ .node (Task.printed_optional t.metadata) (printedAll_toJsons cs)

theorem printedAll_toJsons : ∀ trees : List TaskTree, PrintedAll trees (toJsons trees)
  | [] => .nil
  | tree :: rest => .cons (printed_toJson tree) (printedAll_toJsons rest)

end

/-- Fields as they are held back. -/
def heldDrafts (fields : List (String × Json)) : List (String × Draft) :=
  fields.map fun f => (f.1, f.2.draft)

/-- Fields in front of the children are held back. -/
theorem takeFields_append {fields : List (String × Json)} (held : List (String × Draft))
    (rest : List (Option String × Draft)) (apart : "children" ∉ fields.map (·.1))
    (deep : Json.fieldDepths fields ≤ room) :
    takeFields room none held (Json.fieldDrafts fields ++ rest) =
      takeFields room none ((heldDrafts fields).reverse ++ held) rest := by
  induction fields generalizing held with
  | nil => rfl
  | cons f fields ih =>
      obtain ⟨name, value⟩ := f
      rw [List.map_cons, List.mem_cons, not_or] at apart
      rw [Json.fieldDepths, Nat.max_le] at deep
      rw [Json.fieldDrafts, List.cons_append, takeFields, if_neg (Ne.symm apart.1), Json.value_draft _ _ deep.1,
        heldDrafts, List.map_cons, List.reverse_cons, List.append_assoc]
      exact ih ((name, value.draft) :: held) apart.2 deep.2

theorem children_notMem (t : Task) (data : Json) : "children" ∉ (t.fieldsWith data).map (·.1) := by
  have names : (t.fieldsWith data).map (·.1) = Task.fieldNames := rfl
  rw [names]
  decide

/-- The fields of the task go to the task, the children to the node. -/
theorem takeFields_node {cs : List TaskTree} {js : List Json}
    (deep : Json.fieldDepths (t.fieldsWith data) ≤ room)
    (children : childrenOfDraft room (Json.array js).draft = .ok cs) :
    takeFields room none [] (Json.fieldDrafts (t.fieldsWith data ++ [("children", .array js)])) =
      .ok (some cs, (heldDrafts (t.fieldsWith data)).reverse) := by
  have split : Json.fieldDrafts (t.fieldsWith data ++ [("children", .array js)]) =
      Json.fieldDrafts (t.fieldsWith data) ++ [(some "children", (Json.array js).draft)] := rfl
  rw [split, takeFields_append [] _ (children_notMem t data) deep, List.append_nil, takeFields, if_pos rfl,
    children]
  rfl

theorem heldTask_fieldsWith (printed : Metadata.Printed t.metadata data)
    (deep : Json.fieldDepths (t.fieldsWith data) ≤ room) :
    heldTask room (heldDrafts (t.fieldsWith data)) = .ok t := by
  rw [heldTask, heldDrafts, List.foldlM_map,
    Task.Parts.foldlM_take Status.ofHeld (fun _ => .ok ()) Status.ofVariant_name printed deep]
  exact Task.Parts.finish_ofTask t

theorem childrenOfDraft_array {cs : List TaskTree} {js : List Json}
    (read : ofDrafts room (Json.drafts js) = .ok cs) : childrenOfDraft (room + 1) (Json.array js).draft = .ok cs := by
  rw [Json.draft, childrenOfDraft, read]
  rfl

theorem ofDraft_node {cs : List TaskTree} {js : List Json} (metadata : Metadata.Printed t.metadata data)
    (deep : Json.fieldDepths (t.fieldsWith data) ≤ room)
    (children : childrenOfDraft room (Json.array js).draft = .ok cs) :
    ofDraft (room + 1) (Json.object (t.fieldsWith data ++ [("children", .array js)])).draft = .ok (node t cs) := by
  rw [Json.draft, ofDraft, takeFields_node deep children]
  change (do
    let task ← heldTask room (heldDrafts (t.fieldsWith data)).reverse.reverse
    pure (node task cs)) = _
  rw [List.reverse_reverse, heldTask_fieldsWith metadata deep]
  rfl

mutual

theorem ofDraft_draft : ∀ (tree : TaskTree) (j : Json) (room : Nat), tree.Printed j → j.depth ≤ room →
    ofDraft room j.draft = .ok tree
  | .node t cs, _, room, @Printed.node _ _ data js metadata children, deep => by
    rw [Json.depth, Json.fieldDepths_append] at deep
    simp only [Json.fieldDepths, Json.depth] at deep
    -- the object of the node, and in it the array of its children
    obtain ⟨room, rfl⟩ : ∃ n, room = n + 2 := ⟨room - 2, by omega⟩
    have trees := ofDrafts_drafts cs js room children (by omega)
    exact ofDraft_node metadata (by omega) (childrenOfDraft_array trees)

theorem ofDrafts_drafts : ∀ (trees : List TaskTree) (js : List Json) (room : Nat), PrintedAll trees js →
    Json.depths js ≤ room → ofDrafts room (Json.drafts js) = .ok trees
  | [], _, _, .nil, _ => rfl
  | tree :: trees, _, room, .cons first behind, deep => by
    rw [Json.depths, Nat.max_le] at deep
    rw [Json.drafts, ofDrafts, ofDraft_draft tree _ room first deep.1, ofDrafts_drafts trees _ room behind deep.2]
    rfl

end

mutual

theorem integral_of_printed : ∀ (tree : TaskTree) (j : Json), tree.Printed j →
    (∀ t ∈ tree.preorder, t.Integral) → j.Integral
  | .node t cs, _, @Printed.node _ _ data js metadata children, integral => by
    rw [preorder, List.forall_mem_cons] at integral
    have own := Task.integral_fieldsWith metadata integral.1
    have below := integral_of_printedAll cs js children integral.2
    rw [Json.integralFields_iff] at own
    refine Json.integralFields_iff.2 (List.forall_mem_append.2 ⟨own, ?_⟩)
    exact List.forall_mem_singleton.2 below

theorem integral_of_printedAll : ∀ (trees : List TaskTree) (js : List Json), PrintedAll trees js →
    (∀ t ∈ preorders trees, t.Integral) → Json.IntegralItems js
  | [], _, .nil, _ => trivial
  | tree :: trees, _, .cons first behind, integral => by
    rw [preorders, List.forall_mem_append] at integral
    exact ⟨integral_of_printed tree _ first integral.1, integral_of_printedAll trees _ behind integral.2⟩

end

end TaskTree

/-- The pretty text of a task or of a tree is read as that task or tree, in whatever order the fields of the
metadata are printed, if it does not nest deeper than the reader goes and holds no floats. -/
theorem json_reads_back :
    (∀ (t : Task) (j : Json), t.Printed j → t.Integral → j.depth ≤ Draft.maxNesting →
      Task.decode j.pretty = .ok t) ∧
    (∀ (tree : TaskTree) (j : Json), tree.Printed j → (∀ t ∈ tree.preorder, t.Integral) →
      j.depth ≤ Draft.maxNesting → TaskTree.decode j.pretty = .ok tree) ∧
    (∀ t : Task, t.Printed t.toJson) ∧ ∀ tree : TaskTree, tree.Printed tree.toJson := by
  refine ⟨fun t j printed integral shallow => ?_, fun tree j printed integral shallow => ?_, Task.printed_toJson,
    TaskTree.printed_toJson⟩
  · rw [Task.decode, Json.decode_pretty _ (printed.integral integral)]
    exact Task.ofDraft_draft printed shallow
  · rw [TaskTree.decode, Json.decode_pretty _ (TaskTree.integral_of_printed tree j printed integral)]
    exact TaskTree.ofDraft_draft tree j _ printed shallow

/-- A quote, a line feed and a null character in a title, and metadata that is not printed in the order of its
keys, below another task. -/
theorem json_reads_back_of_two :
    let data : Metadata := ⟨[("age", .number (.int 80)), ("rings", .array [.null, .string "wide"])], by decide⟩
    let oak : Task := .new "oak" "Oak" 1
    let twig : Task := { Task.new "twig" "a \"twig\"\n\u0000" 2 with metadata := some data, parent := some "oak" }
    let printed : Json := .object (twig.fieldsWith (.object data.fields.reverse))
    let tree : TaskTree := .node oak [.node twig []]
    let printedTree : Json := .object (oak.fieldsWith .null ++ [("children", .array [
      .object (twig.fieldsWith (.object data.fields.reverse) ++ [("children", .array [])])])])
    Task.decode printed.pretty = .ok twig ∧ TaskTree.decode printedTree.pretty = .ok tree := by
  intro data oak twig printed tree printedTree
  obtain ⟨tasks, trees, _⟩ := json_reads_back
  have metadata : Metadata.Printed twig.metadata (.object data.fields.reverse) := .fields (List.reverse_perm _)
  have twig_integral : twig.Integral := by decide
  have oak_integral : oak.Integral := by decide
  refine ⟨tasks twig printed ⟨_, metadata, rfl⟩ twig_integral (by decide),
    trees tree printedTree ?_ ?_ (by decide)⟩
  · exact .node .absent (.cons (.node metadata .nil) .nil)
  · exact List.forall_mem_cons.2 ⟨oak_integral, List.forall_mem_singleton.2 twig_integral⟩

end TaskForest
