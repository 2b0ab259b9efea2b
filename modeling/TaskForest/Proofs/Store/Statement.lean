import TaskForest.Store.Table

/-!
What the statements do. Both that write a row leave it as the row of the task that they are given, whatever it held
before: one of them writes every column, the other one every column but the id. The clauses of a query say of a row
what the selection says of a task.
-/

namespace TaskForest
namespace Datum

@[simp] theorem asText_text (s : String) : (text s).asText = some s := rfl

@[simp] theorem asQuantity_integer (n : Int64) : (integer n).asQuantity = some (.integer n) := rfl

@[simp] theorem asText_ofText? (s : Option String) : (ofText? s).asText = s := by
  cases s <;> rfl

@[simp] theorem asQuantity_ofInteger? (n : Option Int64) : (ofInteger? n).asQuantity = n.map .integer := by
  cases n <;> rfl

end Datum

theorem Cell.ofWords?_eq_words {cell : Option TextCell} {w : TextCell} : ofWords? cell = .words w ↔ cell = some w := by
  cases cell <;> simp [ofWords?]

theorem Cell.ofWords?_eq_absent {cell : Option TextCell} : ofWords? cell = .absent ↔ cell = none := by
  cases cell <;> simp [ofWords?]

namespace Row

section Writing

variable (order : KeyOrder) (t : Task) (r : Row)

theorem assign_insertion : r.assign (t.parameters order) .insertion = .ok (ofTask order t) := by
  simp [assign, Assignments.insertion, Task.parameters, setCell?, ofTask, Function.comp_def]

theorem assign_update : r.assign (t.parameters order) .update = .ok { ofTask order t with id := r.id } := by
  simp [assign, Assignments.update, Task.parameters, setCell?, ofTask, Function.comp_def]

/-- All columns are written, and all but the id. -/
example : Assignments.insertion.map Prod.fst = Column.all ∧ Assignments.update.map Prod.fst = Column.all.erase .id :=
  ⟨rfl, rfl⟩

end Writing

section Clauses

variable (r : Row)

theorem holds_parentIs (id : String) : Clause.holds r (.equals .parent id) = decide (r.parent = some id) := by
  refine decide_eq_decide.2 (Cell.ofWords?_eq_words.trans ?_)
  cases r.parent <;> simp

theorem holds_parentAbsent : Clause.holds r (.isAbsent .parent) = decide (r.parent = none) :=
  decide_eq_decide.2 (Cell.ofWords?_eq_absent.trans Option.map_eq_none_iff)

theorem holds_status (name : String) : Clause.holds r (.equals .status name) = decide (r.status = .text name) :=
  decide_eq_decide.2 ⟨Cell.words.inj, congrArg Cell.words⟩

theorem holds_project (name : String) :
    Clause.holds r (.equals .projectId name) = decide (r.projectId = some (.text name)) :=
  decide_eq_decide.2 Cell.ofWords?_eq_words

theorem isSelected_eq (s : Selection) : r.isSelected s =
    (Selection.meets s.parent (fun rule => r.parent = rule.parent)
      && Selection.meets s.status (fun status => r.status = .text status.name)
      && Selection.meets s.project (fun project => r.projectId = some (.text project))) := by
  obtain ⟨parent, status, project⟩ := s
  rw [isSelected, Selection.clauses, List.all_append, List.all_append]
  congr 2
  · rcases parent with - | - | id
    · rfl
    · exact (Bool.and_true _).trans r.holds_parentAbsent
    · exact (Bool.and_true _).trans (r.holds_parentIs id)
  · cases status with
    | none => rfl
    | some status => exact (Bool.and_true _).trans (r.holds_status status.name)
  · cases project with
    | none => rfl
    | some project => exact (Bool.and_true _).trans (r.holds_project project)

theorem isSelected_childrenOf (id : String) : r.isSelected (.childrenOf id) = decide (r.parent = some id) :=
  (Bool.and_true _).trans (r.holds_parentIs id)

theorem isSelected_roots : r.isSelected .roots = decide (r.parent = none) :=
  (Bool.and_true _).trans r.holds_parentAbsent

end Clauses

end Row
end TaskForest
