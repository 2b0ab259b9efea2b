import TaskForest.Proofs.Hierarchy.Failure
import TaskForest.Proofs.Store.Coded

/-!
What a move does to the rows of a table. It writes the whole row of the task that it read, so the cells of that
row are those of the task: the second spelling of a status becomes the first, and tags and metadata are spelled as
they are written, or lost where they could not be read. The keys of metadata that were in one order may come in
another. Every other row is left as it is.
-/

namespace TaskForest

/-- A text of metadata, its own keys in some order. -/
def Metadata.Prints (m : Metadata) (text : String) : Prop :=
  ∃ fields : List (String × Json), fields.Perm m.fields ∧ (Json.object fields).compact = text

theorem Metadata.prints_encode (order : KeyOrder) (m : Metadata) : m.Prints (m.encode order) :=
  ⟨_, order.perm m.fields, rfl⟩

namespace Row

variable {r : Row} {order : KeyOrder}

/-- A row that is spelled as the row of a task is. -/
structure Spelled (r : Row) : Prop where
  status : r.status ≠ .text "in_progress"
  tags : ∃ tags : TagSet, r.tags = tags.encode
  metadata : ∀ cell, r.metadata = some cell →
    ∃ m text, cell = .text text ∧ Metadata.decode? text = some m ∧ m.Prints text

/-- Equal cells but for the order of the keys in the two texts of the same metadata. -/
structure UpToKeys (a b : Row) : Prop where
  cell : ∀ column, column ≠ .metadata → a.cell column = b.cell column
  metadata : a.metadata = b.metadata ∨
    ∃ m first second, a.metadata = some (.text first) ∧ b.metadata = some (.text second) ∧
      Metadata.decode? second = some m ∧ m.Prints first ∧ m.Prints second

theorem metadata?_of_text {text : String} (given : r.metadata = some (.text text)) :
    r.metadata? = Metadata.decode? text := by
  rw [metadata?, given]
  rfl

/-- The metadata that is written back is the one that was there, up to the order of its keys. -/
theorem respelled_metadata (spelled : r.Spelled) (order : KeyOrder) :
    (r.respelled order).metadata = r.metadata ∨
      ∃ m first second, (r.respelled order).metadata = some (.text first) ∧ r.metadata = some (.text second) ∧
        Metadata.decode? second = some m ∧ m.Prints first ∧ m.Prints second := by
  cases given : r.metadata with
  | none =>
      left
      rw [respelled, metadata?, given]
      rfl
  | some cell =>
      obtain ⟨m, text, rfl, read, printed⟩ := spelled.metadata cell given
      have written : (r.respelled order).metadata = some (.text (m.encode order)) := by
        rw [respelled, metadata?_of_text given, read]
        rfl
      exact .inr ⟨m, _, text, written, rfl, read, m.prints_encode order, printed⟩

theorem respelled_upToKeys_iff (order : KeyOrder) : (r.respelled order).UpToKeys r ↔ r.Spelled := by
  constructor
  · intro same
    obtain ⟨cells, metadata⟩ := same
    have status : (if r.status = .text "in_progress" then .text Status.inProgress.name else r.status) = r.status :=
      Cell.words.inj (cells .status (by decide))
    have tags : TextCell.text r.tagSet.encode = r.tags := Cell.words.inj (cells .tags (by decide))
    refine ⟨fun second => ?_, ⟨_, tags.symm⟩, fun cell given => ?_⟩
    · rw [second] at status
      exact absurd status (by decide)
    · rcases metadata with same | ⟨m, _, text, _, held, read, _, printed⟩
      · obtain ⟨m, read, rfl⟩ := Option.map_eq_some_iff.1 (same.trans given)
        exact ⟨m, _, rfl, (metadata?_of_text given).symm.trans read, m.prints_encode order⟩
      · exact ⟨m, text, Option.some.inj (given.symm.trans held), read, printed⟩
  · intro spelled
    refine ⟨fun column other => ?_, respelled_metadata spelled order⟩
    obtain ⟨tags, encoded⟩ := spelled.tags
    have tagSet : TextCell.text r.tagSet.encode = r.tags := by
      rw [Row.tagSet, encoded, TextCell.text?, Option.map_some, TagSet.decode_encode, Option.getD_some]
    cases column with
    | status => exact congrArg Cell.words (if_neg spelled.status)
    | tags => exact congrArg Cell.words tagSet
    | metadata => exact absurd rfl other
    | _ => rfl

theorem spelled_of_writtenFor {task : Task} (storable : task.Storable) (written : r.WrittenFor task) :
    r.Spelled := by
  obtain ⟨order, rfl⟩ := written
  refine ⟨fun second => ?_, ⟨task.tags, rfl⟩, fun cell given => ?_⟩
  · have named : task.status.name = "in_progress" := TextCell.text.inj second
    cases status : task.status <;> rw [status] at named <;> exact absurd named (by decide)
  · obtain ⟨m, held, rfl⟩ := Option.map_eq_some_iff.1 given
    exact ⟨m, _, rfl, Metadata.decode?_encode (storable m held) order, m.prints_encode order⟩

end Row

namespace Table

theorem reparent_writes (maxDepth : Nat) (now : Int64) (id : String) (parent : Option String) (t : Table) :
    Yields (reparent maxDepth now id parent) t
      (fun _ t' => ∃ row ∈ t.rows, row.id = id ∧ t'.refusals = t.refusals ∧
        t'.rows = t.rows.map fun other =>
          if other.id = id then { row.respelled (t.orders 0) with parent := parent, updatedAt := .integer now }
          else other)
      (fun _ _ => True) := by
  have still : Governs (fun t₁ => t₁ = t) fun _ : Table => True :=
    governs (fun _ _ => trivial) (fun _ _ _ _ => trivial) (fun _ _ _ _ _ => trivial) (fun _ _ _ _ _ => trivial)
  -- until the write the table is as it was, and the task is the one that was read from its row
  refine reparent_yields_of (fun old t₁ => t₁ = t ∧ old.id = id ∧ ∃ row ∈ t.rows, read row = .ok old) ?_ ?_
  · refine (get_reads id t).mono ?_ (fun _ _ _ => trivial)
    intro found t₁ got
    obtain ⟨same, told⟩ := got
    refine ⟨fun _ => trivial, fun old here => ?_⟩
    obtain ⟨held, old_id⟩ := (told old).1 here
    cases parent with
    | none => exact ⟨same, old_id, held⟩
    | some p =>
        exact (still.moveCheck maxDepth id p same).mono (fun _ _ same => ⟨same, old_id, held⟩)
          (fun _ _ _ => trivial)
  · intro old t₁ got
    obtain ⟨rfl, rfl, row, stored, same⟩ := got
    refine (update_replaces _ t₁).mono ?_ (fun _ _ _ => trivial)
    intro _ t' written
    obtain ⟨rows, refusals⟩ := written
    refine ⟨row, stored, (read_same same).1.symm, refusals, rows.trans ?_⟩
    rw [← (read_eq_ok.1 same).ofTask_eq (t₁.orders 0)]
    rfl

/-- A move that succeeds changes one row, and in it the parent, the time of the update, and what is not spelled
as the program spells it: a status under its second name, tags and metadata. The keys of metadata may change their
places. A row that was written from a task is spelled so. -/
theorem reparent_keeps_columns (t : Table) (maxDepth : Nat) (now : Int64) (id : String) (parent : Option String)
    {task : Task} {t' : Table} (moved : reparent maxDepth now id parent t = .ok task t') :
    ∃ row ∈ t.rows, row.id = id ∧ ∃ order : KeyOrder, t'.refusals = t.refusals ∧
      t'.rows = t.rows.map (fun other =>
        if other.id = id then { row.respelled order with parent := parent, updatedAt := .integer now }
        else other) ∧
      ((row.respelled order).UpToKeys row ↔ row.Spelled) ∧
      ((∃ written : Task, written.Storable ∧ row.WrittenFor written) → row.Spelled) := by
  obtain ⟨row, stored, same, refusals, rows⟩ := (reparent_writes maxDepth now id parent t).of_ok moved
  refine ⟨row, stored, same, t.orders 0, refusals, rows, Row.respelled_upToKeys_iff _, fun got => ?_⟩
  obtain ⟨written, storable, same⟩ := got
  exact Row.spelled_of_writtenFor storable same

/-- A row that was written from a task is moved beside one that cannot be read: its tags are kept, and its metadata
comes with its keys the other way round. -/
theorem reparent_keeps_columns_beside_damage :
    let backwards : KeyOrder := ⟨List.reverse, List.reverse_perm⟩
    let stump : Row := { Row.ofTask .ascending (.new "stump" "Stump" 1) with status := "felled" }
    let rings : Metadata := ⟨[("height", .number (.int 30)), ("rings", .number (.int 80))], by decide⟩
    let oak : Task := { Task.new "oak" "Oak" 2 with tags := .ofList ["tall", "old"], metadata := some rings }
    let twig : Row := .ofTask .ascending (.new "twig" "Twig" 3)
    let t : Table := {
      rows := [stump, .ofTask .ascending oak, twig]
      distinct := by decide
      orders := fun _ => backwards }
    ∃ task t', reparent 8 5 "oak" (some "twig") t = .ok task t' ∧
      ∃ row : Row, t'.rows = [stump, { row with parent := some "twig", updatedAt := .integer 5 }, twig] ∧
        row.UpToKeys (.ofTask .ascending oak) := by
  intro backwards stump rings oak twig t
  have made : ∃ t', reparent 8 5 "oak" (some "twig") t =
      .ok { oak with parent := some "twig", updatedAt := 5 } t' := ⟨_, by cbv⟩
  obtain ⟨t', made⟩ := made
  obtain ⟨row, stored, same, order, _, rows, respelled, written⟩ :=
    reparent_keeps_columns t 8 5 "oak" (some "twig") made
  have kept : row = .ofTask .ascending oak := by
    have only : ∀ other ∈ t.rows, other.id = "oak" → other = .ofTask .ascending oak := by decide
    exact only row stored same
  have storable : oak.Storable := by decide
  refine ⟨_, t', made, row.respelled order, ?_, ?_⟩
  · rw [rows]
    rfl
  · rw [← kept]
    exact respelled.2 (written ⟨oak, storable, .ascending, kept⟩)

/-- A root is moved, its tags and its metadata being no texts that the program writes; nothing is left of them. -/
theorem reparent_loses_columns :
    let damaged : Row := { Row.ofTask .ascending (.new "oak" "Oak" 1) with
      status := "in_progress"
      tags := "tall, old"
      metadata := some "?" }
    let t : Table := { rows := [damaged], distinct := List.nodup_singleton _ }
    ∃ task t', reparent 8 5 "oak" none t = .ok task t' ∧
      t'.rows =
        [{ damaged with status := "inProgress", tags := "[]", updatedAt := .integer 5, metadata := none }] := by
  exact ⟨_, _, rfl, rfl⟩

end Table
end TaskForest
