import TaskForest.Store.Table.Row

/-!
Rows, one at a time. A row can be read exactly if its texts are texts, its status is known, its numbers are
integers and its priority has 32 bits; tags and metadata can be any text. A row that was read and is written back
keeps its cells, but for the second spelling of a status, for tags and metadata that are not spelled as they are
written, and for the order of the keys of metadata.
-/

namespace TaskForest

theorem exists_of_bind_eq_ok {ε α β : Type} {x : Except ε α} {f : α → Except ε β} {b : β}
    (h : x >>= f = .ok b) : ∃ a, x = .ok a ∧ f a = .ok b := by
  cases x with
  | ok a => exact ⟨a, rfl, h⟩
  | error e => cases h

/-- What a name becomes when the status that it stands for is written. -/
theorem Status.name_of_ofName? {text : String} {s : Status} (h : ofName? text = some s) :
    s.name = if text = "in_progress" then inProgress.name else text := by
  unfold ofName? at h
  split at h
  all_goals cases h
  all_goals rfl

/-- Columns that may be empty are read as the others are. -/
theorem readOptional_eq_ok {α β : Type} {read : Column → α → Except Damage β} {column : Column} {write : β → α}
    (reads : ∀ cell b, read column cell = .ok b ↔ cell = write b) {cell : Option α} {b : Option β} :
    readOptional read column cell = .ok b ↔ cell = b.map write := by
  cases cell with
  | none => cases b <;> simp [readOptional]
  | some cell =>
      constructor
      · intro h
        cases got : read column cell with
        | error e =>
            rw [readOptional, got] at h
            cases h
        | ok value =>
            rw [readOptional, got] at h
            cases h
            rw [(reads cell value).1 got, Option.map_some]
      · intro h
        obtain ⟨value, rfl, same⟩ := Option.map_eq_some_iff.1 h.symm
        rw [readOptional, (reads cell value).2 same.symm]
        rfl

theorem TextCell.read_eq_ok {column : Column} (cell : TextCell) (text : String) :
    cell.read column = .ok text ↔ cell = .text text := by
  cases cell <;> simp [read]

namespace Quantity

variable {column : Column}

theorem asInt64_eq_ok (q : Quantity) (n : Int64) : q.asInt64 column = .ok n ↔ q = .integer n := by
  cases q <;> simp [asInt64]

theorem asInt32_eq_ok (q : Quantity) (n : Int32) : q.asInt32 column = .ok n ↔ q = .integer n.toInt64 := by
  constructor
  · intro h
    obtain ⟨m, read, h⟩ := exists_of_bind_eq_ok h
    rw [(asInt64_eq_ok q m).1 read]
    split at h
    · next fits =>
        cases h
        congr 1
        rw [← Int64.toInt_inj, Int32.toInt_toInt64]
        exact (Int32.toInt_ofInt_of_le fits.1 (Int.lt_of_le_of_lt fits.2 (by decide))).symm
    · cases h
  · rintro rfl
    have fits : Int32.minValue.toInt ≤ n.toInt64.toInt ∧ n.toInt64.toInt ≤ Int32.maxValue.toInt := by
      rw [Int32.toInt_toInt64]
      exact ⟨n.minValue_le_toInt, n.toInt_le⟩
    have same : n.toInt64.toInt.toInt32 = n := by
      rw [Int32.toInt_toInt64]
      exact Int32.ofInt_toInt n
    exact (if_pos fits).trans (congrArg Except.ok same)

end Quantity

namespace Row

variable {r : Row} {t : Task}

/-- What is read of the tags. -/
def tagSet (r : Row) : TagSet := (r.tags.text?.map TagSet.decode).getD .empty

/-- What is read of the metadata. -/
def metadata? (r : Row) : Option Metadata :=
  (r.metadata.bind TextCell.text?).bind Metadata.decode?

/-- The row that is written for the task of a row. -/
def respelled (order : KeyOrder) (r : Row) : Row :=
  { r with
    status := if r.status = .text "in_progress" then Status.inProgress.name else r.status
    tags := r.tagSet.encode
    metadata := r.metadata?.map fun m => .text (m.encode order) }

/-- Texts where texts belong, a known status, integers where integers belong, and a priority of 32 bits. -/
structure Legible (r : Row) : Prop where
  title : ∃ text : String, r.title = text
  description : ∃ text : Option String, r.description = text.map .text
  status : ∃ name s, r.status = .text name ∧ Status.ofName? name = some s
  tags : ∃ text : String, r.tags = text
  projectId : ∃ text : Option String, r.projectId = text.map .text
  createdAt : ∃ n, r.createdAt = .integer n
  updatedAt : ∃ n, r.updatedAt = .integer n
  completedAt : ∃ n : Option Int64, r.completedAt = n.map .integer
  estimatedMinutes : ∃ n : Option Int64, r.estimatedMinutes = n.map .integer
  actualMinutes : ∃ n : Option Int64, r.actualMinutes = n.map .integer
  priority : ∃ n : Int32, r.priority = .integer n.toInt64
  metadata : ∃ text : Option String, r.metadata = text.map .text

/-- What is read of each column. -/
structure ReadsAs (r : Row) (t : Task) : Prop where
  id : t.id = r.id
  parent : t.parent = r.parent
  title : r.title = t.title
  description : r.description = t.description.map .text
  status : ∃ name, r.status = .text name ∧ Status.ofName? name = some t.status
  tags : ∃ text : String, r.tags = text ∧ TagSet.decode text = t.tags
  projectId : r.projectId = t.projectId.map .text
  createdAt : r.createdAt = .integer t.createdAt
  updatedAt : r.updatedAt = .integer t.updatedAt
  completedAt : r.completedAt = t.completedAt.map .integer
  estimatedMinutes : r.estimatedMinutes = t.estimatedMinutes.map .integer
  actualMinutes : r.actualMinutes = t.actualMinutes.map .integer
  priority : r.priority = .integer t.priority.toInt64
  metadata : ∃ text : Option String, r.metadata = text.map .text ∧ text.bind Metadata.decode? = t.metadata

theorem toTask_eq_ok : r.toTask = .ok t ↔ r.ReadsAs t := by
  constructor
  · intro h
    obtain ⟨name, named, h⟩ := exists_of_bind_eq_ok h
    dsimp only at h
    split at h
    · next s known =>
        obtain ⟨status, same, h⟩ := exists_of_bind_eq_ok h
        obtain ⟨tags, tagged, h⟩ := exists_of_bind_eq_ok h
        obtain ⟨metadata, annotated, h⟩ := exists_of_bind_eq_ok h
        obtain ⟨title, titled, h⟩ := exists_of_bind_eq_ok h
        obtain ⟨description, described, h⟩ := exists_of_bind_eq_ok h
        obtain ⟨projectId, project, h⟩ := exists_of_bind_eq_ok h
        obtain ⟨createdAt, created, h⟩ := exists_of_bind_eq_ok h
        obtain ⟨updatedAt, updated, h⟩ := exists_of_bind_eq_ok h
        obtain ⟨completedAt, completed, h⟩ := exists_of_bind_eq_ok h
        obtain ⟨estimatedMinutes, estimated, h⟩ := exists_of_bind_eq_ok h
        obtain ⟨actualMinutes, actual, h⟩ := exists_of_bind_eq_ok h
        obtain ⟨priority, ranked, h⟩ := exists_of_bind_eq_ok h
        cases same
        cases h
        exact {
          id := rfl
          parent := rfl
          title := (TextCell.read_eq_ok _ _).1 titled
          description := (readOptional_eq_ok TextCell.read_eq_ok).1 described
          status := ⟨name, (TextCell.read_eq_ok _ _).1 named, known⟩
          tags := ⟨tags, (TextCell.read_eq_ok _ _).1 tagged, rfl⟩
          projectId := (readOptional_eq_ok TextCell.read_eq_ok).1 project
          createdAt := (Quantity.asInt64_eq_ok _ _).1 created
          updatedAt := (Quantity.asInt64_eq_ok _ _).1 updated
          completedAt := (readOptional_eq_ok Quantity.asInt64_eq_ok).1 completed
          estimatedMinutes := (readOptional_eq_ok Quantity.asInt64_eq_ok).1 estimated
          actualMinutes := (readOptional_eq_ok Quantity.asInt64_eq_ok).1 actual
          priority := (Quantity.asInt32_eq_ok _ _).1 ranked
          metadata := ⟨metadata, (readOptional_eq_ok TextCell.read_eq_ok).1 annotated, rfl⟩ }
    · cases h
  · intro h
    obtain ⟨id, parent, title, description, ⟨name, named, known⟩, ⟨tags, tagged, tagSet⟩, project, created, updated,
      completed, estimated, actual, ranked, ⟨metadata, annotated, object⟩⟩ := h
    rw [toTask, (TextCell.read_eq_ok _ _).2 named, (TextCell.read_eq_ok _ _).2 tagged,
      (TextCell.read_eq_ok _ _).2 title, (readOptional_eq_ok TextCell.read_eq_ok).2 annotated,
      (readOptional_eq_ok TextCell.read_eq_ok).2 description, (readOptional_eq_ok TextCell.read_eq_ok).2 project,
      (Quantity.asInt64_eq_ok _ _).2 created, (Quantity.asInt64_eq_ok _ _).2 updated,
      (readOptional_eq_ok Quantity.asInt64_eq_ok).2 completed,
      (readOptional_eq_ok Quantity.asInt64_eq_ok).2 estimated, (readOptional_eq_ok Quantity.asInt64_eq_ok).2 actual,
      (Quantity.asInt32_eq_ok _ _).2 ranked, ← id, ← parent]
    simp only [bind, Except.bind, known, tagSet, object]
    rfl

theorem ReadsAs.tagSet_eq (h : r.ReadsAs t) : r.tagSet = t.tags := by
  obtain ⟨text, held, tags⟩ := h.tags
  rw [tagSet, held]
  exact tags

theorem ReadsAs.metadata?_eq (h : r.ReadsAs t) : r.metadata? = t.metadata := by
  obtain ⟨text, held, metadata⟩ := h.metadata
  rw [metadata?, held, ← metadata]
  cases text <;> rfl

/-- The row that is written for the task of a row, in whatever order keys are printed. -/
theorem ReadsAs.ofTask_eq (h : r.ReadsAs t) (order : KeyOrder) : ofTask order t = r.respelled order := by
  obtain ⟨name, named, known⟩ := h.status
  have status : TextCell.text t.status.name =
      if r.status = .text "in_progress" then .text Status.inProgress.name else r.status := by
    rw [Status.name_of_ofName? known, named]
    by_cases second : name = "in_progress" <;> simp [second]
  simp only [ofTask, respelled, h.tagSet_eq, h.metadata?_eq, h.id, h.parent, ← h.title, ← h.description, status,
    ← h.projectId, ← h.createdAt, ← h.updatedAt, ← h.completedAt, ← h.estimatedMinutes, ← h.actualMinutes,
    ← h.priority]

theorem legible_iff : r.Legible ↔ ∃ t, r.ReadsAs t := by
  constructor
  · intro h
    obtain ⟨⟨title, titled⟩, ⟨description, described⟩, ⟨name, status, named, known⟩, ⟨tags, tagged⟩,
      ⟨projectId, project⟩, ⟨createdAt, created⟩, ⟨updatedAt, updated⟩, ⟨completedAt, completed⟩,
      ⟨estimatedMinutes, estimated⟩, ⟨actualMinutes, actual⟩, ⟨priority, ranked⟩, ⟨metadata, annotated⟩⟩ := h
    let task : Task := {
      id := r.id
      title := title
      description := description
      status := status
      tags := TagSet.decode tags
      projectId := projectId
      parent := r.parent
      createdAt := createdAt
      updatedAt := updatedAt
      completedAt := completedAt
      estimatedMinutes := estimatedMinutes
      actualMinutes := actualMinutes
      priority := priority
      metadata := metadata.bind Metadata.decode? }
    exact ⟨task, rfl, rfl, titled, described, ⟨name, named, known⟩, ⟨tags, tagged, rfl⟩, project, created, updated,
      completed, estimated, actual, ranked, metadata, annotated, rfl⟩
  · intro got
    obtain ⟨t, reads⟩ := got
    obtain ⟨name, named, known⟩ := reads.status
    obtain ⟨tags, tagged, _⟩ := reads.tags
    obtain ⟨metadata, annotated, _⟩ := reads.metadata
    exact ⟨⟨_, reads.title⟩, ⟨_, reads.description⟩, ⟨name, _, named, known⟩, ⟨tags, tagged⟩, ⟨_, reads.projectId⟩,
      ⟨_, reads.createdAt⟩, ⟨_, reads.updatedAt⟩, ⟨_, reads.completedAt⟩, ⟨_, reads.estimatedMinutes⟩,
      ⟨_, reads.actualMinutes⟩, ⟨_, reads.priority⟩, ⟨metadata, annotated⟩⟩

theorem legible_ofTask (order : KeyOrder) (t : Task) : (ofTask order t).Legible where
  title := ⟨_, rfl⟩
  description := ⟨_, rfl⟩
  status := ⟨_, _, rfl, Status.ofName?_name t.status⟩
  tags := ⟨_, rfl⟩
  projectId := ⟨_, rfl⟩
  createdAt := ⟨_, rfl⟩
  updatedAt := ⟨_, rfl⟩
  completedAt := ⟨_, rfl⟩
  estimatedMinutes := ⟨_, rfl⟩
  actualMinutes := ⟨_, rfl⟩
  priority := ⟨_, rfl⟩
  metadata := ⟨t.metadata.map (Metadata.encode order), (Option.map_map _ _ _).symm⟩

end Row
end TaskForest
