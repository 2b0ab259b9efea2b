import TaskForest.Proofs.Json.Pretty
import TaskForest.Proofs.Store.Encoded

/-!
Tasks are read back from their JSON, in whatever order the fields of the metadata are written. Each field is taken
under its own name and none comes twice, so the parts that are taken are the whole task; this does not depend on
how a status is read, as long as it is read from its name.
-/

namespace TaskForest

open Json (Draft Decoded)

namespace Json

theorem foldFields_cons {σ : Type} (take : σ → String → Draft → Decoded σ) (start : σ) (key : String)
    (value : Draft) (rest : List (Option String × Draft)) (stop : Stop) :
    Draft.foldFields take start ((some key, value) :: rest) stop =
      take start key value >>= fun s => Draft.foldFields take s rest stop := by
  rw [Draft.foldFields, List.foldlM_cons, bind_assoc]
  rfl

theorem foldFields_fieldDrafts {σ : Type} (take : σ → String → Draft → Decoded σ) (start : σ)
    (fields : List (String × Json)) :
    Draft.foldFields take start (fieldDrafts fields) .closed =
      fields.foldlM (fun s f => take s f.1 f.2.draft) start := by
  induction fields generalizing start with
  | nil => rfl
  | cons f rest ih =>
      rw [fieldDrafts, foldFields_cons, List.foldlM_cons]
      exact congrArg _ (funext ih)

end Json

theorem Status.ofVariant_name (s : Status) : ofVariant s.name = .ok s := by
  cases s <;> rfl

/-- The metadata of a task as JSON, its fields in some order. -/
inductive Metadata.Printed : Option Metadata → Json → Prop
  | absent : Printed none .null
  | fields {m : Metadata} {order : List (String × Json)} (perm : order.Perm m.fields) :
      Printed (some m) (.object order)

namespace Task

variable {t : Task} {data j : Json} {room : Nat}

/-- The fields of a task, with this for its metadata. -/
def fieldsWith (t : Task) (data : Json) : List (String × Json) :=
  t.fields.dropLast ++ [("metadata", data)]

/-- The numbers in the metadata of a task are integers of 64 bits. -/
def Integral (t : Task) : Prop := ∀ m, t.metadata = some m → m.toJson.Integral

instance (t : Task) : Decidable t.Integral :=
  inferInstanceAs (Decidable (∀ m, t.metadata = some m → m.toJson.Integral))

/-- A task as JSON, the fields of its metadata in some order. -/
def Printed (t : Task) (j : Json) : Prop :=
  ∃ data, Metadata.Printed t.metadata data ∧ j = .object (t.fieldsWith data)

theorem printed_optional (m : Option Metadata) : Metadata.Printed m (optional Metadata.toJson m) := by
  cases m with
  | none => exact .absent
  | some m => exact .fields .rfl

theorem printed_toJson (t : Task) : t.Printed t.toJson :=
  ⟨_, printed_optional t.metadata, rfl⟩

section Values

theorem asString_optional (s : Option String) :
    (optional Json.string s).draft.asOption Draft.asString = .ok s := by
  cases s <;> rfl

theorem asInteger_of_fits {expected : Json.Expected} {least greatest n : Int} (fits : least ≤ n ∧ n ≤ greatest) :
    (Json.number (.int n)).draft.asInteger expected least greatest = .ok n :=
  if_pos fits

theorem asInt64_integer64 (n : Int64) : (integer64 n).draft.asInt64 = .ok n := by
  rw [Draft.asInt64, integer64, asInteger_of_fits ⟨n.minValue_le_toInt, n.toInt_le⟩]
  exact congrArg Except.ok (Int64.ofInt_toInt n)

theorem asInt64_optional (n : Option Int64) : (optional integer64 n).draft.asOption Draft.asInt64 = .ok n := by
  cases n with
  | none => rfl
  | some n =>
      change some <$> (integer64 n).draft.asInt64 = _
      rw [asInt64_integer64]
      rfl

theorem asInt32_priority (n : Int32) : (Json.number (.int n.toInt)).draft.asInt32 = .ok n := by
  rw [Draft.asInt32, asInteger_of_fits ⟨n.minValue_le_toInt, n.toInt_le⟩]
  exact congrArg Except.ok (Int32.ofInt_toInt n)

theorem asStrings_tags (tags : TagSet) (room : Nat) :
    TagSet.ofList <$> (Json.array (tags.names.map .string)).draft.asStrings (room + 1) = .ok tags := by
  rw [TagSet.asStrings_strings]
  exact congrArg Except.ok tags.ofList_names

theorem asOption_metadata {m : Option Metadata} (printed : Metadata.Printed m data) (deep : data.depth ≤ room) :
    data.draft.asOption (Metadata.ofDraft room) = .ok m := by
  cases printed with
  | absent => rfl
  | @fields m order perm =>
      have read : Metadata.ofDraft room (Json.object order).draft = .ok m := Metadata.ofDraft_of_perm perm deep
      change some <$> Metadata.ofDraft room (Json.object order).draft = _
      rw [read]
      rfl

end Values

namespace Parts

/-- All the parts of a task. -/
def ofTask (t : Task) : Parts where
  id := some t.id
  title := some t.title
  description := some t.description
  status := some t.status
  tags := some t.tags
  projectId := some t.projectId
  parent := some t.parent
  createdAt := some t.createdAt
  updatedAt := some t.updatedAt
  completedAt := some t.completedAt
  estimatedMinutes := some t.estimatedMinutes
  actualMinutes := some t.actualMinutes
  priority := some t.priority
  metadata := some t.metadata

theorem finish_ofTask (t : Task) : (ofTask t).finish = .ok t := rfl

theorem foldlM_take (status : Draft → Decoded Status) (other : Draft → Decoded Unit)
    (named : ∀ s : Status, status (.string s.name) = .ok s) (printed : Metadata.Printed t.metadata data)
    (deep : Json.fieldDepths (t.fieldsWith data) ≤ room) :
    (t.fieldsWith data).foldlM (fun p f => Parts.take room status other p f.1 f.2.draft) ({} : Parts) =
      .ok (ofTask t) := by
  have shallow := Json.fieldDepths_le_iff.1 deep
  have metadata := asOption_metadata printed (shallow ("metadata", data) (by simp [fieldsWith]))
  have tags_deep := shallow ("tags", .array (t.tags.names.map .string)) (by simp [fieldsWith, fields])
  obtain ⟨room, rfl⟩ : ∃ n, room = n + 1 := ⟨room - 1, by simp only [Json.depth] at tags_deep; omega⟩
  have status_read : status (Json.string t.status.name).draft = .ok t.status := named t.status
  -- field by field: none comes under a name that was taken before
  simp only [fieldsWith, fields, List.dropLast, List.cons_append, List.nil_append, List.foldlM_cons,
    List.foldlM_nil, take, Draft.once, asString_optional, asInt64_integer64, asInt64_optional, asInt32_priority,
    asStrings_tags, metadata, status_read]
  rfl

end Parts

theorem ofDraft_draft (printed : t.Printed j) (deep : j.depth ≤ room) : ofDraft room j.draft = .ok t := by
  obtain ⟨data, printed, rfl⟩ := printed
  rw [Json.depth] at deep
  obtain ⟨room, rfl⟩ : ∃ n, room = n + 1 := ⟨room - 1, by omega⟩
  have fields_deep : Json.fieldDepths (t.fieldsWith data) ≤ room := by omega
  have taken := Parts.foldlM_take (Status.ofDraft room) skipField Status.ofVariant_name printed fields_deep
  rw [Json.draft, ofDraft, Json.foldFields_fieldDrafts, taken]
  exact Parts.finish_ofTask t

section Integral

theorem integral_optional {α : Type} {f : α → Json} (h : ∀ a, (f a).Integral) (o : Option α) :
    (optional f o).Integral := by
  cases o with
  | none => trivial
  | some a => exact h a

theorem integral_integer64 (n : Int64) : (integer64 n).Integral :=
  ⟨n.minValue_le_toInt, Int.lt_of_le_of_lt n.toInt_le (by decide)⟩

theorem integral_priority (n : Int32) : (Json.number (.int n.toInt)).Integral :=
  ⟨Int.le_trans (by decide) n.minValue_le_toInt, Int.lt_of_le_of_lt n.toInt_le (by decide)⟩

theorem integral_metadata (printed : Metadata.Printed t.metadata data) (integral : t.Integral) :
    data.Integral := by
  obtain ⟨m, given⟩ : ∃ m, t.metadata = m := ⟨_, rfl⟩
  rw [given] at printed
  cases printed with
  | absent => trivial
  | @fields m order perm =>
      have each : ∀ f ∈ m.fields, f.2.Integral := Json.integralFields_iff.1 (integral m given)
      exact Json.integralFields_iff.2 fun f hf => each f (perm.mem_iff.1 hf)

theorem integral_fieldsWith (printed : Metadata.Printed t.metadata data) (integral : t.Integral) :
    Json.IntegralFields (t.fieldsWith data) := by
  have text := integral_optional (f := Json.string) fun _ => trivial
  have whole := integral_optional integral_integer64
  exact ⟨trivial, trivial, text t.description, trivial, TagSet.integral_strings t.tags.names, text t.projectId,
    text t.parent, integral_integer64 t.createdAt, integral_integer64 t.updatedAt, whole t.completedAt,
    whole t.estimatedMinutes, whole t.actualMinutes, integral_priority t.priority,
    integral_metadata printed integral, trivial⟩

theorem Printed.integral (printed : t.Printed j) (integral : t.Integral) : j.Integral := by
  obtain ⟨data, metadata, rfl⟩ := printed
  exact integral_fieldsWith metadata integral

end Integral

end Task
end TaskForest
