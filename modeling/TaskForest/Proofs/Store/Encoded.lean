import TaskForest.Proofs.Json.ReadBack
import TaskForest.Proofs.Store.Readable

/-!
Rows of tasks are read back. The tags and the metadata come back from their texts, which for metadata asks for
integers of 64 bits in place of floats and for objects that are nested no deeper than the reader goes; the order in
which its keys are printed makes no difference. The other columns hold what they are given.
-/

namespace TaskForest

open Json (Draft)

/-- Metadata that its text gives back. -/
structure Metadata.Storable (m : Metadata) : Prop where
  integral : m.toJson.Integral
  shallow : m.toJson.depth ≤ Draft.maxNesting

instance (m : Metadata) : Decidable m.Storable :=
  decidable_of_iff (m.toJson.Integral ∧ m.toJson.depth ≤ Draft.maxNesting) ⟨fun h => ⟨h.1, h.2⟩, fun h => ⟨h.1, h.2⟩⟩

/-- A task that its row gives back. -/
def Task.Storable (t : Task) : Prop := ∀ m, t.metadata = some m → m.Storable

instance (t : Task) : Decidable t.Storable :=
  inferInstanceAs (Decidable (∀ m, t.metadata = some m → m.Storable))

theorem Task.storable_of_none {t : Task} (h : t.metadata = none) : t.Storable := by
  intro m held
  cases h.symm.trans held

namespace TagSet

theorem mapM_asString (names : List String) : (names.map Draft.string).mapM Draft.asString = .ok names := by
  induction names with
  | nil => rfl
  | cons name rest ih =>
      rw [List.map_cons, List.mapM_cons, ih]
      rfl

theorem drafts_strings (names : List String) : Json.drafts (names.map .string) = names.map Draft.string := by
  induction names with
  | nil => rfl
  | cons name rest ih => rw [List.map_cons, Json.drafts, ih, List.map_cons, Json.draft]

theorem integral_strings (names : List String) : Json.IntegralItems (names.map .string) := by
  induction names with
  | nil => trivial
  | cons name rest ih => exact ⟨trivial, ih⟩

theorem asStrings_strings (names : List String) (room : Nat) :
    (Json.array (names.map .string)).draft.asStrings (room + 1) = .ok names := by
  rw [Json.draft, drafts_strings, Draft.asStrings]
  change (do
    let values ← (names.map Draft.string).mapM Draft.asString
    .ofText Json.Stop.closed.check
    pure values) = _
  rw [mapM_asString]
  rfl

theorem ofList_names (tags : TagSet) : ofList tags.names = tags := by
  obtain ⟨names, ascending⟩ := tags
  simp only [ofList, Ascending.ofList_of_ascending ascending]

theorem decode_encode (tags : TagSet) : decode tags.encode = tags := by
  have integral : (Json.array (tags.names.map .string)).Integral := integral_strings tags.names
  have names : Json.decode (Draft.asStrings Draft.maxNesting) tags.encode = .ok tags.names := by
    rw [encode, Json.compact, Json.compactText_eq _ 0, Json.decode_text _ _ integral]
    exact asStrings_strings tags.names _
  rw [decode, names]
  exact ofList_names tags

end TagSet

namespace Metadata

variable {m : Metadata}

/-- The fields may come in any order. -/
theorem ofDraft_of_perm {order : List (String × Json)} {room : Nat} (perm : order.Perm m.fields)
    (shallow : (Json.object order).depth ≤ room) : ofDraft room (Json.object order).draft = .ok m := by
  obtain ⟨fields, ordered⟩ := m
  rw [Json.depth] at shallow
  obtain ⟨room, rfl⟩ : ∃ n, room = n + 1 := ⟨room - 1, by omega⟩
  have keys := ordered
  rw [Json.ordered, Bool.and_eq_true, decide_eq_true_eq, Json.orderedFields_iff] at keys
  have inner : Json.orderedFields order = true :=
    Json.orderedFields_iff.2 fun f hf => keys.2 f (perm.mem_iff.1 hf)
  have values : Draft.valueFields room [] (Json.fieldDrafts order) = .ok fields := by
    rw [Json.valueFields_fieldDrafts order room [] (by omega), Json.sortedFields_of_ordered order inner,
      Json.insertFields_of_perm perm keys.1]
  rw [Json.draft, ofDraft]
  split
  · next failed => cases values.symm.trans failed
  · next found same =>
      cases values.symm.trans same
      rfl

/-- Metadata comes back from its text, whatever the order of its keys. -/
theorem decode?_encode (storable : m.Storable) (order : KeyOrder) : decode? (m.encode order) = some m := by
  obtain ⟨integral, shallow⟩ := storable
  have perm := order.perm m.fields
  have arranged_integral : (Json.object (order.arrange m.fields)).Integral :=
    Json.integralFields_iff.2 fun f hf => Json.integralFields_iff.1 integral f (perm.mem_iff.1 hf)
  have arranged_shallow : (Json.object (order.arrange m.fields)).depth ≤ Draft.maxNesting := by
    refine Nat.le_trans (Nat.add_le_add_left ?_ 1) shallow
    exact Json.fieldDepths_le_iff.2 fun f hf => Json.fieldDepths_le_iff.1 (Nat.le_refl _) f (perm.mem_iff.1 hf)
  rw [decode?, encode, Json.compact, Json.compactText_eq _ 0, Json.decode_text _ _ arranged_integral,
    ofDraft_of_perm perm arranged_shallow]
  rfl

end Metadata

theorem Status.name_inj {a b : Status} : a.name = b.name ↔ a = b := by
  refine ⟨fun same => ?_, congrArg name⟩
  have back := congrArg ofName? same
  rw [ofName?_name, ofName?_name] at back
  exact Option.some.inj back

namespace Row

variable (order : KeyOrder)

theorem isSelected_ofTask (selection : Selection) (t : Task) :
    (ofTask order t).isSelected selection = selection.selects t := by
  have status : ∀ status : Status, decide (TextCell.text t.status.name = .text status.name) =
      decide (t.status = status) := fun _ =>
    decide_eq_decide.2 ((TextCell.text.injEq _ _).to_iff.trans Status.name_inj)
  have project : ∀ project : String, decide (t.projectId.map TextCell.text = some (.text project)) =
      decide (t.projectId = some project) := fun _ =>
    decide_eq_decide.2 (by cases t.projectId <;> simp)
  rw [isSelected_eq, Selection.selects, ofTask]
  simp only [status, project]

theorem readsAs_ofTask {t : Task} (storable : t.Storable) : (ofTask order t).ReadsAs t where
  id := rfl
  parent := rfl
  title := rfl
  description := rfl
  status := ⟨_, rfl, Status.ofName?_name t.status⟩
  tags := ⟨_, rfl, TagSet.decode_encode t.tags⟩
  projectId := rfl
  createdAt := rfl
  updatedAt := rfl
  completedAt := rfl
  estimatedMinutes := rfl
  actualMinutes := rfl
  priority := rfl
  metadata := by
    refine ⟨t.metadata.map (Metadata.encode order), (Option.map_map _ _ _).symm, ?_⟩
    cases k : t.metadata with
    | none => rfl
    | some m => exact Metadata.decode?_encode (storable m k) order

end Row

/-- A row that is written for a task: the keys of its metadata come in some order. -/
def Row.WrittenFor (r : Row) (t : Task) : Prop := ∃ order, r = ofTask order t

theorem Table.read_ofTask {task : Task} (storable : task.Storable) (order : KeyOrder) :
    read (.ofTask order task) = .ok task :=
  read_eq_ok.2 (Row.readsAs_ofTask order storable)

end TaskForest
