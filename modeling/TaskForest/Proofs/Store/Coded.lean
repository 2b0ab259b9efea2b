import TaskForest.Proofs.Store.Encoded
import TaskForest.Proofs.Store.Items

/-!
Stores that write tasks as items and read them from items: the tasks in memory are their own items, and a row is
written and read column by column, and not twice in the same way. An update puts the item of a task in the place of
the one with its id. So long as nothing is planned to fail, it fails only if there is none, and a query for the
tasks without a parent fails only at an item that cannot be read.
-/

namespace TaskForest

open LinkedStore (pointers)
open OrderedStore (holds)
open ItemStore (items idOf encode Readable)

/-- The stored ids without a parent, each once. -/
def Pointers.ShowsRoots (f : Pointers) (found : List Task) : Prop :=
  (found.map Task.id).Nodup ∧ ∀ x, x ∈ found.map Task.id ↔ f.entry x = some none

class CodedStore (σ : Type) [TaskStore σ] extends ItemStore σ where
  decode? : Item → Option Task
  readable_iff (a : Item) : Readable a ↔ ∃ t, decode? a = some t
  readable_encode (s : σ) (t : Task) : Readable (encode s t)
  idOf_encode (s : σ) (t : Task) : idOf (encode s t) = t.id
  idOf_of_decode? {a : Item} {t : Task} (h : decode? a = some t) : idOf a = t.id
  holds_iff (s : σ) (t : Task) : holds s t ↔ ∃ a ∈ items s, decode? a = some t
  roots_tells {s : σ} (h : Faultless s) :
    Yields roots s
      (fun found s' => items s' = items s ∧ Faultless s' ∧ (pointers s).ShowsRoots found)
      (fun _ _ => ∃ a ∈ items s, ¬ Readable a)
  update_replaces (t : Task) {s : σ} (h : Faultless s) :
    Yields (TaskStore.update t) s
      (fun _ s' => items s' = (items s).map (fun a => if idOf a = t.id then encode s t else a) ∧
        Faultless s')
      (fun _ _ => ¬ (pointers s).Stored t.id)

namespace CodedStore

variable {σ : Type} [TaskStore σ] [CodedStore σ] {s s' : σ} {t u : Task}

variable (σ) in
/-- A task that the store reads as it was written, whenever that is. -/
def Lossless (t : Task) : Prop := ∀ s : σ, decode? (encode s t) = some t

/-- The item of a task has taken the place of the one with its id. -/
def Replaces (s' s : σ) (t : Task) : Prop :=
  items s' = (items s).map fun a => if idOf a = t.id then encode s t else a

theorem Replaces.length_eq (h : Replaces s' s t) : (items s').length = (items s).length := by
  have replaced : items s' = _ := h
  rw [replaced, List.length_map]

theorem Replaces.mem_iff (h : Replaces s' s t) {a : ItemStore.Item σ} (other : idOf a ≠ t.id) :
    a ∈ items s' ↔ a ∈ items s := by
  have replaced : items s' = _ := h
  rw [replaced, List.mem_map]
  constructor
  · intro got
    obtain ⟨b, hb, same⟩ := got
    split at same
    · next taken => exact absurd (same ▸ idOf_encode s t) other
    · exact same ▸ hb
  · exact fun ha => ⟨a, ha, if_neg other⟩

theorem Replaces.holds_iff (h : Replaces s' s t) (other : u.id ≠ t.id) : holds s' u ↔ holds s u := by
  rw [CodedStore.holds_iff, CodedStore.holds_iff]
  refine exists_congr fun a => and_congr_left fun read => h.mem_iff ?_
  rwa [idOf_of_decode? read]

theorem exists_held (readable : ∀ a ∈ items s, Readable a) {id : String} (stored : (pointers s).Stored id) :
    ∃ t, holds s t ∧ t.id = id := by
  obtain ⟨a, ha, same⟩ := List.mem_map.1 ((ItemStore.stored_iff s id).1 stored)
  obtain ⟨t, read⟩ := (readable_iff a).1 (readable a ha)
  exact ⟨t, (CodedStore.holds_iff s t).2 ⟨a, ha, read⟩, (idOf_of_decode? read).symm.trans same⟩

/-- Where every item can be read, no look-up fails. -/
theorem exists_get (readable : ∀ a ∈ items s, Readable a) (id : String) :
    ∃ found, TaskStore.get id s = .ok found s ∧ ∀ t, found = some t ↔ holds s t ∧ t.id = id := by
  have told := ItemStore.get_tells id s
  cases read : TaskStore.get id s with
  | ok found s' =>
      obtain ⟨rfl, shown⟩ := told.of_ok read
      exact ⟨found, rfl, shown⟩
  | error e s' =>
      obtain ⟨_, stored, apart⟩ := told.of_error read
      obtain ⟨t, held, same⟩ := exists_held readable stored
      exact absurd same (apart t held)

end CodedStore

namespace InMemory

theorem select_roots_shows (r : Records) (order : SortOrder) :
    r.parents.ShowsRoots (r.select .roots order) := by
  refine Pointers.listed_select r.distinct (((List.mergeSort_perm _ _).trans ?_).map Task.id)
  refine .of_eq (List.filter_congr fun t _ => ?_)
  simp only [Selection.selects, Selection.roots, Selection.meets, ParentRule.parent, Bool.and_true]
  exact decide_eq_decide.2 .rfl

instance : CodedStore InMemory where
  decode? := some
  readable_iff t := ⟨fun _ => ⟨t, rfl⟩, fun _ => trivial⟩
  readable_encode _ _ := trivial
  idOf_encode _ _ := rfl
  idOf_of_decode? h := congrArg Task.id (Option.some.inj h)
  holds_iff s t := by simp [OrderedStore.holds, ItemStore.items]
  roots_tells {s} h := by
    refine (query_yields .roots .oldestFirst s).mono ?_ ?_
    · intro _ _ got
      obtain ⟨rfl, rfl, _⟩ := got
      exact ⟨rfl, h, select_roots_shows s.records .oldestFirst⟩
    · intro e _ got
      obtain ⟨_, id, fails, _⟩ := got
      rw [h] at fails
      cases fails
  update_replaces t s h := by
    change Yields (InMemory.update t) s _ _
    rw [InMemory.update]
    refine .bind (.check (fun missing => ?_) (fun _ => ⟨rfl, h⟩))
    exact (Option.isNone_iff_eq_none.1 missing ▸ s.records.parents_shows t.id).missing

theorem lossless (t : Task) : CodedStore.Lossless InMemory t := fun _ => rfl

end InMemory

namespace Table

theorem roots_shows {t : Table} {order : SortOrder} {found : List Task}
    (h : List.Forall₂ (fun row task => read row = .ok task) (t.select .roots order) found) :
    t.parents.ShowsRoots found := by
  refine Pointers.listed_select t.distinct ?_
  rw [map_id_read h]
  refine ((List.mergeSort_perm _ _).trans (.of_eq (List.filter_congr fun row _ => ?_))).map Row.id
  exact row.isSelected_roots

theorem update_replaces (task : Task) (t : Table) :
    Yields (update task) t
      (fun _ t' => t'.rows = t.rows.map (fun row => if row.id = task.id then .ofTask (t.orders 0) task else row) ∧
        t'.refusals = t.refusals)
      (fun _ _ => ¬ t.parents.Stored task.id) := by
  rw [Yields, update_eq]
  split_ifs with missing
  · rw [parents, Pointers.listed_stored]
    exact Pointers.find?_id_eq_none.1 missing
  · exact ⟨rows_replace t.advance (.ofTask (t.orders 0) task), refusals_replace t.advance task.id _⟩

theorem toOption_read {row : Row} {task : Task} :
    (read row).toOption = some task ↔ read row = .ok task := by
  cases read row <;> simp [Except.toOption]

instance : CodedStore Table where
  decode? row := (read row).toOption
  readable_iff row := exists_congr fun _ => toOption_read.symm
  readable_encode t := exists_read_ofTask (t.orders 0)
  idOf_encode _ _ := rfl
  idOf_of_decode? h := (read_same (toOption_read.1 h)).1.symm
  holds_iff t task :=
    exists_congr fun row => and_congr_right fun _ => toOption_read.symm
  roots_tells {t} unrefused := by
    refine (query_answers .roots .oldestFirst t).mono ?_ ?_
    · intro found _ got
      obtain ⟨rfl, answered⟩ := got
      exact ⟨rfl, unrefused, roots_shows answered⟩
    · intro e _ got
      obtain ⟨rfl, row, selected, damaged⟩ := got
      exact ⟨row, (mem_select.1 selected).1, not_exists_read damaged⟩
  update_replaces task t unrefused :=
    (update_replaces task t).mono (fun _ _ h => ⟨h.1, h.2.trans unrefused⟩) (fun _ _ h => h)

theorem lossless {task : Task} (storable : task.Storable) : CodedStore.Lossless Table task := fun t =>
  toOption_read.2 (read_ofTask storable (t.orders 0))

end Table
end TaskForest
