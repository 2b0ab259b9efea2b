import TaskForest.Store.Query
import TaskForest.Text.Ascending

/-!
A finite set of tasks with distinct ids, and the store operations on it as plain functions.
-/

namespace TaskForest

structure Records where
  tasks : List Task
  distinct : (tasks.map Task.id).Nodup

namespace Records

def empty : Records := ⟨[], List.nodup_nil⟩

instance : Inhabited Records := ⟨empty⟩

def find? (r : Records) (id : String) : Option Task :=
  r.tasks.find? fun t => t.id = id

def ids (r : Records) : List String := r.tasks.map Task.id

/-- The record of the task's id, put in the place of the old one. -/
def replaceIn (t : Task) (tasks : List Task) : List Task :=
  tasks.map fun old => if old.id = t.id then t else old

theorem map_id_replaceIn (t : Task) (tasks : List Task) :
    (replaceIn t tasks).map Task.id = tasks.map Task.id := by
  simp only [replaceIn, List.map_map]
  refine List.map_congr_left fun old _ => ?_
  simp only [Function.comp_apply]
  split
  · next h => exact h.symm
  · rfl

/-- The other records stay; so does everything if there is no record of this id. -/
def replace (r : Records) (t : Task) : Records :=
  ⟨replaceIn t r.tasks, by rw [map_id_replaceIn]; exact r.distinct⟩

def add (r : Records) (t : Task) : Records :=
  if h : t.id ∈ r.tasks.map Task.id then r
  else ⟨t :: r.tasks, by simpa using ⟨by simpa using h, r.distinct⟩⟩

def put (r : Records) (t : Task) : Records :=
  if t.id ∈ r.ids then r.replace t else r.add t

def ofList (tasks : List Task) : Records :=
  tasks.foldl put empty

def restrict (r : Records) (keep : Task → Bool) : Records :=
  ⟨r.tasks.filter keep, r.distinct.sublist (List.filter_sublist.map Task.id)⟩

def erase (r : Records) (id : String) : Records :=
  r.restrict fun t => t.id ≠ id

def select (r : Records) (s : Selection) (order : SortOrder) : List Task :=
  (r.tasks.filter s.selects).mergeSort order.precedes

/-- The ids of the records whose parent is one of `ids`. -/
def attachedTo (r : Records) (ids : List String) : List String :=
  Ascending.ofList
    ((r.tasks.filter fun t => t.parent.any fun p => p ∈ ids).map Task.id)

def sorted (r : Records) : List Task :=
  r.tasks.mergeSort fun a b => (compare a.id b.id).isLE

end Records
end TaskForest
