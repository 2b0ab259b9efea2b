import TaskForest.Proofs.Pointers.Grounded
import TaskForest.Proofs.Pointers.Listed
import TaskForest.Proofs.Store.Linked
import TaskForest.Proofs.Text.Ascending
import TaskForest.Store.Records

/-!
Records as parent pointers: what is found, selected and attached to ids, and what an addition, a replacement
and the removal of ids do. The number of records that a removal takes away is counted by what remains.
-/

namespace TaskForest
namespace Records

variable {r : Records} {t u : Task} {id x : String} {ids rest : List String}

/-- The parent pointers of the records. -/
def parents (r : Records) : Pointers := .listed Task.id Task.parent r.tasks

def without (r : Records) (ids : List String) : Records := r.restrict fun t => t.id ∉ ids

theorem find?_eq_some_iff : r.find? id = some t ↔ t ∈ r.tasks ∧ t.id = id :=
  Pointers.find?_id_eq_some r.distinct

theorem find?_eq_none_iff : r.find? id = none ↔ id ∉ r.ids :=
  Pointers.find?_id_eq_none

theorem parents_stored : r.parents.Stored x ↔ ∃ t ∈ r.tasks, t.id = x :=
  Pointers.listed_stored.trans List.mem_map

theorem parents_step {p : String} : r.parents.Step x p ↔ ∃ t ∈ r.tasks, t.id = x ∧ t.parent = some p :=
  Pointers.listed_step r.distinct

theorem parents_shows (r : Records) (id : String) : r.parents.Shows id (r.find? id) :=
  ⟨rfl, fun _ found => (find?_eq_some_iff.1 found).2⟩

theorem tasks_add (free : r.find? t.id = none) : (r.add t).tasks = t :: r.tasks := by
  have missing : t.id ∉ r.tasks.map Task.id := find?_eq_none_iff.1 free
  rw [add, dif_neg missing]

theorem parents_add (free : r.find? t.id = none) : (r.add t).parents = r.parents.put t.id t.parent := by
  rw [parents, tasks_add free]
  exact Pointers.listed_cons

theorem parents_replace (taken : r.find? t.id ≠ none) :
    (r.replace t).parents = r.parents.put t.id t.parent :=
  Pointers.listed_replace (not_not.1 (mt find?_eq_none_iff.2 taken))

theorem mem_without : t ∈ (r.without ids).tasks ↔ t ∈ r.tasks ∧ t.id ∉ ids := by
  simp only [without, restrict, List.mem_filter, decide_eq_true_eq]

theorem parents_without : (r.without ids).parents = r.parents.without ids :=
  Pointers.listed_filter

theorem parents_showsChildren (r : Records) (id : String) (order : SortOrder) :
    r.parents.ShowsChildren id (r.select (.childrenOf id) order) := by
  refine Pointers.listed_select (q := some id) r.distinct
    (((List.mergeSort_perm _ _).trans ?_).map Task.id)
  refine .of_eq (List.filter_congr fun t _ => ?_)
  simp only [Selection.selects, Selection.childrenOf, Selection.meets, ParentRule.parent,
    Bool.and_true]
  exact decide_eq_decide.2 .rfl

theorem mem_attachedTo :
    x ∈ r.attachedTo ids ↔ ∃ t ∈ r.tasks, t.id = x ∧ ∃ p ∈ ids, t.parent = some p := by
  rw [attachedTo, Ascending.mem_ofList]
  simp only [List.mem_map, List.mem_filter, Option.any_eq_true, decide_eq_true_eq, and_assoc]
  refine exists_congr fun t => and_congr_right fun _ => ?_
  rw [and_comm]
  exact and_congr_right fun _ => exists_congr fun p => and_comm

/-- A stored task that is not one of the ids and has its parent among them. -/
def Attached (r : Records) (ids : List String) (t : Task) : Prop :=
  t ∈ r.tasks ∧ t.id ∉ ids ∧ ∃ p ∈ ids, t.parent = some p

theorem mem_orphans :
    x ∈ (r.without ids).attachedTo ids ↔ ∃ t, r.Attached ids t ∧ t.id = x := by
  simp only [mem_attachedTo, mem_without, Attached]
  refine exists_congr fun t => ?_
  tauto

theorem orphans_eq_nil : (r.without ids).attachedTo ids = [] ↔ ¬ ∃ t, r.Attached ids t := by
  simp only [List.eq_nil_iff_forall_not_mem, mem_orphans]
  constructor
  · intro none_left got
    obtain ⟨t, attached⟩ := got
    exact none_left t.id ⟨t, attached, rfl⟩
  · intro none_left x got
    obtain ⟨t, attached, _⟩ := got
    exact none_left ⟨t, attached⟩

theorem orphans_ascending : Ascending ((r.without ids).attachedTo ids) :=
  Ascending.ofList_ascending _

theorem parents_orphans : r.parents.Orphans ids ((r.without ids).attachedTo ids) where
  ascending := orphans_ascending
  mem_iff x := by
    rw [mem_orphans]
    constructor
    · intro got
      obtain ⟨t, ⟨stored, stays, p, hp, parent⟩, same⟩ := got
      exact ⟨same ▸ stays, p, hp, parents_step.2 ⟨t, stored, same, parent⟩⟩
    · intro got
      obtain ⟨stays, p, hp, step⟩ := got
      obtain ⟨t, stored, same, parent⟩ := parents_step.1 step
      exact ⟨t, ⟨stored, same ▸ stays, p, hp, parent⟩, same⟩

theorem without_nil (r : Records) : r.without [] = r := by
  obtain ⟨tasks, distinct⟩ := r
  simp [without, restrict]

theorem erase_without (r : Records) (id : String) (rest : List String) :
    (r.erase id).without rest = r.without (id :: rest) := by
  simp only [erase, without, restrict, List.filter_filter, mk.injEq]
  refine List.filter_congr fun t _ => ?_
  simp only [List.mem_cons, not_or, Bool.decide_and, ne_eq, Bool.and_comm]

theorem length_erase (r : Records) (id : String) :
    (if (r.find? id).isSome then 1 else 0) + (r.erase id).ids.length = r.ids.length := by
  have counted := Pointers.length_filter_ne r.distinct id
  have found : (r.find? id).isSome ↔ id ∈ r.tasks.map Task.id := by
    rw [Option.isSome_iff_ne_none]
    exact not_iff_comm.1 find?_eq_none_iff.symm
  simp only [← found] at counted
  rw [Records.ids, Records.ids, List.length_map, List.length_map]
  exact counted

/-- A removal that is counted by what remains takes away the stored ones of the ids. -/
theorem encard_removed {removed : Nat}
    (count : removed + (r.without ids).ids.length = r.ids.length) :
    {x | x ∈ ids ∧ r.parents.Stored x}.encard = removed := by
  rw [Records.ids, Records.ids, List.length_map, List.length_map] at count
  have stored : ∀ x, r.parents.Stored x ↔ x ∈ r.ids := fun x => Pointers.listed_stored
  simp only [stored]
  exact Pointers.encard_removed r.distinct count

end Records
end TaskForest
