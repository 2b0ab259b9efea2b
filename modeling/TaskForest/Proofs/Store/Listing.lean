import Mathlib
import TaskForest.Proofs.Store.Interleaved
import TaskForest.Proofs.Store.Mirror
import TaskForest.Proofs.Store.Sorted

/-!
What a query lists. Each order is strict and leaves no two tasks of different ids uncompared, so the tasks of a
set that fit a selection stand in that order in one list only. The calls that led to the set make no difference
to it, nor does the order in which its tasks are gone through.
-/

namespace TaskForest

namespace SortOrder

variable {order : SortOrder} {a b : Task}

def Before (order : SortOrder) (a b : Task) : Prop := order.compare a b = .lt

instance : Std.Irrefl order.Before where
  irrefl a before := by
    have same : order.compare a a = .eq := Std.ReflCmp.compare_self
    cases same.symm.trans before

instance : IsTrans Task order.Before where
  trans _ _ _ first second := Std.TransCmp.lt_trans first second

theorem id_eq_of_compare (h : order.compare a b = .eq) : a.id = b.id :=
  Std.LawfulEqCmp.eq_of_compare (Ordering.then_eq_eq.1 h).2

theorem before_or_before (ne : a.id ≠ b.id) : order.Before a b ∨ order.Before b a := by
  cases h : order.compare a b with
  | lt => exact .inl h
  | eq => exact absurd (id_eq_of_compare h) ne
  | gt => exact .inr (Std.OrientedCmp.gt_iff_lt.1 h)

theorem before_of_precedes (ne : a.id ≠ b.id) (h : order.precedes a b = true) : order.Before a b := by
  rcases Ordering.isLE_iff_eq_lt_or_eq_eq.1 h with before | same
  · exact before
  · exact absurd (id_eq_of_compare same) ne

end SortOrder

namespace Selection

/-- The task satisfies every part that is given. -/
structure Fits (s : Selection) (t : Task) : Prop where
  parent : ∀ rule, s.parent = some rule → t.parent = rule.parent
  status : ∀ status, s.status = some status → t.status = status
  project : ∀ project, s.project = some project → t.projectId = some project

theorem meets_iff {α : Type} {part : Option α} {condition : α → Bool} :
    meets part condition = true ↔ ∀ a, part = some a → condition a = true := by
  cases part with
  | none => simp [meets]
  | some a => simp [meets]

theorem selects_iff {s : Selection} {t : Task} : s.selects t = true ↔ s.Fits t := by
  simp only [selects, Bool.and_eq_true, meets_iff, decide_eq_true_eq]
  exact ⟨fun got => ⟨got.1.1, got.1.2, got.2⟩, fun fits => ⟨⟨fits.parent, fits.status⟩, fits.project⟩⟩

/-- The tasks of a set that fit, each once and in order. -/
structure Lists (s : Selection) (order : SortOrder) (held : Task → Prop) (found : List Task) : Prop where
  mem_iff : ∀ t, t ∈ found ↔ held t ∧ s.Fits t
  once : found.Nodup
  ascending : found.Pairwise order.Before

namespace Lists

variable {s : Selection} {order : SortOrder} {held held' : Task → Prop} {found found' : List Task}

theorem eq (h : s.Lists order held found) (h' : s.Lists order held' found')
    (same : ∀ t, held t ↔ held' t) : found = found' := by
  refine h.ascending.eq_of_mem_iff h'.ascending fun t => ?_
  rw [h.mem_iff, h'.mem_iff, same]

/-- A sort of what passes the filter, in whatever order it is gone through. -/
theorem of_perm {r : Records} {tasks : List Task} (perm : tasks.Perm r.tasks) :
    s.Lists order (· ∈ r.tasks) ((tasks.filter s.selects).mergeSort order.precedes) := by
  have distinct : (((tasks.filter s.selects).mergeSort order.precedes).map Task.id).Nodup :=
    (((List.mergeSort_perm _ _).map _).nodup_iff.2
      ((List.filter_sublist.map _).nodup ((perm.map _).nodup_iff.2 r.distinct)))
  refine ⟨fun t => ?_, .of_map _ distinct, ?_⟩
  · rw [List.mem_mergeSort, List.mem_filter, perm.mem_iff, selects_iff]
  · exact pairwise_of_distinct distinct (pairwise_mergeSort_cmp order.compare _)
      fun _ _ => SortOrder.before_of_precedes

end Lists
end Selection

namespace InMemory

theorem query_lists {selection : Selection} {s : InMemory} (spared : s.faults.failsQuery selection = none)
    (order : SortOrder) :
    ∃ found, query selection order s = .ok found s.countQuery ∧
      selection.Lists order (· ∈ s.records.tasks) found := by
  have asked := query_yields selection order s
  cases k : query selection order s with
  | ok found s' =>
      obtain ⟨rfl, rfl, _⟩ := asked.of_ok k
      exact ⟨_, rfl, .of_perm .rfl⟩
  | error e s' =>
      obtain ⟨_, id, fails, _⟩ := asked.of_error k
      cases spared.symm.trans fails

/-- A query that is not planned to fail lists the tasks that fit, each once and in a strict order in which any two
ids have a place. So the set of tasks determines the list: in whatever order the tasks are gone through, whichever
calls led to the set, and for a table with the rows of these tasks. -/
theorem query_determined (selection : Selection) (order : SortOrder) :
    (∀ a, ¬ order.Before a a) ∧
    (∀ a b c, order.Before a b → order.Before b c → order.Before a c) ∧
    (∀ a b : Task, a.id ≠ b.id → order.Before a b ∨ order.Before b a) ∧
    ∀ s : InMemory, s.faults.failsQuery selection = none →
      ∃ found, query selection order s = .ok found s.countQuery ∧
        selection.Lists order (· ∈ s.records.tasks) found ∧
        (∀ tasks : List Task, tasks.Perm s.records.tasks →
          (tasks.filter selection.selects).mergeSort order.precedes = found) ∧
        (∀ (start : InMemory) (calls : List Call), start.faults.failsQuery selection = none →
          (∀ t, t ∈ (Call.allAfter start calls).records.tasks ↔ t ∈ s.records.tasks) →
          ∃ left, query selection order (Call.allAfter start calls) = .ok found left) ∧
        ∀ table, Mirrors s table → ∃ left, Table.query selection order table = .ok found left := by
  refine ⟨fun a => irrefl a, fun a b c => Trans.trans, fun _ _ => SortOrder.before_or_before, ?_⟩
  intro s spared
  obtain ⟨found, asked, lists⟩ := query_lists spared order
  refine ⟨found, asked, lists, fun tasks perm => ?_, fun start calls unplanned same => ?_,
    fun table mirrors => ?_⟩
  · exact (Selection.Lists.of_perm perm).eq lists fun _ => .rfl
  · have planned : (Call.allAfter start calls).faults = start.faults :=
      (faults_governs start.faults).allAfter calls rfl
    rw [← planned] at unplanned
    obtain ⟨found', asked', lists'⟩ := query_lists unplanned order
    exact ⟨_, lists'.eq lists same ▸ asked'⟩
  · have both := Mirrors.query selection order s table mirrors
    rw [asked] at both
    obtain ⟨left, answered, _⟩ := both.of_ok
    exact ⟨left, answered⟩

/-- Two trees that were made at one time: made one after the other, or in the other order beside one that is taken
away again and with a status that is changed later. -/
theorem query_determined_of_two :
    let oak : Task := .new "oak" "Oak" 5
    let elm : Task := { Task.new "elm" "Elm" 5 with status := .completed }
    let store : InMemory := .ofList [oak, elm]
    let calls : List Call := [.create { elm with status := .todo }, .create (.new "ash" "Ash" 3), .create oak,
      .update elm, .deleteMany ["ash"] true]
    store.faults.failsQuery .all = none ∧ store.records.tasks = [elm, oak] ∧
    (Call.allAfter (InMemory.ofList []) calls).records.tasks = [oak, elm] ∧
    query .all .newestFirst store = .ok [elm, oak] store.countQuery ∧
    ∃ left, query .all .newestFirst (Call.allAfter (InMemory.ofList []) calls) = .ok [elm, oak] left := by
  intro oak elm store calls
  have spared : store.faults.failsQuery .all = none := rfl
  have held : store.records.tasks = [elm, oak] := rfl
  have made : (Call.allAfter (InMemory.ofList []) calls).records.tasks = [oak, elm] := rfl
  have same : ∀ t, t ∈ (Call.allAfter (InMemory.ofList []) calls).records.tasks ↔ t ∈ store.records.tasks := by
    intro t
    rw [held, made, List.mem_pair, List.mem_pair, or_comm]
  have listed : query .all .newestFirst store = .ok [elm, oak] store.countQuery := by cbv
  obtain ⟨found, asked, _, _, history, _⟩ := (query_determined .all .newestFirst).2.2.2 store spared
  cases asked.symm.trans listed
  exact ⟨spared, held, made, listed, history (.ofList []) calls rfl same⟩

end InMemory
end TaskForest
