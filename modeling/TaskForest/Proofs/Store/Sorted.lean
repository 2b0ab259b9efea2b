import Mathlib.Algebra.Order.Field.Basic
import Mathlib.Algebra.Order.Field.Rat
import TaskForest.Proofs.Store.InMemory
import TaskForest.Proofs.Store.Table

/-!
The order in which stores answer. Tasks and rows are compared by a key and then by their ids, and cells of
any content have an order, so a sorted answer is in ascending order throughout. The children of an id come
from the oldest to the youngest, and a query for them does not change what the next one is answered.
-/

namespace TaskForest

/-- Made earlier, or at the same time and under a smaller id. -/
def Task.Older (a b : Task) : Prop :=
  a.createdAt < b.createdAt ∨ a.createdAt = b.createdAt ∧ a.id < b.id

theorem compare_text_eq_lt {a b : String} : compare a b = .lt ↔ a < b :=
  compareOfLessAndEq_eq_lt

theorem Task.Older.of_keys {a b : Task} (ne : a.id ≠ b.id)
    (h : ((compare a.createdAt b.createdAt).then (compare a.id b.id)).isLE = true) : a.Older b := by
  rcases Ordering.isLE_then_iff_or.1 h with earlier | ⟨same, up⟩
  · exact .inl (Std.compare_eq_lt.1 earlier)
  · refine .inr ⟨Std.LawfulEqCmp.eq_of_compare same, compare_text_eq_lt.1 ?_⟩
    rcases Ordering.isLE_iff_eq_lt_or_eq_eq.1 up with lt | eq
    · exact lt
    · exact absurd (Std.LawfulEqCmp.eq_of_compare eq) ne

theorem pairwise_mergeSort_cmp {α : Type} (cmp : α → α → Ordering) [Std.TransCmp cmp] (l : List α) :
    (l.mergeSort fun a b => (cmp a b).isLE).Pairwise fun a b => (cmp a b).isLE = true := by
  refine List.pairwise_mergeSort (fun _ _ _ => Std.TransCmp.isLE_trans) (fun a b => ?_) l
  have swapped : cmp b a = (cmp a b).swap := Std.OrientedCmp.eq_swap
  rw [swapped]
  cases cmp a b <;> rfl

/-- What is said of the ids of two members is said of two different members. -/
theorem pairwise_of_distinct {α : Type} {l : List α} {id : α → String} {R S : α → α → Prop}
    (distinct : (l.map id).Nodup) (h : l.Pairwise R) (weaken : ∀ a b, id a ≠ id b → R a b → S a b) :
    l.Pairwise S :=
  ((List.pairwise_map.1 distinct).and h).imp fun got => weaken _ _ got.1 got.2

namespace SortOrder

instance (order : SortOrder) : Std.TransCmp order.compareKey := by
  cases order with
  | oldestFirst => exact inferInstanceAs (Std.TransCmp (compareOn Task.createdAt))
  | newestFirst => exact inferInstanceAs (Std.TransCmp fun a b => compareOn Task.createdAt b a)
  | lastUpdatedFirst => exact inferInstanceAs (Std.TransCmp fun a b => compareOn Task.updatedAt b a)
  | mostImportantFirst => exact inferInstanceAs (Std.TransCmp fun a b => compareOn Task.priority b a)

instance (order : SortOrder) : Std.TransCmp order.compare :=
  inferInstanceAs (Std.TransCmp (compareLex order.compareKey (compareOn Task.id)))

end SortOrder

namespace Records

theorem pairwise_select (r : Records) (s : Selection) (order : SortOrder) :
    (r.select s order).Pairwise fun a b => order.precedes a b = true :=
  pairwise_mergeSort_cmp order.compare _

theorem select_older (r : Records) (id : String) :
    (r.select (.childrenOf id) .oldestFirst).Pairwise Task.Older :=
  pairwise_of_distinct (r.parents_showsChildren id .oldestFirst).1
    (r.pairwise_select (.childrenOf id) .oldestFirst) fun _ _ ne h => .of_keys ne h

theorem mem_select_childrenOf {r : Records} {id : String} {order : SortOrder} {t : Task} :
    t ∈ r.select (.childrenOf id) order ↔ t ∈ r.tasks ∧ t.parent = some id := by
  simp only [select, List.mem_mergeSort, List.mem_filter, Selection.selects, Selection.childrenOf,
    Selection.meets, ParentRule.parent, Bool.and_true]
  exact and_congr_right fun _ => decide_eq_true_iff

end Records

namespace Quantity

/-- The number of a cell; 0 for all that is none. -/
def number (q : Quantity) : ℚ :=
  q.fraction?.elim 0 fun part => part.1 / part.2

/-- The bytes of a cell; none for a number. -/
def letters : Quantity → List UInt8
  | text bytes | blob bytes => bytes
  | integer _ | real _ => []

theorem ratio_pos (x : Binary64) : 0 < x.ratio.2 := by
  unfold Binary64.ratio Binary64.scale
  split
  · exact Nat.one_pos
  · simp

/-- Products taken crosswise are in the order of the fractions. -/
theorem compare_cross {m n : Int} {d e : Nat} (hd : 0 < d) (he : 0 < e) :
    Ord.compare (m * e) (n * d) = Ord.compare (m / d : ℚ) (n / e) := by
  have pos_d : (0 : ℚ) < d := by exact_mod_cast hd
  have pos_e : (0 : ℚ) < e := by exact_mod_cast he
  rcases lt_trichotomy (m * e) (n * d) with lt | eq | gt
  · rw [compare_lt_iff_lt.2 lt, eq_comm, compare_lt_iff_lt, div_lt_div_iff₀ pos_d pos_e]
    exact_mod_cast lt
  · rw [compare_eq_iff_eq.2 eq, eq_comm, compare_eq_iff_eq, div_eq_div_iff pos_d.ne' pos_e.ne']
    exact_mod_cast eq
  · rw [compare_gt_iff_gt.2 gt, eq_comm, compare_gt_iff_gt, div_lt_div_iff₀ pos_e pos_d]
    exact_mod_cast gt

theorem compare_int64 (m n : Int64) :
    Ord.compare m n = Ord.compare (m.toInt * (1 : Nat)) (n.toInt * (1 : Nat)) := by
  simp only [Nat.cast_one, mul_one]
  rcases lt_trichotomy m.toInt n.toInt with lt | eq | gt
  · rw [compare_lt_iff_lt.2 lt, Std.compare_eq_lt, Int64.lt_iff_toInt_lt]
    exact lt
  · rw [Int64.toInt_inj.1 eq]
    simp
  · rw [compare_gt_iff_gt.2 gt, Std.compare_eq_gt, Int64.lt_iff_toInt_lt]
    exact gt

/-- Numbers come before texts and these before other bytes, and all of them are in their own order. -/
theorem compare_eq (a b : Quantity) :
    a.compare b = compareLex (compareOn kind) (compareLex (compareOn number) (compareOn letters)) a b := by
  have unfolded : ∀ a b : Quantity,
      compareLex (compareOn kind) (compareLex (compareOn number) (compareOn letters)) a b =
        (Ord.compare a.kind b.kind).then
          ((Ord.compare a.number b.number).then (Ord.compare a.letters b.letters)) := fun _ _ => rfl
  rw [unfolded]
  cases a with
  | text s =>
      cases b with
      | text t => simp [compare, kind, number, letters, fraction?]
      | integer _ | real _ | blob _ => rfl
  | blob s =>
      cases b with
      | blob t => simp [compare, kind, number, letters, fraction?]
      | integer _ | real _ | text _ => rfl
  | integer m =>
      cases b with
      | text _ | blob _ => rfl
      | integer n =>
          rw [compare, compare_int64, compare_cross Nat.one_pos Nat.one_pos]
          simp [kind, number, letters, fraction?]
      | real y =>
          simp only [compare, fraction?, compare_cross Nat.one_pos (ratio_pos y)]
          simp [kind, number, letters, fraction?]
  | real x =>
      cases b with
      | text _ | blob _ => rfl
      | integer n =>
          simp only [compare, fraction?, compare_cross (ratio_pos x) Nat.one_pos]
          simp [kind, number, letters, fraction?]
      | real y =>
          simp only [compare, fraction?, compare_cross (ratio_pos x) (ratio_pos y)]
          simp [kind, number, letters, fraction?]

instance : Std.TransCmp Quantity.compare := by
  rw [show Quantity.compare = _ from funext₂ compare_eq]
  infer_instance

end Quantity

namespace Row

theorem transCmp_onCell (cell : Row → Quantity) :
    Std.TransCmp fun a b => (cell a).compare (cell b) where
  eq_swap {a b} := by
    have swapped : (cell a).compare (cell b) = ((cell b).compare (cell a)).swap :=
      Std.OrientedCmp.eq_swap
    exact swapped
  isLE_trans {a b c} up on := by
    have le : ((cell a).compare (cell c)).isLE = true := Std.TransCmp.isLE_trans up on
    exact le

instance (order : SortOrder) : Std.TransCmp (compareKey order) := by
  cases order with
  | oldestFirst => exact transCmp_onCell createdAt
  | newestFirst => exact (transCmp_onCell createdAt).opposite
  | lastUpdatedFirst => exact (transCmp_onCell updatedAt).opposite
  | mostImportantFirst => exact (transCmp_onCell priority).opposite

/-- Rows in the order of a table's answers. -/
instance (order : SortOrder) :
    Std.TransCmp fun a b : Row => (compareKey order a b).then (Ord.compare a.id b.id) :=
  inferInstanceAs (Std.TransCmp (compareLex (compareKey order) (compareOn Row.id)))

end Row

namespace Table

variable {t : Table} {found : List Task} {id : String}

theorem pairwise_select (t : Table) (s : Selection) (order : SortOrder) :
    (t.select s order).Pairwise fun a b => Row.precedes order a b = true :=
  pairwise_mergeSort_cmp (fun a b => (Row.compareKey order a b).then (compare a.id b.id)) _

theorem older_of_precedes {r₁ r₂ : Row} {a b : Task} (ra : read r₁ = .ok a) (rb : read r₂ = .ok b)
    (ne : a.id ≠ b.id) (h : Row.precedes .oldestFirst r₁ r₂ = true) : a.Older b := by
  obtain ⟨id_a, _, created_a⟩ := read_same ra
  obtain ⟨id_b, _, created_b⟩ := read_same rb
  rw [Row.precedes, Row.compareKey, created_a, created_b, Quantity.compare, ← id_a, ← id_b] at h
  exact .of_keys ne h

theorem mem_iff_read {rows : List Row} {task : Task}
    (h : List.Forall₂ (fun row task => read row = .ok task) rows found) :
    task ∈ found ↔ ∃ row ∈ rows, read row = .ok task := by
  induction h with
  | nil => simp
  | @cons row other rows found k _ ih =>
      rw [List.mem_cons, List.exists_mem_cons_iff, ih, k, Except.ok.injEq, eq_comm]

theorem pairwise_older {rows : List Row}
    (h : List.Forall₂ (fun row task => read row = .ok task) rows found)
    (distinct : (found.map Task.id).Nodup)
    (sorted : rows.Pairwise fun a b => Row.precedes .oldestFirst a b = true) :
    found.Pairwise Task.Older := by
  induction h with
  | nil => exact .nil
  | @cons row task rows found k rest ih =>
      obtain ⟨first, sorted⟩ := List.pairwise_cons.1 sorted
      rw [List.map_cons, List.nodup_cons] at distinct
      refine .cons (fun u hu => ?_) (ih distinct.2 sorted)
      obtain ⟨other, behind, same⟩ := (mem_iff_read rest).1 hu
      have ne : task.id ≠ u.id := fun eq => distinct.1 (eq ▸ List.mem_map_of_mem hu)
      exact older_of_precedes k same ne (first other behind)

theorem mem_select_childrenOf {row : Row} {order : SortOrder} :
    row ∈ t.select (.childrenOf id) order ↔ row ∈ t.rows ∧ row.parent = some id := by
  rw [mem_select, Row.isSelected_childrenOf, decide_eq_true_iff]

end Table

variable {σ : Type} [TaskStore σ]

/-- What a query for the children of an id is answered, without the state that it leaves. -/
def childrenAnswer (s : σ) (id : String) : Except StoreError (List Task) :=
  match childrenOf id s with
  | .ok found _ => .ok found
  | .error e _ => .error e

/-- A store whose answers come in order, and stay the same when children are asked for. -/
class OrderedStore (σ : Type) [TaskStore σ] where
  holds : σ → Task → Prop
  childrenOf_keeps (id : String) (s : σ) :
    Yields (childrenOf id) s
      (fun _ s' => childrenAnswer s' = childrenAnswer s)
      (fun _ s' => childrenAnswer s' = childrenAnswer s)
  childrenOf_sorted (id : String) (s : σ) :
    Yields (childrenOf id) s
      (fun found _ => found.Pairwise Task.Older ∧ ∀ t, t ∈ found ↔ holds s t ∧ t.parent = some id)
      (fun _ _ => True)

theorem childrenAnswer_sorted [OrderedStore σ] {s : σ} {id : String} {found : List Task}
    (h : childrenAnswer s id = .ok found) :
    found.Pairwise Task.Older ∧ ∀ t, t ∈ found ↔ OrderedStore.holds s t ∧ t.parent = some id := by
  have sorted := OrderedStore.childrenOf_sorted id s
  rw [childrenAnswer] at h
  cases k : childrenOf id s with
  | ok answer s' =>
      rw [k] at h
      cases h
      exact sorted.of_ok k
  | error e s' =>
      rw [k] at h
      cases h

namespace InMemory

theorem failsQuery_childrenOf (p : FaultPlan) (id : String) :
    p.failsQuery (.childrenOf id) = if p.childrenOf = some id then some id else none := by
  obtain ⟨_, _, failing⟩ := p
  cases failing with
  | none => rfl
  | some failing => simp [FaultPlan.failsQuery, Selection.childrenOf, eq_comm]

theorem childrenAnswer_eq (s : InMemory) (id : String) :
    childrenAnswer s id =
      if s.faults.childrenOf = some id then .error (.planned ("children query for " ++ id))
      else .ok (s.records.select (.childrenOf id) .oldestFirst) := by
  have outcome : Yields (childrenOf id) s _ _ := query_yields (.childrenOf id) .oldestFirst s
  rw [failsQuery_childrenOf] at outcome
  rw [childrenAnswer]
  cases k : childrenOf id s with
  | ok found s' =>
      obtain ⟨_, rfl, spared⟩ := outcome.of_ok k
      split at spared
      · cases spared
      · next unplanned => rw [if_neg unplanned]
  | error e s' =>
      obtain ⟨_, failing, fails, rfl⟩ := outcome.of_error k
      split at fails
      · next planned =>
          cases fails
          rw [if_pos planned]
      · cases fails

instance : OrderedStore InMemory where
  holds s t := t ∈ s.records.tasks
  childrenOf_keeps id s := by
    have same : childrenAnswer s.countQuery = childrenAnswer s := by
      funext id
      rw [childrenAnswer_eq, childrenAnswer_eq]
      rfl
    exact (query_yields (.childrenOf id) .oldestFirst s).mono (fun _ _ h => h.1 ▸ same)
      (fun _ _ h => h.1 ▸ same)
  childrenOf_sorted id s := by
    refine (query_yields (.childrenOf id) .oldestFirst s).mono ?_ (fun _ _ _ => trivial)
    intro _ _ got
    obtain ⟨_, same, _⟩ := got
    subst same
    exact ⟨s.records.select_older id, fun t => Records.mem_select_childrenOf⟩

end InMemory

namespace Table

instance : OrderedStore Table where
  holds t task := ∃ row ∈ t.rows, read row = .ok task
  childrenOf_keeps id t :=
    (query_yields (.childrenOf id) .oldestFirst t).mono (fun _ _ h => congrArg _ h.1)
      (fun _ _ h => congrArg _ h.1)
  childrenOf_sorted id t := by
    refine (query_yields (.childrenOf id) .oldestFirst t).mono ?_ (fun _ _ _ => trivial)
    intro found _ got
    obtain ⟨_, answered⟩ := got
    have distinct := (parents_showsChildren id .oldestFirst answered).1
    refine ⟨pairwise_older answered distinct (t.pairwise_select _ _), fun task => ?_⟩
    rw [mem_iff_read answered]
    constructor
    · intro got
      obtain ⟨row, selected, same⟩ := got
      obtain ⟨stored, parent⟩ := mem_select_childrenOf.1 selected
      exact ⟨⟨row, stored, same⟩, (read_same same).2.1.trans parent⟩
    · intro got
      obtain ⟨⟨row, stored, same⟩, parent⟩ := got
      exact ⟨row, mem_select_childrenOf.2 ⟨stored, (read_same same).2.1 ▸ parent⟩, same⟩

end Table

end TaskForest
