import TaskForest.Proofs.Store.InMemory

/-!
Batches of deletes in memory, to the last counter. A batch ends at the first delete that the plan fails, or at
the guard behind its last delete, or it is committed; whichever it is, the deletes that were begun stay counted.
Whatever is asked of the store, commits and rollbacks together count the batches, and the queries count the
queries.
-/

namespace TaskForest

namespace FaultPlan

variable {p : FaultPlan} {done i j : Nat} {id x : String} {ids rest : List String}

/-- The plan fails the delete of this number, or of this id. -/
def FailsAt (p : FaultPlan) (number : Nat) (id : String) : Prop :=
  p.deleteNumber = some number ∨ p.deleteOf = some id

instance (p : FaultPlan) (number : Nat) (id : String) : Decidable (p.FailsAt number id) :=
  inferInstanceAs (Decidable (_ ∨ _))

/-- The first delete of a batch that the plan fails, `done` others being made before the batch: its position,
and the id that stands there. -/
structure FirstFault (p : FaultPlan) (done : Nat) (ids : List String) (j : Nat) (id : String) : Prop where
  here : ids[j]? = some id
  fails : p.FailsAt (done + j) id
  spared : ∀ i x, i < j → ids[i]? = some x → ¬ p.FailsAt (done + i) x

theorem failsDelete_iff : p.failsDelete done id = true ↔ p.FailsAt done id := by
  rw [failsDelete, Bool.or_eq_true, decide_eq_true_iff, decide_eq_true_iff]
  exact .rfl

namespace FirstFault

theorem at_head (fails : p.FailsAt done id) : p.FirstFault done (id :: rest) 0 id where
  here := rfl
  fails := fails
  spared _ _ before := absurd before (Nat.not_lt_zero _)

theorem behind_head (spared : ¬ p.FailsAt done id) (h : p.FirstFault (done + 1) rest j x) :
    p.FirstFault done (id :: rest) (j + 1) x where
  here := h.here
  fails := by
    rw [← Nat.add_assoc, Nat.add_right_comm]
    exact h.fails
  spared i y before here := by
    cases i with
    | zero =>
        cases here
        exact spared
    | succ i =>
        rw [← Nat.add_assoc, Nat.add_right_comm]
        exact h.spared i y (Nat.lt_of_succ_lt_succ before) here

theorem of_cons (spared : ¬ p.FailsAt done id) (h : p.FirstFault done (id :: rest) j x) :
    ∃ i, j = i + 1 ∧ p.FirstFault (done + 1) rest i x := by
  cases j with
  | zero =>
      have here := h.here
      cases here
      exact absurd h.fails spared
  | succ i =>
      have shifted : ∀ n, done + 1 + n = done + (n + 1) := fun n => by omega
      refine ⟨i, rfl, h.here, ?_, fun k y before here => ?_⟩
      · exact shifted i ▸ h.fails
      · exact shifted k ▸ h.spared (k + 1) y (Nat.succ_lt_succ before) here

theorem unique {i : Nat} (h : p.FirstFault done ids i id) (k : p.FirstFault done ids j x) :
    i = j ∧ id = x := by
  have same : i = j := by
    rcases Nat.lt_trichotomy i j with before | same | behind
    · exact absurd h.fails (k.spared i id before h.here)
    · exact same
    · exact absurd k.fails (h.spared j x behind k.here)
  subst same
  exact ⟨rfl, Option.some.inj (h.here.symm.trans k.here)⟩

end FirstFault
end FaultPlan

namespace InMemory

variable {s s' s'' : InMemory}

/-- So many more deletes were begun. -/
def attempt (s : InMemory) (n : Nat) : InMemory :=
  { s with counters := { s.counters with deletesAttempted := s.counters.deletesAttempted + n } }

theorem countDelete_attempt (n : Nat) : s.countDelete.attempt n = s.attempt (n + 1) := by
  have sum : s.counters.deletesAttempted + 1 + n = s.counters.deletesAttempted + (n + 1) := by omega
  simp only [attempt, countDelete, sum]

def faultMessage (done : Nat) : String := "injected failure: after " ++ toString done ++ " deletes"

theorem deletes_settles (done : Nat) (batch : Batch) (ids : List String) (s : InMemory) :
    Yields (deletes done batch ids) s
      (fun _ s' => s' = s.attempt ids.length ∧ ∀ j id, ¬ s.faults.FirstFault done ids j id)
      (fun e s' => ∃ j id, s.faults.FirstFault done ids j id ∧
        e = .deleteFailed id (faultMessage (done + j)) ∧ s' = (s.attempt (j + 1)).rollBack) := by
  induction ids generalizing done batch s with
  | nil => exact .pure ⟨rfl, fun j id h => by cases h.here⟩
  | cons id rest ih =>
      rw [deletes]
      -- the delete is counted before the plan is asked
      refine .bind (.bind ?_)
      change Yields (if s.faults.failsDelete done id = true then _ else _) s.countDelete _ _
      split
      · next planned =>
          exact ⟨0, id, .at_head (FaultPlan.failsDelete_iff.1 planned), rfl, rfl⟩
      · next unplanned =>
          have spared := mt FaultPlan.failsDelete_iff.2 unplanned
          refine (ih (done + 1) (batch.delete id) s.countDelete).mono ?_ ?_
          · intro _ s' got
            obtain ⟨same, none_behind⟩ := got
            refine ⟨same.trans (countDelete_attempt _), fun j x h => ?_⟩
            obtain ⟨i, _, behind⟩ := h.of_cons spared
            exact none_behind i x behind
          · intro e s' got
            obtain ⟨j, x, behind, named, same⟩ := got
            refine ⟨j + 1, x, behind.behind_head spared, named.trans ?_, same.trans ?_⟩
            · rw [← Nat.add_assoc, Nat.add_right_comm]
            · rw [countDelete_attempt]

theorem deleteMany_settles (ids : List String) (guarded : Bool) (s : InMemory) :
    Yields (deleteMany ids guarded) s
      (fun removed s' => (∀ j id, ¬ s.faults.FirstFault 0 ids j id) ∧
        ¬ (guarded = true ∧ ∃ t, s.records.Attached ids t) ∧
        s' = (s.attempt ids.length).commit (s.records.without ids) ∧
        {x | x ∈ ids ∧ s.records.parents.Stored x}.encard = removed)
      (fun e s' =>
        (∃ j id, s.faults.FirstFault 0 ids j id ∧ e = .deleteFailed id (faultMessage j) ∧
          s' = (s.attempt (j + 1)).rollBack) ∨
        (∀ j id, ¬ s.faults.FirstFault 0 ids j id) ∧ (guarded = true ∧ ∃ t, s.records.Attached ids t) ∧
          e = .orphaned (s.orphans ids) ∧ s' = (s.attempt ids.length).rollBack) := by
  rw [deleteMany]
  refine .bind (.bind (((deletes_settles 0 ⟨s.records, 0⟩ ids s).and
    (deletes_yields 0 ⟨s.records, 0⟩ ids s)).mono ?_ ?_))
  · intro batch s' got
    obtain ⟨_, removed⟩ := batch
    obtain ⟨⟨same, unfailed⟩, _, _, left, count⟩ := got
    subst same left
    have counted := Records.encard_removed (count.trans (Nat.zero_add _))
    change Yields (if (if guarded = true then s.orphans ids else []).isEmpty = true then _ else _)
      (s.attempt ids.length) _ _
    cases guarded with
    | false => exact ⟨unfailed, fun loud => absurd loud.1 Bool.false_ne_true, rfl, counted⟩
    | true =>
        rw [if_pos rfl]
        split
        · next none_left =>
            have quiet := Records.orphans_eq_nil.1 (List.isEmpty_iff.1 none_left)
            exact ⟨unfailed, fun loud => quiet loud.2, rfl, counted⟩
        · next some_left =>
            have loud := not_not.1 (mt Records.orphans_eq_nil.2 (mt List.isEmpty_iff.2 some_left))
            exact .inr ⟨unfailed, ⟨rfl, loud⟩, rfl, rfl⟩
  · intro e s' got
    obtain ⟨⟨j, id, fault, named, same⟩, _⟩ := got
    refine .inl ⟨j, id, fault, named.trans ?_, same⟩
    rw [Nat.zero_add]

/-- What a client can do to the store, the plan of faults included. -/
inductive Operation where
  | get (id : String)
  | create (task : Task)
  | update (task : Task)
  | query (selection : Selection) (order : SortOrder)
  | deleteMany (ids : List String) (guarded : Bool)
  | plan (faults : FaultPlan)

namespace Operation

def run : Operation → StoreM InMemory Unit
  | get id => do
    let _ ← InMemory.get id
  | create t => InMemory.create t
  | update t => InMemory.update t
  | query selection order => do
    let _ ← InMemory.query selection order
  | deleteMany ids guarded => do
    let _ ← InMemory.deleteMany ids guarded
  | plan faults => modify fun s => { s with faults := faults }

/-- The state after one operation and the next, whether they succeed or not. -/
def allAfter (s : InMemory) (ops : List Operation) : InMemory := ops.foldl (fun s op => leaves op.run s) s

def isBatch : Operation → Bool
  | deleteMany _ _ => true
  | _ => false

def isQuery : Operation → Bool
  | query _ _ => true
  | _ => false

end Operation

/-- So many batches and queries have come to their end between two states. -/
structure Tally (s s' : InMemory) (batches queries : Nat) : Prop where
  batches : s'.counters.commits + s'.counters.rollbacks = s.counters.commits + s.counters.rollbacks + batches
  queries : s'.counters.queries = s.counters.queries + queries

namespace Tally

theorem of_same (same : s'.counters = s.counters) : Tally s s' 0 0 :=
  ⟨by rw [same, Nat.add_zero], by rw [same, Nat.add_zero]⟩

theorem trans {b q b' q' : Nat} (h : Tally s s' b q) (k : Tally s' s'' b' q') : Tally s s'' (b + b') (q + q') :=
  ⟨by rw [k.batches, h.batches, Nat.add_assoc], by rw [k.queries, h.queries, Nat.add_assoc]⟩

theorem commit (s : InMemory) (n : Nat) (records : Records) : Tally s ((s.attempt n).commit records) 1 0 :=
  ⟨Nat.add_right_comm _ _ _, rfl⟩

theorem rollBack (s : InMemory) (n : Nat) : Tally s (s.attempt n).rollBack 1 0 := ⟨rfl, rfl⟩

end Tally

/-- An operation ends one batch if it is a batch, and one query if it is a query. -/
theorem leaves_tally (op : Operation) (s : InMemory) :
    Tally s (leaves op.run s) (if op.isBatch then 1 else 0) (if op.isQuery then 1 else 0) := by
  refine Yields.leaves (P := fun s' => Tally s s' _ _) ?_
  cases op with
  | get id => exact .of_same rfl
  | create t =>
      exact (create_yields t s).mono (fun _ _ got => .of_same (got.2 ▸ rfl))
        (fun _ _ same => .of_same (same ▸ rfl))
  | update t =>
      exact (update_yields t s).mono (fun _ _ got => .of_same (got.2 ▸ rfl))
        (fun _ _ same => .of_same (same ▸ rfl))
  | query selection order =>
      have counted : Tally s s.countQuery 0 1 := ⟨rfl, rfl⟩
      exact .bind ((query_yields selection order s).mono (fun _ _ got => got.1 ▸ counted)
        (fun _ _ got => got.1 ▸ counted))
  | deleteMany ids guarded =>
      refine .bind ((deleteMany_settles ids guarded s).mono ?_ ?_)
      · intro removed s' got
        obtain ⟨_, _, same, _⟩ := got
        exact same ▸ .commit s _ _
      · intro e s' got
        obtain ⟨j, _, _, _, same⟩ | ⟨_, _, _, same⟩ := got
        · exact same ▸ .rollBack s (j + 1)
        · exact same ▸ .rollBack s ids.length
  | plan faults => exact .modify (.of_same rfl)

theorem allAfter_tally (ops : List Operation) (s : InMemory) :
    Tally s (Operation.allAfter s ops) (ops.countP Operation.isBatch) (ops.countP Operation.isQuery) := by
  induction ops generalizing s with
  | nil => exact .of_same rfl
  | cons op rest ih =>
      rw [List.countP_cons, List.countP_cons, Nat.add_comm _ (ite _ _ _), Nat.add_comm _ (ite _ _ _)]
      exact (leaves_tally op s).trans (ih (leaves op.run s))

/-- A batch stops at the first delete that the plan fails, whatever the guard would say; unfailed it is refused
exactly if it is guarded and a task that it does not list has its parent among the ids, stored or not; otherwise
it takes away the tasks of its ids, each once. A batch that does not succeed changes no task. Over any run of
operations, every batch that is asked for is committed or rolled back, and every query counts. -/
theorem batches_settle (s : InMemory) (ids : List String) (guarded : Bool) (ops : List Operation) :
    let orphaning := guarded = true ∧ ∃ t, s.records.Attached ids t
    let unfailed := ∀ j id, ¬ s.faults.FirstFault 0 ids j id
    let after := Operation.allAfter s ops
    (∀ j id, s.faults.FirstFault 0 ids j id →
      deleteMany ids guarded s =
        .error (.deleteFailed id ("injected failure: after " ++ toString j ++ " deletes"))
          { s with counters := { s.counters with
              deletesAttempted := s.counters.deletesAttempted + (j + 1)
              rollbacks := s.counters.rollbacks + 1 } }) ∧
    (unfailed → orphaning →
      ∃ orphans, Ascending orphans ∧ (∀ x, x ∈ orphans ↔ ∃ t, s.records.Attached ids t ∧ t.id = x) ∧
        deleteMany ids guarded s =
          .error (.orphaned orphans)
            { s with counters := { s.counters with
                deletesAttempted := s.counters.deletesAttempted + ids.length
                rollbacks := s.counters.rollbacks + 1 } }) ∧
    (unfailed → ¬ orphaning →
      ∃ removed left, {x | x ∈ ids ∧ ∃ t ∈ s.records.tasks, t.id = x}.encard = (removed : Nat) ∧
        (∀ t, t ∈ left.tasks ↔ t ∈ s.records.tasks ∧ t.id ∉ ids) ∧
        deleteMany ids guarded s =
          .ok removed
            { s with
              records := left
              counters := { s.counters with
                deletesAttempted := s.counters.deletesAttempted + ids.length
                commits := s.counters.commits + 1 } }) ∧
    after.counters.commits + after.counters.rollbacks =
      s.counters.commits + s.counters.rollbacks + ops.countP Operation.isBatch ∧
    after.counters.queries = s.counters.queries + ops.countP Operation.isQuery := by
  intro orphaning unfailed after
  have tally := allAfter_tally ops s
  have settled := deleteMany_settles ids guarded s
  refine ⟨fun j id fault => ?_, fun spared loud => ?_, fun spared quiet => ?_, tally.batches, tally.queries⟩
  · cases made : deleteMany ids guarded s with
    | ok removed s' => exact absurd fault ((settled.of_ok made).1 j id)
    | error e s' =>
        obtain ⟨i, x, first, named, same⟩ | ⟨spared, _⟩ := settled.of_error made
        · obtain ⟨rfl, rfl⟩ := first.unique fault
          rw [named, same]
          rfl
        · exact absurd fault (spared j id)
  · cases made : deleteMany ids guarded s with
    | ok removed s' => exact absurd loud (settled.of_ok made).2.1
    | error e s' =>
        obtain ⟨j, id, fault, _⟩ | ⟨_, _, named, same⟩ := settled.of_error made
        · exact absurd fault (spared j id)
        · refine ⟨s.orphans ids, Records.orphans_ascending, fun x => Records.mem_orphans, ?_⟩
          rw [named, same]
          rfl
  · cases made : deleteMany ids guarded s with
    | ok removed s' =>
        obtain ⟨_, _, same, counted⟩ := settled.of_ok made
        simp only [Records.parents_stored] at counted
        refine ⟨removed, s.records.without ids, counted, fun t => Records.mem_without, ?_⟩
        rw [same]
        rfl
    | error e s' =>
        obtain ⟨j, id, fault, _⟩ | ⟨_, loud, _⟩ := settled.of_error made
        · exact absurd fault (spared j id)
        · exact absurd loud quiet

/-- A repeated id before the one that the plan fails, the children of an id that is stored and of one that is
not, and a batch of a repeated id and a missing one. -/
theorem batches_settle_of_three :
    let oak : Task := .new "oak" "Oak" 1
    let twig : Task := { Task.new "twig" "Twig" 2 with parent := some "oak" }
    let bud : Task := { Task.new "bud" "Bud" 3 with parent := some "elm" }
    let store : InMemory := { InMemory.ofList [oak, twig, bud] with faults := { deleteOf := some "fir" } }
    (∃ left, deleteMany ["oak", "oak", "fir"] true store =
      .error (.deleteFailed "fir" "injected failure: after 2 deletes") left ∧
      left.counters.deletesAttempted = 3 ∧ left.records = store.records) ∧
    (∃ orphans left, deleteMany ["oak", "elm"] true store = .error (.orphaned orphans) left ∧
      "bud" ∈ orphans ∧ "twig" ∈ orphans ∧ left.records = store.records) ∧
    ∃ removed left, deleteMany ["bud", "bud", "ash"] true store = .ok removed left ∧
      left.counters.commits = 1 ∧ oak ∈ left.records.tasks ∧ bud ∉ left.records.tasks := by
  intro oak twig bud store
  have tasks : store.records.tasks = [bud, twig, oak] := by cbv
  have unfailed : ∀ ids, "fir" ∉ ids → ∀ j id, ¬ store.faults.FirstFault 0 ids j id := by
    intro ids apart j id fault
    obtain none_planned | same := fault.fails
    · cases none_planned
    · cases same
      exact apart (List.mem_of_getElem? fault.here)
  have fault : store.faults.FirstFault 0 ["oak", "oak", "fir"] 2 "fir" := by
    refine ⟨rfl, by decide, fun i x before here => ?_⟩
    obtain rfl | rfl : i = 0 ∨ i = 1 := by omega
    all_goals cases here
    all_goals decide
  have twig_attached : store.records.Attached ["oak", "elm"] twig :=
    ⟨by simp [tasks], by decide, "oak", by decide, rfl⟩
  have bud_attached : store.records.Attached ["oak", "elm"] bud :=
    ⟨by simp [tasks], by decide, "elm", by decide, rfl⟩
  have quiet : ¬ (true = true ∧ ∃ t, store.records.Attached ["bud", "bud", "ash"] t) := by
    intro loud
    obtain ⟨_, t, stored, _, p, listed, parent⟩ := loud
    rw [tasks] at stored
    simp only [List.mem_cons, List.not_mem_nil, or_false] at stored listed
    obtain rfl | rfl | rfl := stored
    all_goals cases parent
    all_goals simp at listed
  obtain ⟨failed, _⟩ := batches_settle store ["oak", "oak", "fir"] true []
  obtain ⟨_, refused, _⟩ := batches_settle store ["oak", "elm"] true []
  obtain ⟨_, _, taken, _⟩ := batches_settle store ["bud", "bud", "ash"] true []
  obtain ⟨orphans, _, named, stopped⟩ := refused (unfailed _ (by decide)) ⟨rfl, twig, twig_attached⟩
  obtain ⟨removed, left, _, kept, committed⟩ := taken (unfailed _ (by decide)) quiet
  refine ⟨⟨_, failed 2 "fir" fault, rfl, rfl⟩, ⟨orphans, _, stopped, ?_, ?_, rfl⟩, removed, _, committed, rfl,
    ?_, ?_⟩
  · exact (named "bud").2 ⟨bud, bud_attached, rfl⟩
  · exact (named "twig").2 ⟨twig, twig_attached, rfl⟩
  · exact (kept oak).2 ⟨by simp [tasks], by decide⟩
  · exact fun there => ((kept bud).1 there).2 (by decide)

end InMemory
end TaskForest
