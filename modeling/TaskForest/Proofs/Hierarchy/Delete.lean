import Mathlib
import TaskForest.Hierarchy.Delete
import TaskForest.Proofs.Hierarchy.Subtree
import TaskForest.Proofs.Pointers.Grounded
import TaskForest.Proofs.Store.Items

/-!
A delete takes away what the walk collects, which is closed under children; one that fails takes away nothing.
Where nothing is planned to fail, the guard finds nothing that would lose its parent. So it is the pointers alone
that decide whether a delete succeeds, as long as all that hangs below the root can be read.
-/

namespace TaskForest

open LinkedStore (pointers)
open ItemStore (items idOf Readable Faultless)

namespace Pointers.Spans

variable {f : Pointers} {root : String} {maxDepth : Nat} {subtree : Subtree}

theorem mem_leavesFirst (h : f.Spans root maxDepth subtree) {x : String} :
    x ∈ subtree.leavesFirst ↔ f.Reaches x root := by
  rw [Subtree.leavesFirst, List.mem_reverse, h.mem_iff]

theorem leavesFirst_ne_nil (h : f.Spans root maxDepth subtree) :
    subtree.leavesFirst ≠ [] :=
  List.ne_nil_of_mem (h.mem_leavesFirst.2 .refl)

end Pointers.Spans

/-- What a batch of deletes fails with, as a failure of the delete. -/
def HierarchyError.ofBatch : StoreError → HierarchyError
  | .orphaned orphans => .subtreeChanged orphans
  | e => .store e

/-- A batch never fails by a cycle or a level. -/
theorem HierarchyError.ofBatch_not_structural (e : StoreError) :
    (HierarchyError.ofBatch e).isStructural = false := by
  cases e <;> rfl

section Store

variable {σ : Type} [TaskStore σ]

/-- No batch is made for no ids, and else it is the batch that decides. -/
theorem deleteAll_yields_of {guarded : Bool} {ids : List String} {s : σ} {post : Nat → σ → Prop}
    {fail : HierarchyError → σ → Prop} (nothing : ids = [] → post 0 s)
    (batch : Yields (TaskStore.deleteMany ids guarded) s post (fun e s' => fail (.ofBatch e) s')) :
    Yields (deleteAll guarded ids) s post fail := by
  unfold Yields deleteAll
  cases ids with
  | nil => exact nothing rfl
  | cons id rest =>
      cases k : TaskStore.deleteMany (id :: rest) guarded s with
      | ok removed s' => exact batch.of_ok k
      | error e s' =>
          have failed := batch.of_error k
          cases e <;> exact failed

variable [LinkedStore σ]

theorem deleteAll_pointers (guarded : Bool) (ids : List String) (s : σ) :
    Yields (deleteAll guarded ids) s
      (fun _ s' => pointers s' = (pointers s).without ids)
      (fun _ s' => pointers s' = pointers s) := by
  refine deleteAll_yields_of ?_ (LinkedStore.deleteMany_yields ids guarded s)
  intro nothing
  rw [nothing, Pointers.without_nil]

/-- A delete takes away ids that nothing points at which stays. -/
theorem delete_pointers (limits : Limits) (root : String) (s : σ) :
    Yields (delete limits root) s
      (fun _ s' => ∃ ids, (pointers s).Closed ids ∧ pointers s' = (pointers s).without ids)
      (fun _ s' => pointers s' = pointers s) := by
  rw [delete, preview]
  refine .bind ((collect_yields limits.maxDepth root s).mono ?_ (fun _ _ k => k.1))
  intro subtree s₁ got
  obtain ⟨kept, spans⟩ := got
  rw [← kept] at spans ⊢
  refine .bind ((deleteAll_pointers limits.orphanGuard subtree.leavesFirst s₁).mono ?_
    (fun _ _ k => k))
  intro removed s₂ left
  exact .pure ⟨_, Pointers.closed_of_reaches fun _ => spans.mem_leavesFirst, left⟩

end Store

namespace Walk.Run

variable {Answer : String → Except StoreError (List Task) → Prop} {f : Pointers} {maxDepth : Nat}
  {visited : List String} {stack : List Entry} {w : Walk} {root : String} {err : StoreError}

/-- A query that stops the walk asked for the children of an id that reaches the root. -/
theorem exists_refused (h : Run Answer maxDepth visited stack w)
    (tells : ∀ id r, Answer id r → f.Tells id r) (start : ∀ e ∈ stack, f.Reaches e.id root)
    (k : w.failure = some (.store err)) : ∃ x, f.Reaches x root ∧ Answer x (.error err) := by
  induction h with
  | done | cycle _ | tooDeep _ _ => cases k
  | @refused _ e _ _ _ _ answer =>
      cases k
      exact ⟨e.id, start e List.mem_cons_self, answer⟩
  | @visit visited e rest children w new le answer next ih =>
      have shows : f.ShowsChildren e.id children := tells e.id (.ok children) answer
      refine ih (forall_mem_pushed (fun t ht => ?_) start) k
      exact .head ((shows.2 t.id).1 (List.mem_map_of_mem ht)) (start e List.mem_cons_self)

end Walk.Run

variable {σ : Type} [TaskStore σ] [ItemStore σ] {s s' : σ} {root : String} {maxDepth : Nat}

namespace ItemStore

/-- The children of an id can all be read. -/
def TellsChildren (s : σ) (id : String) : Prop :=
  ∀ a ∈ items s, (pointers s).Step (idOf a) id → Readable a

/-- What reading a faultless store leaves as it was. -/
structure Resembles (s' s : σ) : Prop where
  items : items s' = items s
  encode : encode s' = encode s
  pointers : pointers s' = pointers s
  faultless : Faultless s'

/-- An answer to a query for children, which fails exactly if one of them cannot be read. -/
def Answers (s : σ) (id : String) : Except StoreError (List Task) → Prop
  | .ok children => (pointers s).ShowsChildren id children ∧ TellsChildren s id
  | .error _ => ¬ TellsChildren s id

theorem Answers.tells {id : String} {r : Except StoreError (List Task)} (h : Answers s id r) :
    (pointers s).Tells id r := by
  cases r with
  | ok children => exact h.1
  | error _ => trivial

theorem childrenOf_answered (s : σ) : Walk.Answered (fun s' => Resembles s' s) (Answers s) := by
  intro id s₁ h
  have told := ItemStore.childrenOf_tells id h.faultless
  have linked := LinkedStore.query_yields (.childrenOf id) .oldestFirst s₁
  have shown := LinkedStore.childrenOf_shows id s₁
  have written := ItemStore.query_encode (.childrenOf id) .oldestFirst s₁
  rw [h.items, h.pointers] at told
  rw [h.pointers] at linked shown
  rw [h.encode] at written
  refine .intro (fun found s₂ k => ?_) (fun e s₂ k => ?_)
  · obtain ⟨same, faultless, readable⟩ := told.of_ok k
    exact ⟨⟨same, written.of_ok k, linked.of_ok k, faultless⟩, shown.of_ok k, readable⟩
  · obtain ⟨same, faultless, a, stored, step, unread⟩ := told.of_error k
    exact ⟨⟨same, written.of_error k, linked.of_error k, faultless⟩, fun readable => unread (readable a stored step)⟩

/-- A walk that is not refused was told all children of all that reaches the root. -/
theorem collect_yields (maxDepth : Nat) (root : String) (h : Faultless s) :
    Yields (collect maxDepth root) s
      (fun subtree s' => Resembles s' s ∧ (pointers s).Spans root maxDepth subtree ∧
        ∀ x, (pointers s).Reaches x root → TellsChildren s x)
      (fun e s' => Resembles s' s ∧ (pointers s).Refuses root maxDepth e ∧
        (e.isStructural = false → ∃ x, (pointers s).Reaches x root ∧ ¬ TellsChildren s x)) := by
  have tells : ∀ id r, Answers s id r → (pointers s).Tells id r := fun _ _ => Answers.tells
  refine .map ((Walk.fullWalk_yields (childrenOf_answered s) maxDepth root s ⟨rfl, rfl, rfl, h⟩).mono ?_ ?_)
  · intro w s' got
    obtain ⟨kept, run, full⟩ := got
    have spans := (run.mono tells).subtree_spans full
    refine ⟨kept, spans, fun x below => ?_⟩
    obtain ⟨v, hv, rfl⟩ := Walk.mem_ids.1 ((spans.mem_iff x).2 below)
    exact (run.visit_le_and_answered v hv).2.2
  · intro e s' got
    obtain ⟨kept, w, run, failed⟩ := got
    have refuses := (run.mono tells).refuses failed
    refine ⟨kept, refuses, fun other => ?_⟩
    cases e with
    | cycle _ | tooDeep _ => cases other
    | subtreeChanged _ => exact refuses.elim
    | store err => exact run.exists_refused tells (by simpa using .refl) failed

theorem deleteAll_takes (guarded : Bool) (ids : List String) (h : Faultless s) :
    Yields (deleteAll guarded ids) s
      (fun removed s' => items s' = (items s).filter (fun a => idOf a ∉ ids) ∧ Faultless s' ∧
        (guarded = true → (pointers s).Closed ids) ∧ removed + (items s').length = (items s).length)
      (fun e s' => items s' = items s ∧ guarded = true ∧ ¬ (pointers s).Closed ids ∧
        ∃ orphans, (pointers s).Orphans ids orphans ∧ e = .subtreeChanged orphans) := by
  refine deleteAll_yields_of ?_ (((ItemStore.deleteMany_takes ids guarded h).and
    (faultless_governs.deleteMany ids guarded h)).mono ?_ ?_)
  · intro nothing
    subst nothing
    refine ⟨?_, h, fun _ _ _ _ hp => absurd hp List.not_mem_nil, Nat.zero_add _⟩
    simp
  · intro removed s' got
    obtain ⟨⟨left, closed, counted⟩, faultless⟩ := got
    exact ⟨left, faultless, closed, counted⟩
  · intro e s' got
    obtain ⟨⟨kept, on, opened, orphans, named, same⟩, _⟩ := got
    exact ⟨kept, on, opened, orphans, named, congrArg HierarchyError.ofBatch same⟩

end ItemStore

open ItemStore (Resembles TellsChildren)

/-- A delete whose walk is not refused takes the items of the collected ids away and counts them. -/
theorem delete_of_preview {limits : Limits} {subtree : Subtree} {seen : σ} (h : Faultless s)
    (walked : preview limits root s = .ok subtree seen) :
    ∃ report after, delete limits root s = .ok report after ∧
      items after = (items s).filter (fun a => idOf a ∉ subtree.ids) ∧ Faultless after ∧
      report.root = root ∧ report.collected = subtree.ids.length ∧ report.depth = subtree.depth ∧
      report.deleted + (items after).length = (items s).length := by
  obtain ⟨kept, spans, _⟩ := (ItemStore.collect_yields limits.maxDepth root h).of_ok walked
  have closed : (pointers seen).Closed subtree.leavesFirst :=
    kept.pointers ▸ Pointers.closed_of_reaches fun _ => spans.mem_leavesFirst
  have batch := ItemStore.deleteAll_takes limits.orphanGuard subtree.leavesFirst kept.faultless
  have rest : delete limits root s = (do
      let deleted ← deleteAll limits.orphanGuard subtree.leavesFirst
      pure ⟨root, subtree.ids.length, deleted, subtree.depth⟩ : HierarchyM σ Report) seen :=
    bind_of_ok walked
  rw [rest]
  cases made : deleteAll limits.orphanGuard subtree.leavesFirst seen with
  | error e after => exact absurd closed (batch.of_error made).2.2.1
  | ok removed after =>
      obtain ⟨left, faultless, _, counted⟩ := batch.of_ok made
      rw [bind_of_ok made]
      rw [kept.items] at left counted
      refine ⟨_, after, rfl, ?_, faultless, rfl, rfl, rfl, counted⟩
      simpa only [Subtree.leavesFirst, List.mem_reverse] using left

/-- What is collected is taken away, and the report counts it. -/
theorem delete_takes (limits : Limits) (root : String) (h : Faultless s) :
    Yields (delete limits root) s
      (fun report after => ∃ subtree, (pointers s).Spans root limits.maxDepth subtree ∧
        items after = (items s).filter (fun a => idOf a ∉ subtree.ids) ∧
        report.root = root ∧ report.collected = subtree.ids.length ∧ report.depth = subtree.depth ∧
        report.deleted + (items after).length = (items s).length)
      (fun e after => items after = items s ∧ (pointers s).Refuses root limits.maxDepth e ∧
        (e.isStructural = false → ∃ x, (pointers s).Reaches x root ∧ ¬ TellsChildren s x)) := by
  have walk := ItemStore.collect_yields limits.maxDepth root h
  cases walked : preview limits root s with
  | ok subtree seen =>
      obtain ⟨report, after, ok, left, _, told⟩ := delete_of_preview h walked
      exact .of_eq_ok ok ⟨subtree, (walk.of_ok walked).2.1, left, told⟩
  | error e seen =>
      have failed : delete limits root s = .error e seen := bind_of_error walked
      obtain ⟨kept, refuses, unread⟩ := walk.of_error walked
      rw [Yields, failed]
      exact ⟨kept.items, refuses, unread⟩

/-- The report of a delete says what the pointers were before. -/
structure Report.Describes (report : Report) (f : Pointers) (root : String) : Prop where
  about : report.root = root
  collected : {x | f.Reaches x root}.encard = report.collected
  deleted : {x | f.Reaches x root ∧ f.Stored x}.encard = report.deleted
  depth : IsGreatest {n | ∃ x, f.AtLevel root x n} report.depth

theorem Report.Describes.of_spans {report : Report} {subtree : Subtree}
    (spans : (pointers s).Spans root maxDepth subtree)
    (left : items s' = (items s).filter fun a => idOf a ∉ subtree.ids)
    (about : report.root = root) (collected : report.collected = subtree.ids.length)
    (depth : report.depth = subtree.depth)
    (counted : report.deleted + (items s').length = (items s).length) :
    report.Describes (pointers s) root := by
  have taken := ItemStore.encard_removed left counted
  simp only [spans.mem_iff] at taken
  refine ⟨about, ?_, taken, depth ▸ spans.depth⟩
  rw [collected, ← List.toFinset_card_of_nodup spans.nodup, ← Set.encard_coe_eq_coe_finsetCard]
  congr
  ext x
  simp [spans.mem_iff]

/-- Where all that hangs below the root can be read, only a cycle or a level stops a delete. -/
theorem delete_yields (limits : Limits) (root : String) (h : Faultless s)
    (told : ∀ x, (pointers s).Reaches x root → TellsChildren s x) :
    Yields (delete limits root) s
      (fun report after => report.Describes (pointers s) root ∧
        ¬ (pointers s).OnCycle root ∧ report.depth ≤ limits.maxDepth ∧
        (∀ a, a ∈ items after ↔ a ∈ items s ∧ ¬ (pointers s).Reaches (idOf a) root) ∧
        ∀ x p, (pointers after).Step x p → (pointers s).Step x p)
      (fun e after => items after = items s ∧ (pointers s).Refuses root limits.maxDepth e ∧
        e.isStructural = true) := by
  refine ((delete_takes limits root h).and (delete_pointers limits root s)).mono ?_ ?_
  · intro report after got
    obtain ⟨⟨subtree, spans, left, about, collected, depth, counted⟩, ids, _, without⟩ := got
    refine ⟨.of_spans spans left about collected depth counted, spans.off, depth ▸ spans.le, fun a => ?_,
      fun x p step => (Pointers.without_step.1 (without ▸ step)).1⟩
    rw [left, List.mem_filter, decide_eq_true_eq, spans.mem_iff]
  · intro e after got
    obtain ⟨⟨kept, refuses, unread⟩, _⟩ := got
    refine ⟨kept, refuses, ?_⟩
    cases structural : e.isStructural with
    | true => rfl
    | false =>
        obtain ⟨x, below, silent⟩ := unread structural
        exact absurd (told x below) silent

/-- Where nothing is planned to fail and all that hangs below the root can be read, as every task in memory can, a
delete succeeds on a root that is off every cycle and whose subtree is within the limit, and takes away the subtree
and nothing else. In every other case the cycle at the root, or an id right below the limit, is reported and
nothing is taken away. -/
theorem delete_removes_subtree (s : σ) (faultless : Faultless s) (limits : Limits) (root : String)
    (told : ∀ x, (pointers s).Reaches x root → TellsChildren s x) :
    ((∃ report after, delete limits root s = .ok report after) ↔
      ¬ (pointers s).OnCycle root ∧
        ∀ x n, (pointers s).AtLevel root x n → n ≤ limits.maxDepth) ∧
    (∀ report after, delete limits root s = .ok report after →
      report.Describes (pointers s) root ∧
      (∀ a, a ∈ items after ↔ a ∈ items s ∧ ¬ (pointers s).Reaches (idOf a) root) ∧
      ∀ x p, (pointers after).Step x p → ¬ (pointers s).Reaches p root) ∧
    ∀ e after, delete limits root s = .error e after →
      (e = .cycle root ∨ ∃ x, e = .tooDeep x) ∧ items after = items s := by
  have outcome := delete_yields limits root faultless told
  refine ⟨⟨?_, ?_⟩, ?_, ?_⟩
  · intro got
    obtain ⟨report, after, ok⟩ := got
    obtain ⟨describes, off, le, _⟩ := outcome.of_ok ok
    exact ⟨off, fun x n h => (describes.depth.2 ⟨x, h⟩).trans le⟩
  · intro got
    obtain ⟨off, within⟩ := got
    cases result : delete limits root s with
    | ok report after => exact ⟨report, after, rfl⟩
    | error e after =>
        obtain ⟨_, refuses, structural⟩ := outcome.of_error result
        cases e with
        | cycle _ => exact absurd refuses.2 off
        | tooDeep x =>
            have low := within x _ refuses
            omega
        | subtreeChanged _ | store _ => cases structural
  · intro report after ok
    obtain ⟨describes, _, _, left, before⟩ := outcome.of_ok ok
    refine ⟨describes, left, fun x p step below => ?_⟩
    obtain ⟨a, stays, rfl⟩ := List.mem_map.1 ((ItemStore.stored_iff after x).1 step.stored)
    exact ((left a).1 stays).2 (.head (before _ p step) below)
  · intro e after error
    obtain ⟨kept, refuses, structural⟩ := outcome.of_error error
    refine ⟨?_, kept⟩
    cases e with
    | cycle x => exact .inl (congrArg HierarchyError.cycle refuses.1)
    | tooDeep x => exact .inr ⟨x, rfl⟩
    | subtreeChanged _ | store _ => cases structural

/-- A task and the one below it are taken away, and what is beside them stays: a task in memory, and in a table a
row that cannot be read. -/
theorem delete_removes_subtree_of_two :
    let oak : Task := .new "oak" "Oak" 1
    let twig : Task := { Task.new "twig" "Twig" 2 with parent := some "oak" }
    let ash : Task := .new "ash" "Ash" 3
    let stump : Row := { Row.ofTask .ascending ash with status := "felled" }
    let memory : InMemory := .ofList [oak, twig, ash]
    let table : Table :=
      { rows := [.ofTask .ascending oak, .ofTask .ascending twig, stump], distinct := by decide }
    (∃ report after, delete {} "oak" memory = .ok report after ∧ report.deleted = 2 ∧
      ash ∈ after.records.tasks ∧ report.Describes memory.records.parents "oak") ∧
    ∃ report after, delete {} "oak" table = .ok report after ∧ report.deleted = 2 ∧ stump ∈ after.rows ∧
      report.Describes table.parents "oak" := by
  intro oak twig ash stump memory table
  constructor
  · let left : InMemory :=
      { records := .ofList [ash], counters := { queries := 2, deletesAttempted := 2, commits := 1 } }
    have ok : delete {} "oak" memory = .ok ⟨"oak", 2, 2, 2⟩ left := by cbv
    have stays : ash ∈ left.records.tasks := by
      have tasks : left.records.tasks = [ash] := by cbv
      rw [tasks]
      exact List.mem_cons_self
    obtain ⟨describes, _⟩ :=
      (delete_removes_subtree memory rfl {} "oak" fun _ _ _ _ _ => trivial).2.1 _ left ok
    exact ⟨_, left, ok, rfl, stays, describes⟩
  · let left : Table := { rows := [stump], distinct := List.nodup_singleton _ }
    have ok : delete {} "oak" table = .ok ⟨"oak", 2, 2, 2⟩ left := by cbv
    have told : ∀ row ∈ table.rows, ∀ p, table.parents.Step row.id p → ∃ task, Table.read row = .ok task := by
      intro row stored p step
      rw [Table.step_iff_of_mem stored] at step
      obtain rfl | rfl | rfl : row = .ofTask .ascending oak ∨ row = .ofTask .ascending twig ∨ row = stump := by
        simpa [table] using stored
      · exact Table.exists_read_iff.2 (Row.legible_ofTask .ascending oak)
      · exact Table.exists_read_iff.2 (Row.legible_ofTask .ascending twig)
      · cases step
    obtain ⟨describes, _⟩ := (delete_removes_subtree table rfl {} "oak" fun x _ row stored step =>
      told row stored x step).2.1 _ left ok
    exact ⟨_, left, ok, rfl, List.mem_singleton_self _, describes⟩

end TaskForest
