import TaskForest.Hierarchy.TreeView
import TaskForest.Proofs.Hierarchy.Delete
import TaskForest.Proofs.Hierarchy.Move
import TaskForest.Proofs.Store.Interleaved
import TaskForest.Proofs.Store.Keeping

/-!
Operations that fail. Each of them reads first and writes last, and makes one write at most, so what its reads
keep and a failing write keeps is kept by a failure of the whole: the tasks that are stored are then the same
as before, whichever read or check or delete of the batch it was that failed.
-/

namespace TaskForest

variable {σ : Type} [TaskStore σ] {P Q : σ → Prop} {s : σ}

namespace LooksKeep

variable (keeps : LooksKeep P)
include keeps

theorem climb (start : String) (room : Nat) (seen : List String) (parent : Option String) (h : P s) :
    Yields (Ancestors.climb start room seen parent) s (fun _ => P) (fun _ => P) := by
  induction room using Nat.strong_induction_on generalizing seen parent s with
  | _ room ih =>
      unfold Ancestors.climb
      cases parent with
      | none => exact .pure h
      | some id =>
          refine .bind (.lift ((keeps.get id h).mono ?_ (fun _ _ k => k)))
          intro found s' h
          cases found with
          | none => exact .pure h
          | some task =>
              refine .check (fun _ => h) (fun _ => ?_)
              cases room with
              | zero => exact .throw h
              | succ room =>
                  exact .bind ((ih room (Nat.lt_succ_self _) (id :: seen) task.parent h).mono
                    (fun _ _ k => .pure k) (fun _ _ k => k))

theorem ancestors (maxDepth : Nat) (id : String) (h : P s) :
    Yields (ancestors maxDepth id) s (fun _ => P) (fun _ => P) :=
  .bind (.lift ((keeps.get id h).mono (fun _ _ k => keeps.climb _ _ _ _ k) (fun _ _ k => k)))

theorem fullWalk (maxDepth : Nat) (root : String) (h : P s) :
    Yields (fullWalk maxDepth root) s (fun _ => P) (fun _ => P) := by
  have answers : Walk.Answered P fun _ _ => True := fun id _ k =>
    (keeps.childrenOf id k).mono (fun _ _ k => ⟨k, trivial⟩) (fun _ _ k => ⟨k, trivial⟩)
  exact (Walk.fullWalk_yields answers maxDepth root s h).mono (fun _ _ k => k.1) (fun _ _ k => k.1)

theorem collect (maxDepth : Nat) (root : String) (h : P s) :
    Yields (collect maxDepth root) s (fun _ => P) (fun _ => P) :=
  .map (keeps.fullWalk maxDepth root h)

theorem loadTree (maxDepth : Nat) (root : String) (h : P s) :
    Yields (loadTree maxDepth root) s (fun _ => P) (fun _ => P) := by
  rw [TaskForest.loadTree]
  refine .bind (.lift ((keeps.get root h).mono ?_ (fun _ _ k => k)))
  intro found s₁ h
  cases found with
  | none => exact .pure h
  | some task =>
      exact .bind ((keeps.fullWalk maxDepth root h).mono (fun _ _ k => .pure k) (fun _ _ k => k))

theorem moveCheck (maxDepth : Nat) (id parent : String) (h : P s) :
    Yields (Move.check maxDepth id parent) s (fun _ => P) (fun _ => P) := by
  rw [Move.check]
  refine .check (fun _ => h) (fun _ => ?_)
  refine .bind (.lift ((keeps.get parent h).mono ?_ (fun _ _ k => k)))
  intro _ s₁ h
  refine .check (fun _ => h) (fun _ => ?_)
  refine .bind ((keeps.ancestors maxDepth parent h).mono ?_ (fun _ _ k => k))
  intro above s₂ h
  refine .check (fun _ => h) (fun _ => ?_)
  refine .bind ((keeps.collect maxDepth id h).mono ?_ (fun _ _ k => k))
  intro subtree s₃ h
  change Yields (if _ then _ else _) _ _ _
  split
  · exact .throw h
  · exact .pure h

end LooksKeep

namespace Governs

variable (governs : Governs P Q)
include governs

theorem reparent (maxDepth : Nat) (now : Int64) (id : String) (parent : Option String) (h : P s) :
    Yields (reparent maxDepth now id parent) s (fun _ => Q) (fun _ => P) := by
  refine reparent_yields_of (fun _ => P) ((governs.get id h).mono ?_ (fun _ _ k => k))
    (fun _ _ k => governs.update _ k)
  intro found s₁ h
  refine ⟨fun _ => h, fun old _ => ?_⟩
  cases parent with
  | none => exact h
  | some p => exact governs.moveCheck maxDepth id p h

theorem deleteAll (guarded : Bool) (ids : List String) (h : P s) :
    Yields (deleteAll guarded ids) s (fun _ => Q) (fun _ => P) :=
  deleteAll_yields_of (fun _ => governs.weaken h) (governs.deleteMany ids guarded h)

theorem delete (limits : Limits) (root : String) (h : P s) :
    Yields (delete limits root) s (fun _ => Q) (fun _ => P) := by
  rw [TaskForest.delete, preview]
  refine .bind ((governs.collect limits.maxDepth root h).mono ?_ (fun _ _ k => k))
  intro subtree s₁ h
  exact .bind ((governs.deleteAll limits.orphanGuard subtree.leavesFirst h).mono
    (fun _ _ k => .pure k) (fun _ _ k => k))

end Governs

theorem delete_of_preview_error {limits : Limits} {root : String} {s s' : σ} {e : HierarchyError}
    (h : preview limits root s = .error e s') : delete limits root s = .error e s' :=
  bind_of_error h

theorem preview_error_of_structural {limits : Limits} {root : String} {s s' : σ} {e : HierarchyError}
    (h : delete limits root s = .error e s') (structural : e.isStructural = true) :
    preview limits root s = .error e s' := by
  rcases error_of_bind h with walked | ⟨subtree, s₁, _, behind⟩
  · exact walked
  · have batch : Yields (deleteAll limits.orphanGuard subtree.leavesFirst) s₁ (fun _ _ => True)
        (fun e _ => e.isStructural = false) :=
      deleteAll_yields_of (fun _ => trivial)
        (.intro (fun _ _ _ => trivial) (fun e _ _ => HierarchyError.ofBatch_not_structural e))
    rcases error_of_bind behind with failed | ⟨_, _, _, reported⟩
    · rw [batch.of_error failed] at structural
      cases structural
    · cases reported

/-- An operation that fails leaves what is held as it was. A delete that other clients interrupt leaves it as
their calls did, if it fails behind them. -/
structure FailuresKeep {β : Type} (held : σ → β) : Prop where
  create : ∀ t s e s', TaskStore.create t s = .error e s' → held s' = held s
  update : ∀ t s e s', TaskStore.update t s = .error e s' → held s' = held s
  deleteMany : ∀ ids guarded s e s', TaskStore.deleteMany ids guarded s = .error e s' →
    held s' = held s
  deleteAll : ∀ guarded ids s e s', deleteAll guarded ids s = .error e s' → held s' = held s
  reparent : ∀ maxDepth now id parent s e s', reparent maxDepth now id parent s = .error e s' →
    held s' = held s
  delete : ∀ limits root s e s', delete limits root s = .error e s' → held s' = held s
  interrupted : ∀ limits root s calls e (left : Interleaved σ),
    TaskForest.delete limits root (⟨s, calls⟩ : Interleaved σ) = .error e left →
      (preview limits root s = .error e left.store ∧ left.calls = calls ∧ held left.store = held s) ∨
      ∃ subtree seen, preview limits root s = .ok subtree seen ∧ held seen = held s ∧
        held left.store = held (Call.allAfter seen calls)

theorem Steady.failuresKeep [LinkedStore σ] {β : Type} {held : σ → β} (steady : Steady held) :
    FailuresKeep held where
  create t s _ _ h := ((steady (held s)).create t rfl).of_error h
  update t s _ _ h := ((steady (held s)).update t rfl).of_error h
  deleteMany ids guarded s _ _ h := ((steady (held s)).deleteMany ids guarded rfl).of_error h
  deleteAll guarded ids s _ _ h := ((steady (held s)).deleteAll guarded ids rfl).of_error h
  reparent maxDepth now id parent s _ _ h :=
    ((steady (held s)).reparent maxDepth now id parent rfl).of_error h
  delete limits root s _ _ h := ((steady (held s)).delete limits root rfl).of_error h
  interrupted limits root s calls e left h := by
    have walk := (steady (held s)).collect limits.maxDepth root rfl
    cases walked : preview limits root s with
    | error e₁ s₁ =>
        have failed : preview limits root (⟨s, calls⟩ : Interleaved σ) = .error e₁ ⟨s₁, calls⟩ := by
          rw [preview, Interleaved.collect_eq, ← preview, walked]
          rfl
        rw [delete_of_preview_error failed] at h
        cases h
        exact .inl ⟨rfl, rfl, walk.of_error walked⟩
    | ok subtree seen =>
        have some_ids : subtree.leavesFirst ≠ [] :=
          ((collect_yields limits.maxDepth root s).of_ok walked).2.leavesFirst_ne_nil
        rw [Interleaved.delete_eq walked some_ids] at h
        refine .inr ⟨subtree, seen, rfl, walk.of_ok walked, ?_⟩
        have batch := (steady (held (Call.allAfter seen calls))).deleteAll limits.orphanGuard
          subtree.leavesFirst rfl
        rcases error_of_bind (Interleaved.error_of_withCalls h) with failed | ⟨_, _, _, reported⟩
        · exact batch.of_error failed
        · cases reported

/-- Whatever is planned to fail, an operation that fails leaves the stored tasks as they were, in memory and in
a table. A delete whose walk fails has not begun to delete; a cycle or a level is always a failure of the
walk. -/
theorem failures_keep_tasks :
    FailuresKeep InMemory.records ∧ FailuresKeep Table.rows ∧
    ∀ (limits : Limits) (root : String) (s s' : InMemory) (e : HierarchyError),
      (preview limits root s = .error e s' →
        delete limits root s = .error e s' ∧
        s'.counters = { s.counters with queries := s'.counters.queries }) ∧
      (delete limits root s = .error e s' → e.isStructural = true →
        preview limits root s = .error e s') := by
  refine ⟨InMemory.steady.failuresKeep, Table.steady.failuresKeep, fun limits root s s' e => ⟨?_, ?_⟩⟩
  · intro failed
    exact ⟨delete_of_preview_error failed,
      ((InMemory.reads_count s.counters).collect limits.maxDepth root rfl).of_error failed⟩
  · exact preview_error_of_structural

/-- The second delete of a batch fails, and then a query of the walk. -/
theorem failures_keep_tasks_of_two :
    let oak : Task := .new "oak" "Oak" 1
    let twig : Task := { Task.new "twig" "Twig" 2 with parent := some "oak" }
    let store : InMemory := .ofList [oak, twig]
    let stuck : InMemory := { store with faults := { deleteNumber := some 1 } }
    let mute : InMemory := { store with faults := { childrenOf := some "twig" } }
    (∃ e left, delete {} "oak" stuck = .error e left ∧ left.counters.deletesAttempted = 2 ∧
      left.records = store.records) ∧
    ∃ e left, delete {} "oak" mute = .error e left ∧
      left.counters = { mute.counters with queries := left.counters.queries } := by
  intro oak twig store stuck mute
  let collected : InMemory := { stuck with counters := { queries := 2 } }
  let rolledBack : InMemory :=
    { stuck with counters := { queries := 2, deletesAttempted := 2, rollbacks := 1 } }
  have seen : preview {} "oak" stuck = .ok ⟨["oak", "twig"], 2⟩ collected := by cbv
  have rejected : delete {} "oak" stuck =
      .error (.store (.deleteFailed "oak" "injected failure: after 1 deletes")) rolledBack := by
    simp only [delete, bind, EStateM.bind, seen]
    rfl
  let unread : InMemory := { mute with counters := { queries := 2 } }
  have walk : preview {} "oak" mute =
      .error (.store (.planned "children query for twig")) unread := by cbv
  obtain ⟨memory, _, split⟩ := failures_keep_tasks
  obtain ⟨failed, counted⟩ := (split {} "oak" mute unread _).1 walk
  exact ⟨⟨_, _, rejected, rfl, memory.delete _ _ stuck _ _ rejected⟩, _, _, failed, counted⟩

end TaskForest
