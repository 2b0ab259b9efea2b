import TaskForest.Proofs.Hierarchy.Failure
import TaskForest.Proofs.Hierarchy.Moves
import TaskForest.Proofs.Pointers.Evolution
import TaskForest.Run.Command

/-!
What a command does to a store. It makes one write at most. The store checks nothing of the parent pointers
that it is given: a new task has its parent looked up, a move has the way up from its parent checked, and a
delete takes a task away together with all that is below it. A command that fails changes no pointer.
-/

namespace TaskForest

open LinkedStore (pointers)

namespace Yields

variable {σ α : Type} {s : σ} {post : α → σ → Prop} {fail : RunError → σ → Prop}

theorem liftRun {m : HierarchyM σ α} (h : Yields m s post (fun e s' => fail (.hierarchy e) s')) :
    Yields (liftM m : RunM σ α) s post fail :=
  adapt h

theorem liftStore {m : StoreM σ α} (h : Yields m s post (fun e s' => fail (.hierarchy (.store e)) s')) :
    Yields (liftM m : RunM σ α) s post fail :=
  adapt (adapt h)

end Yields

namespace Command

variable {σ : Type} [TaskStore σ] {s : σ}

section Governed

variable {P Q : σ → Prop}

theorem addTask_governs (governs : Governs P Q) (format : OutputFormat) (task : Task) (h : P s) :
    Yields (addTask format task) s (fun _ => Q) (fun _ => P) := by
  have parent_keeps : Yields (checkParent task.parent) s (fun _ => P) (fun _ => P) := by
    unfold checkParent
    cases task.parent with
    | none => exact .pure h
    | some id =>
        refine .bind (.liftStore ((governs.get id h).mono (fun found s' k => ?_) (fun _ _ k => k)))
        cases found with
        | none => exact .throw k
        | some task => exact .pure k
  rw [addTask]
  refine .bind (parent_keeps.mono (fun _ s₁ k => ?_) (fun _ _ k => k))
  exact .bind (.liftStore ((governs.create task k).mono (fun _ _ k => .pure k) (fun _ _ k => k)))

theorem showTree_governs (governs : Governs P Q) (limits : Limits) (format : OutputFormat)
    (id : String) (h : P s) : Yields (showTree limits format id) s (fun _ => Q) (fun _ => P) := by
  rw [showTree]
  refine .bind (.liftRun ((governs.loadTree limits.maxDepth id h).mono ?_ (fun _ _ k => k)))
  intro loaded s' k
  cases loaded with
  | none => exact .throw k
  | some tree => exact .pure (governs.weaken k)

theorem query_governs (governs : Governs P Q) (selection : Selection) (order : SortOrder)
    (format : OutputFormat) (h : P s) :
    Yields (do
      let tasks ← (TaskStore.query selection order : StoreM σ (List Task))
      pure (shownTasks format tasks) : RunM σ String) s (fun _ => Q) (fun _ => P) :=
  .bind (.liftStore ((governs.query selection order h).mono (fun _ _ k => .pure (governs.weaken k))
    (fun _ _ k => k)))

/-- A command makes one write at most, so it leads where writes lead. -/
theorem run_governs (governs : Governs P Q) (limits : Limits) (format : OutputFormat) (stamp : Stamp)
    (c : Command) (h : P s) : Yields (c.run limits format stamp) s (fun _ => Q) (fun _ => P) := by
  cases c with
  | add title parent description priority tags project => exact addTask_governs governs format _ h
  | children id => exact query_governs governs (.childrenOf id) .oldestFirst format h
  | tree id => exact showTree_governs governs limits format id h
  | roots => exact query_governs governs .roots .oldestFirst format h
  | move id parent =>
      exact .bind (.liftRun ((governs.reparent _ stamp.now id parent h).mono (fun _ _ k => .pure k)
        (fun _ _ k => k)))
  | delete id dryRun =>
      cases dryRun with
      | true =>
          exact .bind (.liftRun ((governs.collect limits.maxDepth id h).mono
            (fun _ _ k => .pure (governs.weaken k)) (fun _ _ k => k)))
      | false =>
          exact .bind (.liftRun ((governs.delete limits id h).mono (fun _ _ k => .pure k)
            (fun _ _ k => k)))

end Governed

section Linked

variable [LinkedStore σ]

abbrev Changes {α : Type} (maxDepth : Nat) (m : RunM σ α) (s : σ) : Prop :=
  Yields m s (fun _ s' => (pointers s).Evolves maxDepth (pointers s'))
    (fun _ s' => pointers s' = pointers s)

theorem checkParent_yields (parent : Option String) (s : σ) :
    Yields (checkParent parent) s
      (fun _ s' => pointers s' = pointers s ∧ ∀ p, parent = some p → (pointers s).Stored p)
      (fun _ s' => pointers s' = pointers s) := by
  unfold checkParent
  cases parent with
  | none => exact .pure ⟨rfl, nofun⟩
  | some id =>
      refine .bind (.liftStore ((LinkedStore.get_yields id s).mono ?_ (fun _ _ kept => kept)))
      intro found s' got
      obtain ⟨kept, shows⟩ := got
      cases found with
      | none => exact .throw kept
      | some task =>
          refine .pure ⟨kept, ?_⟩
          rintro p ⟨⟩
          exact shows.stored

theorem addTask_changes (maxDepth : Nat) (format : OutputFormat) (task : Task) :
    Changes maxDepth (addTask format task) s := by
  rw [addTask]
  refine .bind ((checkParent_yields task.parent s).mono ?_ (fun _ _ kept => kept))
  intro _ s₁ got
  obtain ⟨kept, parent_stored⟩ := got
  rw [← kept] at parent_stored ⊢
  refine .bind (.liftStore ((LinkedStore.create_yields task s₁).mono ?_ (fun _ _ kept => kept)))
  intro _ s₂ got
  obtain ⟨new, put⟩ := got
  refine .pure ?_
  rw [put]
  exact .added new parent_stored

theorem moveTask_changes (limits : Limits) (format : OutputFormat) (now : Int64) (id : String)
    (parent : Option String) : Changes limits.maxDepth (moveTask limits format now id parent) s := by
  rw [moveTask]
  refine .bind (.liftRun ((reparent_yields limits.maxDepth now id parent s).mono ?_
    (fun _ _ kept => kept)))
  intro _ s' got
  obtain ⟨put, stored, fits⟩ := got
  refine .pure ?_
  rw [put]
  exact .moved stored fits

theorem deleteTask_changes (limits : Limits) (format : OutputFormat) (id : String) :
    Changes limits.maxDepth (deleteTask limits format id) s := by
  rw [deleteTask]
  refine .bind (.liftRun ((delete_pointers limits id s).mono ?_ (fun _ _ kept => kept)))
  intro _ s' got
  obtain ⟨ids, closed, left⟩ := got
  refine .pure ?_
  rw [left]
  exact .removed closed

theorem Changes.of_kept {α : Type} {maxDepth : Nat} {m : RunM σ α}
    (h : Yields m s (fun _ s' => pointers s' = pointers s) (fun _ s' => pointers s' = pointers s)) :
    Changes maxDepth m s :=
  h.mono (fun _ _ kept => kept ▸ .same) (fun _ _ kept => kept)

theorem showPreview_changes (limits : Limits) (format : OutputFormat) (id : String) :
    Changes limits.maxDepth (showPreview limits format id) s := by
  rw [showPreview, preview]
  exact .of_kept (.bind (.liftRun ((collect_yields limits.maxDepth id s).mono
    (fun _ _ k => .pure k.1) (fun _ _ k => k.1))))

theorem showTree_changes (limits : Limits) (format : OutputFormat) (id : String) :
    Changes limits.maxDepth (showTree limits format id) s := by
  rw [showTree]
  refine .of_kept (.bind (.liftRun ((loadTree_refuses limits.maxDepth id s).mono ?_ (fun _ _ k => k.1))))
  intro loaded s' kept
  cases loaded with
  | none => exact .throw kept
  | some tree => exact .pure kept

theorem query_changes (maxDepth : Nat) (selection : Selection) (order : SortOrder)
    (format : OutputFormat) :
    Changes maxDepth (do
      let tasks ← (TaskStore.query selection order : StoreM σ (List Task))
      pure (shownTasks format tasks) : RunM σ String) s :=
  .of_kept (.bind (.liftStore ((LinkedStore.query_yields selection order s).mono
    (fun _ _ kept => .pure kept) (fun _ _ kept => kept))))

/-- A command that fails changes no pointer, and one that succeeds makes one change. -/
theorem run_changes (limits : Limits) (format : OutputFormat) (stamp : Stamp) (c : Command) (s : σ) :
    Changes limits.maxDepth (c.run limits format stamp) s := by
  cases c with
  | add title parent description priority tags project => exact addTask_changes _ format _
  | children id => exact query_changes _ (.childrenOf id) .oldestFirst format
  | tree id => exact showTree_changes limits format id
  | roots => exact query_changes _ .roots .oldestFirst format
  | move id parent => exact moveTask_changes limits format stamp.now id parent
  | delete id dryRun =>
      cases dryRun with
      | true => exact showPreview_changes limits format id
      | false => exact deleteTask_changes limits format id

/-- After a command, whether it succeeds or not, the pointers are what one change makes of them. -/
theorem leaves_evolves (limits : Limits) (format : OutputFormat) (stamp : Stamp) (c : Command) (s : σ) :
    (pointers s).Evolves limits.maxDepth (pointers (leaves (c.run limits format stamp) s)) :=
  Yields.leaves (P := fun s' : σ => (pointers s).Evolves limits.maxDepth (pointers s'))
    ((run_changes limits format stamp c s).mono (fun _ _ h => h) (fun _ _ kept => kept ▸ .same))

end Linked

end Command
end TaskForest
