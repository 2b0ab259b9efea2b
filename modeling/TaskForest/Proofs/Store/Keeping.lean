import TaskForest.Proofs.Store.InMemory
import TaskForest.Proofs.Store.Table

/-!
Conditions on a store that its operations keep. Reads keep some condition whether they succeed or not; a write
that fails keeps it as well, and one that succeeds leads to another condition. Nothing is said here of what the
condition is about, so one argument serves for the tasks that are held, for counters and for readable rows.
-/

namespace TaskForest

variable {σ : Type} [TaskStore σ]

/-- What the way up and the walk down ask keeps `P`. -/
structure LooksKeep (P : σ → Prop) : Prop where
  get (id : String) {s : σ} (h : P s) : Yields (TaskStore.get id) s (fun _ => P) (fun _ => P)
  childrenOf (id : String) {s : σ} (h : P s) : Yields (childrenOf id) s (fun _ => P) (fun _ => P)

structure ReadsKeep (P : σ → Prop) : Prop extends LooksKeep P where
  query (selection : Selection) (order : SortOrder) {s : σ} (h : P s) :
    Yields (TaskStore.query selection order) s (fun _ => P) (fun _ => P)
  childrenOf id _ h := query (.childrenOf id) .oldestFirst h

/-- A write leads from `P` to `Q`, or fails and keeps `P`. -/
structure Governs (P Q : σ → Prop) : Prop extends ReadsKeep P where
  create (t : Task) {s : σ} (h : P s) : Yields (TaskStore.create t) s (fun _ => Q) (fun _ => P)
  update (t : Task) {s : σ} (h : P s) : Yields (TaskStore.update t) s (fun _ => Q) (fun _ => P)
  deleteMany (ids : List String) (guarded : Bool) {s : σ} (h : P s) :
    Yields (TaskStore.deleteMany ids guarded) s (fun _ => Q) (fun _ => P)
  weaken {s : σ} (h : P s) : Q s

/-- Nothing but a write that succeeds changes what is held. -/
def Steady {β : Type} (held : σ → β) : Prop :=
  ∀ b, Governs (fun s => held s = b) fun _ => True

theorem InMemory.steady : Steady InMemory.records := fun _ =>
  { get := fun _ _ h => h
    query := fun selection order s h =>
      (query_yields selection order s).mono (fun _ _ got => got.1 ▸ h) (fun _ _ got => got.1 ▸ h)
    create := fun t s h => (create_yields t s).mono (fun _ _ _ => trivial) (fun _ _ same => same ▸ h)
    update := fun t s h => (update_yields t s).mono (fun _ _ _ => trivial) (fun _ _ same => same ▸ h)
    deleteMany := fun ids guarded s h =>
      (deleteMany_yields ids guarded s).mono (fun _ _ _ => trivial) (fun _ _ got => got.1.trans h)
    weaken := fun _ => trivial }

/-- What is asked of the writes of a table, each of which writes rows of tasks or takes rows away. -/
theorem Table.governs {P Q : Table → Prop} (weaken : ∀ t, P t → Q t)
    (add : ∀ t order task, P t → Q (t.advance.add (.ofTask order task)))
    (replace : ∀ t id order task, P t → Q (t.advance.replace id (.ofTask order task)))
    (remove : ∀ t t' : Table, P t → t'.rows ⊆ t.rows → t'.refusals = t.refusals → Q t') : Governs P Q where
  get id t h := (get_yields id t).mono (fun _ _ got => got.1 ▸ h) (fun _ _ got => got.1 ▸ h)
  query selection order t h :=
    (query_yields selection order t).mono (fun _ _ got => got.1 ▸ h) (fun _ _ got => got.1 ▸ h)
  create task t h := by
    have told := get_yields task.id t
    change Yields (create task) t _ _
    rw [Yields, create_eq]
    cases found : get task.id t with
    | error e t' => exact (told.of_error found).1 ▸ h
    | ok found' t' =>
        obtain ⟨rfl, _⟩ := told.of_ok found
        cases found' with
        | some _ => exact h
        | none => exact add t' _ task h
  update task t h := by
    change Yields (update task) t _ _
    rw [Yields, update_eq]
    split_ifs
    · exact h
    · exact replace t task.id _ task h
  deleteMany ids guarded t h := by
    refine (deleteMany_yields ids guarded t).mono ?_ (fun _ _ same => same ▸ h)
    intro _ t' got
    obtain ⟨left, refusals⟩ := got
    exact remove t t' h (left ▸ List.filter_subset_self _) refusals
  weaken h := weaken _ h

theorem Table.steady : Steady Table.rows := fun _ =>
  governs (fun _ _ => trivial) (fun _ _ _ _ => trivial) (fun _ _ _ _ _ => trivial) (fun _ _ _ _ _ => trivial)

/-- No call changes the plan of faults. -/
theorem InMemory.faults_governs (plan : FaultPlan) :
    Governs (fun s : InMemory => s.faults = plan) fun s => s.faults = plan where
  get _ _ h := h
  query selection order s h :=
    (query_yields selection order s).mono (fun _ _ got => got.1 ▸ h) (fun _ _ got => got.1 ▸ h)
  create t s h := (create_yields t s).mono (fun _ _ got => got.2 ▸ h) (fun _ _ same => same ▸ h)
  update t s h := (update_yields t s).mono (fun _ _ got => got.2 ▸ h) (fun _ _ same => same ▸ h)
  deleteMany ids guarded s h :=
    (deleteMany_yields ids guarded s).mono (fun _ _ got => got.2.1.trans h) (fun _ _ got => got.2.1.trans h)
  weaken h := h

/-- Nor does one change what is refused. -/
theorem Table.refusals_governs (refused : List Refusal) :
    Governs (fun t : Table => t.refusals = refused) fun t => t.refusals = refused := by
  refine governs (fun _ h => h) (fun t order task h => ?_) (fun t id order task h => ?_)
    (fun _ _ h _ same => same.trans h)
  · rw [add]
    split <;> exact h
  · exact (refusals_replace t.advance id _).trans h

/-- A read changes no counter but that of the queries. -/
theorem InMemory.reads_count (c : Counters) :
    ReadsKeep fun s : InMemory => s.counters = { c with queries := s.counters.queries } where
  get _ _ h := h
  query selection order s h := by
    have counted : s.countQuery.counters = { c with queries := s.countQuery.counters.queries } := by
      change { s.counters with queries := s.counters.queries + 1 } = _
      rw [h]
      rfl
    exact (query_yields selection order s).mono (fun _ _ got => got.1 ▸ counted)
      (fun _ _ got => got.1 ▸ counted)

end TaskForest
