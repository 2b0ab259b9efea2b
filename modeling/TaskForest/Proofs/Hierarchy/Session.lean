import Mathlib
import TaskForest.Proofs.Files.Disk

/-!
Sessions: requests to a store, one after another, and the database on disk closed and opened again in between. A
store in memory, a table and a database on disk that hold the same tasks give the same replies and hold the same
tasks after each step. Selections, orders, limits, guards and the readings of the clock are any; metadata is
such that its text can be read again.
-/

namespace TaskForest

/-- What a store, and the hierarchy that it holds, can be asked. -/
inductive Request where
  | get (id : String)
  | create (task : Task)
  | update (task : Task)
  | query (selection : Selection) (order : SortOrder)
  | deleteMany (ids : List String) (guarded : Bool)
  | childrenOf (id : String)
  | roots
  | collect (maxDepth : Nat) (root : String)
  | delete (limits : Limits) (root : String)
  | deleteAll (guarded : Bool) (ids : List String)
  | ancestors (maxDepth : Nat) (id : String)
  | reparent (maxDepth : Nat) (now : Int64) (id : String) (parent : Option String)
  | loadTree (maxDepth : Nat) (root : String)

inductive Answer where
  | written
  | found (task : Option Task)
  | listed (tasks : List Task)
  | removed (count : Nat)
  | collected (subtree : Subtree)
  | deleted (report : Report)
  | above (ids : List String)
  | moved (task : Task)
  | tree (tree : Option TaskTree)

namespace Request

variable {σ τ : Type} [TaskStore σ] [TaskStore τ] {R : σ → τ → Prop}

def run : Request → HierarchyM σ Answer
  | get id => .found <$> liftM (TaskStore.get id : StoreM σ _)
  | create t => (fun _ => .written) <$> liftM (TaskStore.create t : StoreM σ _)
  | update t => (fun _ => .written) <$> liftM (TaskStore.update t : StoreM σ _)
  | query selection order => .listed <$> liftM (TaskStore.query selection order : StoreM σ _)
  | deleteMany ids guarded => .removed <$> liftM (TaskStore.deleteMany ids guarded : StoreM σ _)
  | childrenOf id => .listed <$> liftM (TaskForest.childrenOf id : StoreM σ _)
  | roots => .listed <$> liftM (TaskForest.roots : StoreM σ _)
  | collect maxDepth root => .collected <$> TaskForest.collect maxDepth root
  | delete limits root => .deleted <$> TaskForest.delete limits root
  | deleteAll guarded ids => .removed <$> TaskForest.deleteAll guarded ids
  | ancestors maxDepth id => .above <$> TaskForest.ancestors maxDepth id
  | reparent maxDepth now id parent => .moved <$> TaskForest.reparent maxDepth now id parent
  | loadTree maxDepth root => .tree <$> TaskForest.loadTree maxDepth root

/-- The tasks that a request asks to be written. -/
def written : Request → Option Task
  | create t | update t => some t
  | _ => none

/-- Stores that agree answer every request in the same way. -/
theorem run_agree {Fit : Task → Prop} (agrees : Agreement R Fit) (request : Request)
    (fit : ∀ t, request.written = some t → Fit t) :
    Agree R anything (request.run : HierarchyM σ _) (request.run : HierarchyM τ _) := by
  cases request with
  | get id => exact .map (.lift (agrees.get id)) fun _ _ => trivial
  | create t => exact .map (.lift (agrees.create t (fit t rfl))) fun _ _ => trivial
  | update t => exact .map (.lift (agrees.update t (fit t rfl))) fun _ _ => trivial
  | query selection order => exact .map (.lift (agrees.query selection order)) fun _ _ => trivial
  | deleteMany ids guarded => exact .map (.lift (agrees.deleteMany ids guarded)) fun _ _ => trivial
  | childrenOf id => exact .map (.lift (agrees.query _ _)) fun _ _ => trivial
  | roots => exact .map (.lift (agrees.query _ _)) fun _ _ => trivial
  | collect maxDepth root => exact .map (agrees.collect maxDepth root) fun _ _ => trivial
  | delete limits root => exact .map (agrees.delete limits root) fun _ _ => trivial
  | deleteAll guarded ids => exact .map (agrees.deleteAll guarded ids) fun _ _ => trivial
  | ancestors maxDepth id => exact .map (agrees.ancestors maxDepth id) fun _ _ => trivial
  | reparent maxDepth now id parent => exact .map (agrees.reparent maxDepth now id parent) fun _ _ => trivial
  | loadTree maxDepth root => exact .map (agrees.loadTree maxDepth root) fun _ _ => trivial

end Request

/-- A store that can be closed and opened again, and the tasks that it holds. -/
class Backend (σ : Type) extends TaskStore σ where
  held : σ → Except StoreError (List Task)
  reopen : σ → Except DatabaseError σ

/-- What is in memory only stays as it is. -/
instance : Backend InMemory where
  held s := .ok s.records.tasks
  reopen := .ok

instance : Backend Table where
  held t := t.rows.mapM Table.read
  reopen := .ok

instance : Backend Disk where
  held d := d.opened.table.rows.mapM Table.read
  reopen := Disk.reopen

inductive Action where
  | ask (request : Request)
  | reopen

inductive Reply where
  | answered (answer : Answer)
  | refused (error : HierarchyError)
  | reopened
  | lost (error : DatabaseError)

namespace Action

variable {σ : Type} [Backend σ]

def run (s : σ) : Action → Reply × σ
  | ask request =>
    match request.run s with
    | .ok answer s => (.answered answer, s)
    | .error e s => (.refused e, s)
  | reopen =>
    match Backend.reopen s with
    | .ok s => (.reopened, s)
    | .error e => (.lost e, s)

/-- The reply to each action, and the tasks that are held after it. -/
def trace (s : σ) : List Action → List (Reply × Except StoreError (List Task))
  | [] => []
  | action :: rest =>
    let (reply, s) := action.run s
    (reply, Backend.held s) :: trace s rest

/-- The task that an action writes can be read again. -/
def Storable : Action → Prop
  | ask request => ∀ t, request.written = some t → t.Storable
  | reopen => True

end Action

/-- Stores that agree, hold the same tasks, and still do when they are opened again. -/
structure Twins {σ τ : Type} [Backend σ] [Backend τ] (R : σ → τ → Prop) : Prop
    extends Agreement R Task.Storable where
  held {s : σ} {t : τ} (states : R s t) : Backend.held t = Backend.held s
  reopen {s : σ} {t : τ} (states : R s t) :
    ∃ s' t', Backend.reopen s = .ok s' ∧ Backend.reopen t = .ok t' ∧ R s' t'

namespace Twins

variable {σ τ : Type} [Backend σ] [Backend τ] {R : σ → τ → Prop} {s : σ} {t : τ}

theorem run_eq (twins : Twins R) (states : R s t) {action : Action} (storable : action.Storable) :
    (action.run t).1 = (action.run s).1 ∧ R (action.run s).2 (action.run t).2 := by
  cases action with
  | ask request =>
      have both := request.run_agree twins.toAgreement storable s t states
      simp only [Action.run]
      generalize (request.run s : EStateM.Result HierarchyError σ Answer) = left at both ⊢
      generalize (request.run t : EStateM.Result HierarchyError τ Answer) = right at both ⊢
      cases both with
      | ok _ after => exact ⟨rfl, after⟩
      | error after => exact ⟨rfl, after⟩
  | reopen =>
      obtain ⟨s', t', opened, opened', after⟩ := twins.reopen states
      simp only [Action.run, opened, opened', true_and]
      exact after

/-- Whatever is asked, in whatever order, one store cannot be told from the other. -/
theorem trace_eq (twins : Twins R) (states : R s t) {actions : List Action}
    (storable : ∀ action ∈ actions, action.Storable) : Action.trace t actions = Action.trace s actions := by
  induction actions generalizing s t with
  | nil => rfl
  | cons action rest ih =>
      obtain ⟨first, behind⟩ := List.forall_mem_cons.1 storable
      obtain ⟨reply, after⟩ := twins.run_eq states first
      simp only [Action.trace]
      rw [reply, twins.held after, ih after behind]

end Twins

namespace Mirrors

theorem held_eq {s : InMemory} {t : Table} (h : Mirrors s t) :
    t.rows.mapM Table.read = .ok s.records.tasks := by
  obtain ⟨orders, rows⟩ := h.rows
  rw [rows]
  exact mapM_read h.storable orders

theorem twins : Twins Mirrors where
  toAgreement := agreement
  held := held_eq
  reopen states := ⟨_, _, rfl, rfl, states⟩

end Mirrors

theorem OnDisk.twins : Twins OnDisk where
  toAgreement := agreement
  held states := states.mirrors.held_eq
  reopen states := ⟨_, _, rfl, states.reopen_eq, states⟩

/-- The table in memory, and the database on disk wherever it is opened and however often it is opened again, in
whatever orders they print the keys of metadata, give the replies of the store in memory and hold the tasks that it
holds, action by action. -/
theorem backends_agree (tasks : List Task) (distinct : (tasks.map Task.id).Nodup)
    (storable : ∀ task ∈ tasks, task.Storable) (actions : List Action)
    (written : ∀ action ∈ actions, action.Storable) (orders : Nat → KeyOrder) :
    Action.trace (Table.ofList tasks orders) actions = Action.trace (InMemory.ofList tasks) actions ∧
      ∀ disk : Disk, disk.opened.table = .ofList tasks orders → disk.opened.place ≠ none →
        disk.files.openDatabase disk.current disk.path = .ok disk.opened →
          Action.trace disk actions = Action.trace (InMemory.ofList tasks) actions := by
  have mirrors := Mirrors.ofList distinct storable orders
  refine ⟨Mirrors.twins.trace_eq mirrors written, fun disk holds lasting reopens => ?_⟩
  have kept : OnDisk (.ofList tasks) disk :=
    ⟨holds ▸ mirrors, Option.ne_none_iff_exists'.1 lasting, reopens⟩
  exact OnDisk.twins.trace_eq kept written

/-- Two tasks on disk, with what is refused before the database is opened again and what is done after that. -/
theorem backends_agree_when_reopened :
    let oak : Task := { Task.new "oak" "Oak" 1 with
      tags := .ofList ["tall", "old"]
      metadata := Metadata.ofFields? [("rings", .array [.number (.int 12), .null])] }
    let twig : Task := { Task.new "twig" "Twig" 2 with parent := some "oak" }
    let wood : Table := .ofList [oak, twig]
    let disk : Disk := ⟨⟨[(["wood.db"], .database wood)]⟩, [], "wood.db", ⟨wood, some ["wood.db"]⟩⟩
    let actions : List Action :=
      [.ask (.create oak), .ask (.reparent 9 5 "oak" (some "twig")), .reopen, .ask (.get "oak"),
        .ask (.delete {} "oak")]
    Action.trace wood actions = Action.trace disk actions ∧
    Action.trace disk actions =
      [(.refused (.store (.alreadyExists "oak")), .ok [twig, oak]), (.refused (.cycle "oak"), .ok [twig, oak]),
        (.reopened, .ok [twig, oak]), (.answered (.found (some oak)), .ok [twig, oak]),
        (.answered (.deleted ⟨"oak", 2, 2, 2⟩), .ok [])] := by
  intro oak twig wood disk actions
  have first : oak.Storable := by decide
  have second : twig.Storable := Task.storable_of_none rfl
  have storable : ∀ task ∈ [oak, twig], task.Storable :=
    List.forall_mem_cons.2 ⟨first, List.forall_mem_singleton.2 second⟩
  have written : ∀ action ∈ actions, action.Storable := by
    simp [actions, Action.Storable, Request.written, first]
  have memory : Action.trace (InMemory.ofList [oak, twig]) actions =
      [(.refused (.store (.alreadyExists "oak")), .ok [twig, oak]), (.refused (.cycle "oak"), .ok [twig, oak]),
        (.reopened, .ok [twig, oak]), (.answered (.found (some oak)), .ok [twig, oak]),
        (.answered (.deleted ⟨"oak", 2, 2, 2⟩), .ok [])] := by cbv
  obtain ⟨table, onDisk⟩ := backends_agree [oak, twig] (by decide) storable actions written fun _ => .ascending
  have same := onDisk disk rfl (by simp [disk]) (by cbv)
  exact ⟨table.trans same.symm, same.trans memory⟩

end TaskForest
