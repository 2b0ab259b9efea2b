import TaskForest.Proofs.Files.Database
import TaskForest.Proofs.Run.Command
import TaskForest.Run.World

/-!
Runs of the program, one after another, in a world of files. Whatever the arguments, the environment and the
configuration are, a run touches a database only by the command that it carries out, and so a database that
starts empty and that nobody else writes to holds a forest after every run.
-/

namespace TaskForest
namespace World

open LinkedStore (pointers)

variable {α β : Type} {I : World → Prop}

theorem run_andThen (m : Run.Step (StateM World) α) (f : α → Run.Step (StateM World) β) (w : World) :
    (m >>= f).run w = match m.run w with
      | (.ok a, w') => (f a).run w'
      | (.error e, w') => (.error e, w') := by
  change (ExceptT.bindCont f (m.run w).1).run (m.run w).2 = _
  cases m.run w with
  | mk result w' =>
      cases result with
      | ok a => rfl
      | error e => rfl

/-- What holds after the first step fails, or after the second one that follows it. -/
theorem after_andThen {J : World → Prop} {m : Run.Step (StateM World) α}
    {f : α → Run.Step (StateM World) β} {w : World}
    (error : ∀ e w', m.run w = (.error e, w') → J w')
    (ok : ∀ a w', m.run w = (.ok a, w') → J ((f a).run w').2) : J ((m >>= f).run w).2 := by
  rw [run_andThen]
  cases ran : m.run w with
  | mk result w' =>
      cases result with
      | ok a => exact ok a w' ran
      | error e => exact error e w' ran

/-- A step of the world that keeps a condition on it. -/
def Keeps (I : World → Prop) (m : StateM World α) : Prop := ∀ w, I w → I (m.run w).2

namespace Keeps

theorem pure (a : α) : Keeps I (pure a : StateM World α) := fun _ h => h

theorem bind {m : StateM World α} {f : α → StateM World β} (first : Keeps I m)
    (next : ∀ a, Keeps I (f a)) : Keeps I (m >>= f) :=
  fun w h => next (m.run w).1 (m.run w).2 (first w h)

theorem read (f : World → α) : Keeps I (do let w ← get; Pure.pure (f w)) := fun _ h => h

theorem of_run {m : StateM World α} {w w' : World} {a : α} (h : Keeps I m) (before : I w)
    (ran : m.run w = (a, w')) : I w' := by
  have after := h w before
  rwa [ran] at after

theorem andThen {m : Run.Step (StateM World) α} {f : α → Run.Step (StateM World) β}
    (first : Keeps I m.run) (next : ∀ a, Keeps I (f a).run) : Keeps I (m >>= f).run :=
  fun _ h => after_andThen (fun _ _ ran => first.of_run h ran)
    (fun a w' ran => next a w' (first.of_run h ran))

theorem lift {m : StateM World α} (h : Keeps I m) :
    Keeps I (liftM m : Run.Step (StateM World) α).run :=
  .bind h fun _ => .pure _

theorem ofHost {ε : Type} {wrap : ε → RunError} {x : StateM World (Except ε α)} (h : Keeps I x) :
    Keeps I (Run.ofHost wrap x).run :=
  fun w k => h w k

end Keeps

section Reading

theorem candidates_keeps (paths : List String) :
    Keeps I (Run.candidates paths : StateM World (List (Except FileError String))) := by
  induction paths with
  | nil => exact .pure _
  | cons path rest ih =>
      rw [Run.candidates]
      exact .bind (.read _) fun content => .bind ih fun others => .pure _

theorem config_keeps (o : Options) : Keeps I (Run.config o : Run.Step (StateM World) Config).run := by
  rw [Run.config]
  refine .andThen ?_ fun base => .ofHost (.pure _)
  rw [Run.baseConfig]
  refine .andThen (.lift (.read _)) fun overrides => ?_
  cases o.config with
  | some path => exact .andThen (.lift (.read _)) fun content => .ofHost (.pure _)
  | none =>
      refine .andThen (.lift (.read _)) fun home => ?_
      exact .andThen (.lift (candidates_keeps _)) fun contents => .ofHost (.pure _)

end Reading

/-- In this place of the world's files there is a forest, if there is a database. -/
def ForestAt (place : Place) (w : World) : Prop :=
  w.files.DatabaseAt (fun table => (pointers table).Grounded) place

section Files

variable {P : Table → Prop} {place : Place}

theorem onFiles_after (step : Place → FileM Unit) (w : World) :
    ((onFiles step).run w).2 = { w with files := leaves (step w.current) w.files } := by
  simp only [onFiles, leaves, StateT.run_bind, StateT.run_get, pure_bind]
  cases step w.current w.files with
  | ok a files => rfl
  | error e files => rfl

theorem onFiles_keeps {step : Place → FileM Unit}
    (spares : ∀ current t, t.DatabaseAt P place → FileTree.Spares P place (step current) t) :
    Keeps (fun w => w.files.DatabaseAt P place) (onFiles step) := by
  intro w h
  rw [onFiles_after]
  exact Yields.leaves (spares w.current w.files h)

theorem openLog_keeps (o : Options) :
    Keeps (fun w => w.files.DatabaseAt P place)
      (Run.openLog o : Run.Step (StateM World) Unit).run := by
  rw [Run.openLog]
  cases LogTarget.ofText o.log with
  | file path => exact .ofHost (onFiles_keeps fun current _ h => FileTree.openLog_spares current path h)
  | off | stdout | stderr => exact .pure _

theorem makeParents_keeps (path : String) :
    Keeps (fun w => w.files.DatabaseAt P place)
      (Host.makeParents path : StateM World (Except FileError Unit)) :=
  onFiles_keeps fun current _ h => FileTree.makeParents_spares current path h

theorem onDatabase_run (limits : Limits) (i : Invocation) (path : String) (w : World) :
    (Run.onDatabase limits i path : Run.Step (StateM World) String).run w =
      match w.files.openDatabase w.current path with
      | .error e => (.error (.database e), w)
      | .ok opened =>
        let command : RunM Table String := i.command.run limits i.options.format w.nextStamp
        (match command opened.table with
          | .ok text _ => .ok text
          | .error e _ => .error e,
        { w with
          instant := w.nextStamp.now
          issued := w.issued + 1
          files := w.files.saveDatabase opened.place (leaves command opened.table) }) := by
  have read : (Run.ofHost .database (Host.openDatabase path) :
      Run.Step (StateM World) OpenDatabase).run w =
        ((w.files.openDatabase w.current path).mapError .database, w) := rfl
  rw [Run.onDatabase, run_andThen, read]
  cases w.files.openDatabase w.current path with
  | error e => rfl
  | ok opened =>
      have stamped : (liftM (Host.stamp : StateM World Stamp) : Run.Step (StateM World) Stamp).run w =
          (.ok w.nextStamp, { w with instant := w.nextStamp.now, issued := w.issued + 1 }) := rfl
      simp only [Except.mapError, run_andThen, leaves]
      rw [stamped]
      dsimp only
      cases i.command.run limits i.options.format w.nextStamp opened.table with
      | ok text table => rfl
      | error e table => rfl

end Files

/-- The limits of a run, if it gets as far as to know them. -/
def limits? (w : World) (tokens : List String) : Option Limits :=
  match Invocation.ofTokens tokens with
  | .error _ => none
  | .ok i =>
    match (do
        Run.openLog i.options
        Run.config i.options : Run.Step (StateM World) Config).run w with
    | (.ok c, _) => some c.limits
    | (.error _, _) => none

/-- What a run may make of the database in a place: it is the one that was there, or it is what one command,
held to the limits of the run, leaves of that one or of a new one. -/
inductive MadeBy (place : Place) (w : World) (tokens : List String) : Table → Prop
  | kept {table : Table} (found : w.files.find? place = some (.database table)) :
      MadeBy place w tokens table
  | command {table : Table} {limits : Limits} (c : Command) (format : OutputFormat) (stamp : Stamp)
      (opened : table.rows = [] ∨ w.files.find? place = some (.database table))
      (held : w.limits? tokens = some limits) :
      MadeBy place w tokens (leaves (c.run limits format stamp) table)

section Runs

variable {place : Place}

theorem onDatabase_makes {w w' : World} {tokens : List String} {limits : Limits}
    (held : w.limits? tokens = some limits) (i : Invocation) (path : String)
    (quiet : w'.files.DatabaseAt (fun table => w.files.find? place = some (.database table)) place) :
    ((Run.onDatabase limits i path : Run.Step (StateM World) String).run w').2.files.DatabaseAt
      (MadeBy place w tokens) place := by
  have kept : w'.files.DatabaseAt (MadeBy place w tokens) place :=
    fun table found => .kept (quiet table found)
  rw [onDatabase_run]
  cases k : w'.files.openDatabase w'.current path with
  | error e => exact kept
  | ok opened =>
      change FileTree.DatabaseAt _ place (w'.files.saveDatabase opened.place _)
      cases at_place : opened.place with
      | none => exact kept
      | some p =>
          refine kept.put ?_
          rintro _ ⟨⟩ rfl
          refine .command i.command _ _ ?_ held
          rcases FileTree.openDatabase_table k with new | ⟨q, same, found⟩
          · exact .inl (by rw [new]; rfl)
          · rw [at_place] at same
            cases same
            exact .inr (quiet opened.table found)

theorem run_eq {tokens : List String} {i : Invocation} (asked : Invocation.ofTokens tokens = .ok i)
    (w : World) :
    w.run tokens =
      (match ((Run.carryOut i : Run.Step (StateM World) String).run w).1 with
        | .ok text => .printed text
        | .error e => .failed e,
      ((Run.carryOut i : Run.Step (StateM World) String).run w).2) := by
  change (runTokens tokens : StateM World Outcome).run w = _
  rw [runTokens, asked]
  change (match ((Run.carryOut i : Run.Step (StateM World) String).run w).1 with
    | .ok text => pure (.printed text)
    | .error e => pure (.failed e) : StateM World Outcome).run
      ((Run.carryOut i : Run.Step (StateM World) String).run w).2 = _
  cases ((Run.carryOut i : Run.Step (StateM World) String).run w).1 <;> rfl

/-- A run fails as its command does, if nothing before the command fails. -/
theorem run_failed {w w₁ w₂ w₃ : World} {tokens : List String} {i : Invocation} {c : Config}
    {e : RunError} {left : Table} (opened : OpenDatabase) (asked : Invocation.ofTokens tokens = .ok i)
    (logged : (Run.openLog i.options : Run.Step (StateM World) Unit).run w = (.ok (), w₁))
    (read : (Run.config i.options : Run.Step (StateM World) Config).run w₁ = (.ok c, w₂))
    (made : (Run.ofHost .file (Host.makeParents c.databasePath) :
      Run.Step (StateM World) Unit).run w₂ = (.ok (), w₃))
    (found : w₃.files.openDatabase w₃.current c.databasePath = .ok opened)
    (failed : i.command.run c.limits i.options.format w₃.nextStamp opened.table = .error e left) :
    (w.run tokens).1 = .failed e := by
  have carried : (Run.carryOut i : Run.Step (StateM World) String).run w =
      (Run.onDatabase c.limits i c.databasePath : Run.Step (StateM World) String).run w₃ := by
    rw [Run.carryOut, run_andThen, logged]
    dsimp only
    rw [run_andThen, read]
    dsimp only
    rw [run_andThen, made]
  rw [run_eq asked, carried, onDatabase_run, found]
  dsimp only
  rw [failed]

/-- A run touches the database in a place by its command alone. -/
theorem run_makes (place : Place) (w : World) (tokens : List String) :
    (w.run tokens).2.files.DatabaseAt (MadeBy place w tokens) place := by
  -- up to the command the database is the one that was there, or there is none
  let Quiet : World → Prop := fun w' =>
    w'.files.DatabaseAt (fun table => w.files.find? place = some (.database table)) place
  have start : Quiet w := fun _ found => found
  have kept : ∀ w', Quiet w' → w'.files.DatabaseAt (MadeBy place w tokens) place :=
    fun _ quiet table found => .kept (quiet table found)
  cases asked : Invocation.ofTokens tokens with
  | error e =>
      change FileTree.DatabaseAt _ place ((runTokens tokens : StateM World Outcome).run w).2.files
      rw [runTokens, asked]
      exact kept w start
  | ok i =>
      rw [run_eq asked, Run.carryOut]
      refine after_andThen (J := fun w' => w'.files.DatabaseAt (MadeBy place w tokens) place)
        (fun e w₁ opened => kept w₁ ((openLog_keeps _).of_run start opened)) ?_
      intro _ w₁ opened
      have quiet₁ : Quiet w₁ := (openLog_keeps _).of_run start opened
      refine after_andThen (fun e w₂ read => kept w₂ ((config_keeps _).of_run quiet₁ read)) ?_
      intro c w₂ read
      have quiet₂ : Quiet w₂ := (config_keeps _).of_run quiet₁ read
      have held : w.limits? tokens = some c.limits := by
        simp only [limits?, asked, run_andThen, opened, read]
      have made : Keeps Quiet (Run.ofHost .file (Host.makeParents c.databasePath) :
          Run.Step (StateM World) Unit).run := .ofHost (makeParents_keeps c.databasePath)
      refine after_andThen (fun e w₃ ran => kept w₃ (made.of_run quiet₂ ran)) ?_
      intro _ w₃ ran
      exact onDatabase_makes held i c.databasePath (made.of_run quiet₂ ran)

end Runs

variable {place : Place}

/-- What may come between two runs as far as the database in a place goes: there is the same one as before,
or none. The environment, the configuration, the clock and all other files may be different. -/
def NoOtherWriter (place : Place) (w w' : World) : Prop :=
  ∀ table, w'.files.find? place = some (.database table) →
    w.files.find? place = some (.database table)

/-- The worlds after finitely many runs with any arguments, of which each ends before the next. -/
inductive AfterRuns (place : Place) (start : World) : World → Prop
  | start : AfterRuns place start start
  | run {w : World} (before : AfterRuns place start w) (tokens : List String) :
      AfterRuns place start (w.run tokens).2
  | between {w w' : World} (before : AfterRuns place start w) (quiet : NoOtherWriter place w w') :
      AfterRuns place start w'

/-- What new databases satisfy and every command keeps holds of the database after all runs. -/
theorem AfterRuns.databaseAt {P : Table → Prop} {place : Place} {start w : World}
    (h : AfterRuns place start w) (empty : ∀ table : Table, table.rows = [] → P table)
    (command : ∀ (c : Command) limits format stamp (table : Table), P table →
      P (leaves (c.run limits format stamp) table))
    (before : start.files.DatabaseAt P place) : w.files.DatabaseAt P place := by
  induction h with
  | start => exact before
  | @run w _ tokens ih =>
      intro table found
      cases run_makes place w tokens table found with
      | kept found => exact ih table found
      | command c format stamp opened _ =>
          exact command c _ format stamp _ (opened.elim (empty _) (ih _))
  | between _ quiet ih => exact fun table found => ih table (quiet table found)

theorem not_stored_of_no_rows {table : Table} (h : table.rows = []) (x : String) :
    ¬ (pointers table).Stored x := by
  intro stored
  have row : x ∈ table.rows.map Row.id := Pointers.listed_stored.1 stored
  rw [h] at row
  cases row

theorem grounded_of_no_rows {table : Table} (h : table.rows = []) : (pointers table).Grounded :=
  fun x stored => absurd stored (not_stored_of_no_rows h x)

theorem AfterRuns.forestAt {start w : World} (h : AfterRuns place start w)
    (forest : ForestAt place start) : ForestAt place w :=
  h.databaseAt (fun _ => grounded_of_no_rows)
    (fun c limits format stamp table forest =>
      (Command.leaves_evolves limits format stamp c table).grounded forest) forest

/-- In a database that starts empty, after every run, each stored parent is stored itself, and the way up from
every stored task ends at a task without parent. -/
theorem stored_parents_form_forest (place : Place) (start w : World)
    (starts_empty : ∀ table, start.files.find? place = some (.database table) → table.rows = [])
    (runs : AfterRuns place start w) (table : Table)
    (found : w.files.find? place = some (.database table)) :
    (∀ x p, table.parents.Step x p → table.parents.Stored p) ∧
    ∀ x, table.parents.Stored x → ∃ y, table.parents.Reaches x y ∧ table.parents.entry y = some none := by
  have first : ForestAt place start := fun t ht => grounded_of_no_rows (starts_empty t ht)
  have forest : table.parents.Grounded := runs.forestAt first table found
  exact ⟨fun x p step => forest.parent_stored step, forest⟩

def bare (idOf : Nat → String) : World where
  files := ⟨[]⟩
  current := []
  home := []
  instant := 0
  idOf := idOf

/-- A task and one below it, each added by a run of its own. -/
theorem stored_parents_form_forest_of_two :
    ∃ table,
      (((bare fun n => if n = 0 then "oak" else "twig").run ["add", "Oak", "-d", "wood.db"]).2.run
        ["add", "Twig", "-d", "wood.db", "-p", "oak"]).2.files.find? ["wood.db"] =
          some (.database table) ∧
      table.parents.Step "twig" "oak" ∧ table.parents.Stored "oak" := by
  have found :
      (((bare fun n => if n = 0 then "oak" else "twig").run ["add", "Oak", "-d", "wood.db"]).2.run
        ["add", "Twig", "-d", "wood.db", "-p", "oak"]).2.files.find? ["wood.db"] =
          some (.database ((Table.empty.add (.ofTask .ascending (.new "oak" "Oak" 1))).add
            (.ofTask .ascending { Task.new "twig" "Twig" 2 with parent := some "oak" }))) := by rfl
  refine ⟨_, found, rfl, ?_⟩
  refine (stored_parents_form_forest ["wood.db"] (bare _) _ ?_ (.run (.run .start _) _) _ found).1
    "twig" "oak" rfl
  intro table first
  cases first

end World
end TaskForest
