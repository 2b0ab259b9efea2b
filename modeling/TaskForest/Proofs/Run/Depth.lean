import TaskForest.Proofs.Hierarchy.Depth
import TaskForest.Proofs.Run.World

/-!
The bound on the levels over runs of the program. A move is checked against the bound, and a delete puts nothing
further down; of a new task only its parent is looked up. So a database may come to hold a task below the
greatest level, and then the tree of the root above it can neither be shown nor be deleted within the bound.
Nothing else brings this about.
-/

namespace TaskForest

open LinkedStore (pointers)

namespace Command

/-- The commands that walk down from an id: the tree below it and its deletion, also as a preview. -/
def Descends (id : String) : Command → Prop
  | tree root => root = id
  | delete root _ => root = id
  | add _ _ _ _ _ _ | children _ | roots | move _ _ => False

theorem liftRun_error {σ α : Type} {s s' : σ} {e : HierarchyError} {m : HierarchyM σ α}
    (h : m s = .error e s') :
    (liftM m : RunM σ α) s = .error (.hierarchy e) s' := by
  change m.adaptExcept RunError.hierarchy s = _
  simp only [EStateM.adaptExcept, h]

section Store

variable {σ : Type} [TaskStore σ] {s s' : σ} {id : String} {e : HierarchyError} {limits : Limits}
  {c : Command}

theorem run_of_collect_error (descends : c.Descends id) {task : Task}
    (found : TaskStore.get id s = .ok (some task) s)
    (failed : collect limits.maxDepth id s = .error e s') (format : OutputFormat) (stamp : Stamp) :
    c.run limits format stamp s = .error (.hierarchy e) s' := by
  cases c with
  | tree root =>
      obtain rfl : root = id := descends
      exact bind_of_error (liftRun_error (loadTree_of_collect_error found failed))
  | delete root dryRun =>
      obtain rfl : root = id := descends
      have previewed : preview limits root s = .error e s' := failed
      cases dryRun with
      | true => exact bind_of_error (liftRun_error previewed)
      | false => exact bind_of_error (liftRun_error (delete_of_preview_error previewed))
  | add _ _ _ _ _ _ | children _ | roots | move _ _ => exact descends.elim

/-- A command that walks down fails by a cycle or a level only if the walk is refused so. -/
theorem run_refuses [LinkedStore σ] (descends : c.Descends id) (limits : Limits) (format : OutputFormat)
    (stamp : Stamp) (s : σ) :
    Yields (c.run limits format stamp) s (fun _ _ => True)
      (fun error _ => ∀ e, error = .hierarchy e → e.isStructural = true →
        (pointers s).Refuses id limits.maxDepth e) := by
  cases c with
  | tree root =>
      obtain rfl : root = id := descends
      refine .bind (.liftRun ((loadTree_refuses limits.maxDepth root s).mono ?_ ?_))
      · intro loaded s' _
        cases loaded with
        | none => exact .throw nofun
        | some tree => exact .pure trivial
      · rintro _ _ ⟨_, refuses⟩ e ⟨⟩ _
        exact refuses
  | delete root dryRun =>
      obtain rfl : root = id := descends
      have walk := collect_yields limits.maxDepth root s
      cases dryRun with
      | true =>
          refine .bind (.liftRun (walk.mono (fun _ _ _ => .pure trivial) ?_))
          rintro _ _ ⟨_, refuses⟩ e ⟨⟩ _
          exact refuses
      | false =>
          refine .bind (.liftRun (.intro (fun _ _ _ => .pure trivial) ?_))
          rintro _ _ failed e ⟨⟩ structural
          exact (walk.of_error (preview_error_of_structural failed structural)).2
  | add _ _ _ _ _ _ | children _ | roots | move _ _ => exact descends.elim

end Store
end Command

namespace World

variable {place : Place} {m : Nat} {start w : World} {table : Table}

/-- The run is held to level `m`, and the ids that it adds to the database in the place are not below that. -/
structure RunsShallow (place : Place) (m : Nat) (w : World) (tokens : List String) : Prop where
  limit : ∀ limits, w.limits? tokens = some limits → limits.maxDepth = m
  low : ∀ table table', w.files.find? place = some (.database table) →
    (w.run tokens).2.files.find? place = some (.database table') →
      ∀ x, table'.parents.Stored x → ¬ table.parents.Stored x → table'.parents.level x ≤ m

/-- The worlds after finitely many runs of which none adds a task below level `m`. -/
inductive AfterShallowRuns (place : Place) (m : Nat) (start : World) : World → Prop
  | start : AfterShallowRuns place m start start
  | run {w : World} (before : AfterShallowRuns place m start w) (tokens : List String)
      (shallow : RunsShallow place m w tokens) : AfterShallowRuns place m start (w.run tokens).2
  | between {w w' : World} (before : AfterShallowRuns place m start w)
      (quiet : NoOtherWriter place w w') : AfterShallowRuns place m start w'

theorem AfterShallowRuns.afterRuns (h : AfterShallowRuns place m start w) : AfterRuns place start w := by
  induction h with
  | start => exact .start
  | run _ tokens _ ih => exact .run ih tokens
  | between _ quiet ih => exact .between ih quiet

theorem AfterShallowRuns.within (h : AfterShallowRuns place m start w) (some_level : 1 ≤ m)
    (starts_empty : ∀ table, start.files.find? place = some (.database table) → table.rows = []) :
    w.files.DatabaseAt (fun table => table.parents.Within m) place := by
  induction h with
  | start =>
      exact fun table found x stored => absurd stored (not_stored_of_no_rows (starts_empty table found) x)
  | @run w before tokens shallow ih =>
      intro table' found'
      cases run_makes place w tokens table' found' with
      | kept found => exact ih table' found
      | @command table limits c format stamp opened held =>
          have evolves := Command.leaves_evolves limits format stamp c table
          rw [shallow.limit limits held] at evolves
          rcases opened with new | found
          · exact evolves.within_of_empty (not_stored_of_no_rows new) some_level
          · have forest : table.parents.Grounded :=
              before.afterRuns.forestAt (fun t ht => grounded_of_no_rows (starts_empty t ht)) table found
            exact evolves.within forest (ih table found)
              (shallow.low table _ found found')
  | between _ quiet ih => exact fun table found => ih table (quiet table found)

/-- A database that starts empty holds a forest after any runs. The tree of a stored id is refused for its
structure only if some task is below the bound, and if there is one, a tree is refused. As long as no run adds
a task below the bound, whatever is moved and deleted in between, there is none. -/
theorem trees_refused_iff_too_deep (place : Place) (start : World)
    (starts_empty : ∀ table, start.files.find? place = some (.database table) → table.rows = []) :
    (∀ w table, AfterRuns place start w → w.files.find? place = some (.database table) →
      ∀ limits : Limits,
        (∀ id c, table.parents.Stored id → Command.Descends id c →
          ∀ format stamp e table', c.run limits format stamp table = .error (.hierarchy e) table' →
            e.isStructural = true → (∃ x, e = .tooDeep x) ∧ ¬ table.parents.Within limits.maxDepth) ∧
        (¬ table.parents.Within limits.maxDepth →
          ∃ id x, table.parents.Stored id ∧ ∀ c, Command.Descends id c → ∀ format stamp,
            c.run limits format stamp table = .error (.hierarchy (.tooDeep x)) table)) ∧
    ∀ m w table, 1 ≤ m → AfterShallowRuns place m start w →
      w.files.find? place = some (.database table) → table.parents.Within m := by
  refine ⟨fun w table runs found limits => ?_, ?_⟩
  · have forest : table.parents.Grounded :=
      runs.forestAt (fun t ht => grounded_of_no_rows (starts_empty t ht)) table found
    have readable : table.Readable :=
      runs.databaseAt (fun _ => Table.readable_of_no_rows)
        (fun c limits format stamp _ h =>
          Yields.leaves (Command.run_governs Table.readable_governs limits format stamp c h))
        (fun t ht => Table.readable_of_no_rows (starts_empty t ht)) table found
    refine ⟨fun id c stored descends format stamp e table' failed structural => ?_, fun deep => ?_⟩
    · have refuses := (Command.run_refuses descends limits format stamp table).of_error failed e rfl
      exact forest.tooDeep_of_refuses stored (refuses structural) structural
    · obtain ⟨id, x, stored, failed⟩ := readable.exists_tooDeep forest deep
      obtain ⟨task, held⟩ := readable.get_stored stored
      exact ⟨id, x, stored, fun c descends format stamp =>
        Command.run_of_collect_error descends held failed format stamp⟩
  · intro m w table some_level runs found
    exact runs.within some_level starts_empty table found

/-- One task, added by a run that is held to level 1. -/
def oakAlone : World :=
  ((bare fun n => if n = 0 then "oak" else "twig").run
    ["add", "Oak", "-d", "wood.db", "--max-depth", "1"]).2

/-- The same and a task below it, added by a run that is held to level 1 as well. -/
def oakWithTwig : World :=
  (oakAlone.run ["add", "Twig", "-d", "wood.db", "-p", "oak", "--max-depth", "1"]).2

def oakTable : Table := Table.empty.add (.ofTask .ascending (.new "oak" "Oak" 1))

def twigTable : Table := oakTable.add (.ofTask .ascending { Task.new "twig" "Twig" 2 with parent := some "oak" })

theorem oakAlone_files : oakAlone.files.find? ["wood.db"] = some (.database oakTable) := by rfl

theorem oakWithTwig_files : oakWithTwig.files.find? ["wood.db"] = some (.database twigTable) := by rfl

theorem twigTable_not_within : ¬ twigTable.parents.Within 1 := by
  intro within
  have stored : ∀ id ∈ ["twig", "oak"], twigTable.parents.Stored id := fun id h =>
    Pointers.listed_stored.2 h
  have line : twigTable.parents.Lineage (twigTable.parents.parent "twig") ["oak"] :=
    .step (stored "oak" (by decide)) .root
  have low := within "twig" (stored "twig" (by decide))
  rw [line.level_eq] at low
  exact absurd low (by decide)

/-- The first run adds nothing below level 1, and the second one does. -/
theorem trees_refused_of_twig :
    oakTable.parents.Within 1 ∧ ¬ twigTable.parents.Within 1 ∧
    ∃ id x, twigTable.parents.Stored id ∧ ∀ format stamp,
      (Command.delete id false).run { maxDepth := 1 } format stamp twigTable =
        .error (.hierarchy (.tooDeep x)) twigTable := by
  have starts_empty : ∀ table : Table,
      (bare fun n => if n = 0 then "oak" else "twig").files.find? ["wood.db"] = some (.database table) →
        table.rows = [] := nofun
  obtain ⟨refused, shallow⟩ := trees_refused_iff_too_deep ["wood.db"] _ starts_empty
  refine ⟨shallow 1 oakAlone oakTable (Nat.le_refl 1) (.run .start _ ⟨?_, nofun⟩) oakAlone_files,
    twigTable_not_within, ?_⟩
  · rintro limits held
    have known : (bare fun n => if n = 0 then "oak" else "twig").limits?
        ["add", "Oak", "-d", "wood.db", "--max-depth", "1"] = some { maxDepth := 1 } := by rfl
    cases known.symm.trans held
    rfl
  · obtain ⟨id, x, stored, failed⟩ :=
      (refused oakWithTwig twigTable (.run (.run .start _) _) oakWithTwig_files { maxDepth := 1 }).2
        twigTable_not_within
    exact ⟨id, x, stored, failed (.delete id false) rfl⟩

/-- Two runs that succeed, each held to level 1, and then no run held to level 1 shows the tree or deletes
it. -/
theorem added_twig_is_too_deep :
    (oakWithTwig.run ["tree", "oak", "-d", "wood.db", "--max-depth", "1"]).1 =
      .failed (.hierarchy (.tooDeep "twig")) ∧
    (oakWithTwig.run ["delete", "oak", "-d", "wood.db", "--max-depth", "1"]).1 =
      .failed (.hierarchy (.tooDeep "twig")) := by
  have shown : ∀ stamp, (Command.tree "oak").run { maxDepth := 1 } .text stamp twigTable =
      .error (.hierarchy (.tooDeep "twig")) twigTable := by
    intro stamp
    cbv
  have deleted : ∀ stamp, (Command.delete "oak" false).run { maxDepth := 1 } .text stamp twigTable =
      .error (.hierarchy (.tooDeep "twig")) twigTable := by
    intro stamp
    cbv
  have world : oakWithTwig =
      { bare (fun n => if n = 0 then "oak" else "twig") with
        files := ⟨[(["wood.db"], .database twigTable)]⟩
        instant := 2
        issued := 2 } := by rfl
  rw [world]
  exact ⟨run_failed ⟨twigTable, some ["wood.db"]⟩ rfl rfl rfl rfl rfl (shown _),
    run_failed ⟨twigTable, some ["wood.db"]⟩ rfl rfl rfl rfl rfl (deleted _)⟩

end World
end TaskForest
