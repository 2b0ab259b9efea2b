import TaskForest.Proofs.Config.Sources
import TaskForest.Proofs.Run.World

/-!
What a run is configured to. It reads its configuration and changes nothing by that, and goes on with what it
has read or ends. The same text is a configuration whether it is named or found, and the environment and the
flags replace the same fields of it. But what is found is checked before the flags are looked at, so a flag
cannot make up for an environment that allows no level.
-/

namespace TaskForest
namespace World

variable {o : Options} {w w' : World} {path text : String} {c : Config} {e : RunError}

def overrides (w : World) : Overrides := .ofLookup fun name => w.environment.lookup name

/-- The configuration that a run goes on with, or why it is rejected. -/
def settings (w : World) (o : Options) : Except RunError Config :=
  ((Run.config o : Run.Step (StateM World) Config).run w).1

theorem config_run (o : Options) (w : World) :
    (Run.config o : Run.Step (StateM World) Config).run w = (w.settings o, w) :=
  Prod.ext rfl (config_keeps (I := fun w' => w' = w) o w rfl)

theorem overrides_run (w : World) : (Host.overrides : StateM World Overrides).run w = (w.overrides, w) :=
  rfl

theorem home_run (w : World) :
    (Host.home : StateM World (Option String)).run w = (some (absolutePath w.home), w) :=
  rfl

theorem readText_run (path : String) (w : World) :
    (Host.readText path : StateM World (Except FileError String)).run w =
      (w.files.readText w.current path, w) :=
  rfl

theorem candidates_run (paths : List String) (w : World) :
    (Run.candidates paths : StateM World (List (Except FileError String))).run w =
      (paths.map (w.files.readText w.current), w) := by
  induction paths with
  | nil => rfl
  | cons path rest ih =>
      change ((w.files.readText w.current path ::
          ((Run.candidates rest : StateM World (List (Except FileError String))).run w).1),
        ((Run.candidates rest : StateM World (List (Except FileError String))).run w).2) = _
      rw [ih]
      rfl

/-- Reading goes on with what was read, in the same world. -/
theorem run_read {α β : Type} {m : StateM World α} {a : α} (read : m.run w = (a, w))
    (f : α → Run.Step (StateM World) β) :
    ((liftM m : Run.Step (StateM World) α) >>= f).run w = (f a).run w := by
  have lifted : (liftM m : Run.Step (StateM World) α).run w = (.ok (m.run w).1, (m.run w).2) := rfl
  rw [run_andThen, lifted, read]

theorem settings_named (named : o.config = some path) (w : World) :
    w.settings o =
      ((Config.ofNamed (w.files.readText w.current path) w.overrides).mapError fun _ =>
          .namedConfig path) >>= fun c => (c.withFlags o.database o.maxDepth).mapError .config := by
  have base : (Run.baseConfig o : Run.Step (StateM World) Config).run w =
      ((Config.ofNamed (w.files.readText w.current path) w.overrides).mapError fun _ =>
        .namedConfig path, w) := by
    rw [Run.baseConfig, run_read (overrides_run w), named]
    dsimp only
    rw [run_read (readText_run path w)]
    rfl
  rw [settings, Run.config, run_andThen, base]
  cases (Config.ofNamed (w.files.readText w.current path) w.overrides).mapError fun _ =>
      RunError.namedConfig path <;> rfl

theorem settings_found (sought : o.config = none) (w : World) :
    w.settings o =
      ((Config.ofSearch ((Config.searchPaths (some (absolutePath w.home))).map
          (w.files.readText w.current)) w.overrides).mapError .config) >>= fun c =>
        (c.withFlags o.database o.maxDepth).mapError .config := by
  have base : (Run.baseConfig o : Run.Step (StateM World) Config).run w =
      ((Config.ofSearch ((Config.searchPaths (some (absolutePath w.home))).map
        (w.files.readText w.current)) w.overrides).mapError .config, w) := by
    rw [Run.baseConfig, run_read (overrides_run w), sought]
    dsimp only
    rw [run_read (home_run w), run_read (candidates_run _ w)]
    rfl
  rw [settings, Run.config, run_andThen, base]
  cases (Config.ofSearch ((Config.searchPaths (some (absolutePath w.home))).map
    (w.files.readText w.current)) w.overrides).mapError RunError.config <;> rfl

/-- A run opens its log, and then its settings decide how it goes on. -/
theorem run_of_settings {tokens : List String} {i : Invocation}
    (asked : Invocation.ofTokens tokens = .ok i)
    (logged : (Run.openLog i.options : Run.Step (StateM World) Unit).run w = (.ok (), w')) :
    w.run tokens = match w'.settings i.options with
      | .error e => (.failed e, w')
      | .ok c =>
        let rest := (do
          Run.ofHost .file (Host.makeParents c.databasePath)
          Run.onDatabase c.limits i c.databasePath : Run.Step (StateM World) String).run w'
        (match rest.1 with
          | .ok text => .printed text
          | .error e => .failed e, rest.2) := by
  rw [run_eq asked, Run.carryOut, run_andThen, logged]
  dsimp only
  rw [run_andThen, config_run]
  cases w'.settings i.options <;> rfl

/-- A text that is a configuration, named in one run and found in another one, in the same environment and with
the same other flags. What is found is rejected if the environment allows no level, and apart from that both
runs are configured alike. So they differ exactly if the environment allows no level and a flag does, and then
the flag counts where the text is named. -/
theorem found_settings_eq (o : Options) (loads : Config.load (.ok text) = .ok c)
    (same : w'.environment = w.environment) (named : w.files.readText w.current path = .ok text)
    (found : w'.files.readText w'.current "task-cascade/config.yaml" = .ok text) :
    let given := w.settings { o with config := some path }
    let sought := w'.settings { o with config := none }
    let depth := w.overrides.depth?
    given = ((w.overrides.apply c).withFlags o.database o.maxDepth).mapError .config ∧
    sought = (if depth = some 0 then .error (.config .noDepth) else given) ∧
    (given = sought ↔ ¬ (depth = some 0 ∧ ∃ n, o.maxDepth = some n ∧ 1 ≤ n)) ∧
    ∀ n, o.maxDepth = some n → 1 ≤ n → ∃ d, given = .ok d ∧ d.limits.maxDepth = n := by
  intro given sought depth
  have overrides : w'.overrides = w.overrides := by rw [World.overrides, same, World.overrides]
  have given_eq : given =
      ((w.overrides.apply c).withFlags o.database o.maxDepth).mapError .config := by
    change w.settings _ = _
    rw [settings_named rfl, named, Config.ofNamed_of_load loads]
    rfl
  have sought_eq : sought = if depth = some 0 then .error (.config .noDepth) else given := by
    change w'.settings _ = _
    rw [settings_found rfl, Config.searchPaths, List.map_cons, found, Config.ofSearch_of_load loads,
      overrides, given_eq]
    split <;> rfl
  have counts : ∀ n, o.maxDepth = some n → 1 ≤ n → ∃ d, given = .ok d ∧ d.limits.maxDepth = n := by
    intro n flag some_level
    have some_left : n ≠ 0 := by omega
    rw [given_eq, Config.withFlags_eq, flag, Option.getD_some, if_neg some_left]
    exact ⟨_, rfl, rfl⟩
  refine ⟨given_eq, sought_eq, ?_, counts⟩
  rw [sought_eq]
  split
  · next nothing =>
      simp only [nothing, true_and]
      constructor
      · intro rejected got
        obtain ⟨n, flag, some_level⟩ := got
        obtain ⟨d, settled, _⟩ := counts n flag some_level
        cases settled.symm.trans rejected
      · intro unflagged
        have none_left : o.maxDepth.getD (w.overrides.apply c).limits.maxDepth = 0 := by
          cases flag : o.maxDepth with
          | none => exact (Config.noDepth_apply_iff (Config.depth_of_load loads) _).2 nothing
          | some n =>
              by_contra some_left
              exact unflagged ⟨n, flag, Nat.one_le_iff_ne_zero.2 some_left⟩
        rw [given_eq, Config.withFlags_eq, if_pos none_left]
        rfl
  · next something => simp [something]

/-- The same text under a name and where it is looked for, and an environment that allows no level. -/
def orchard : World :=
  { bare fun _ => "oak" with
    files := ⟨[(["own.yaml"], .text "hierarchy:\n  max_depth: 8\n"), (["task-cascade"], .directory),
      (["task-cascade", "config.yaml"], .text "hierarchy:\n  max_depth: 8\n")]⟩
    environment := [("TASK_CASCADE_MAX_DEPTH", "0")] }

theorem orchard_loads :
    Config.load (.ok "hierarchy:\n  max_depth: 8\n") = .ok { limits := { maxDepth := 8 } } := by cbv

/-- The named text counts with the level of the flag, and the found one is rejected. -/
theorem found_settings_eq_in_orchard :
    let o : Options := ⟨none, none, some 5, false, "2", .text⟩
    orchard.settings { o with config := some "own.yaml" } = .ok { limits := { maxDepth := 5 } } ∧
    orchard.settings o = .error (.config .noDepth) := by
  intro o
  have named : orchard.files.readText orchard.current "own.yaml" =
      .ok "hierarchy:\n  max_depth: 8\n" := rfl
  have same : orchard.environment = orchard.environment := rfl
  obtain ⟨given, sought, _⟩ := found_settings_eq o orchard_loads same named rfl
  exact ⟨given, sought⟩

/-- With the same text in the same environment and under the same flag one run adds a task and the other one
is rejected. -/
theorem orchard_runs_differ :
    orchard.files.readText orchard.current "task-cascade/config.yaml" =
      orchard.files.readText orchard.current "own.yaml" ∧
    Config.load (orchard.files.readText orchard.current "own.yaml") =
      .ok { limits := { maxDepth := 8 } } ∧
    (orchard.run ["add", "Oak", "--config", "own.yaml", "--max-depth", "5"]).1 = .printed "oak\n" ∧
    (orchard.run ["add", "Oak", "--max-depth", "5"]).1 = .failed (.config .noDepth) := by
  have named : orchard.settings ⟨some "own.yaml", none, some 5, false, "2", .text⟩ =
      .ok { limits := { maxDepth := 5 } } := by
    rw [settings_named rfl]
    change (((Config.ofNamed (.ok "hierarchy:\n  max_depth: 8\n") _).mapError _) >>= _) = _
    rw [Config.ofNamed_of_load orchard_loads]
    rfl
  have found : orchard.settings ⟨none, none, some 5, false, "2", .text⟩ =
      .error (.config .noDepth) := by
    rw [settings_found rfl]
    change (((Config.ofSearch (.ok "hierarchy:\n  max_depth: 8\n" :: _) _).mapError _) >>= _) = _
    rw [Config.ofSearch_of_load orchard_loads]
    rfl
  refine ⟨rfl, orchard_loads, ?_, ?_⟩
  · have asked : Invocation.ofTokens ["add", "Oak", "--config", "own.yaml", "--max-depth", "5"] =
        .ok ⟨⟨some "own.yaml", none, some 5, false, "2", .text⟩, .add "Oak" none none 0 [] none⟩ := by rfl
    rw [run_of_settings asked rfl, named]
    rfl
  · have asked : Invocation.ofTokens ["add", "Oak", "--max-depth", "5"] =
        .ok ⟨⟨none, none, some 5, false, "2", .text⟩, .add "Oak" none none 0 [] none⟩ := by rfl
    rw [run_of_settings asked rfl, found]

end World
end TaskForest
