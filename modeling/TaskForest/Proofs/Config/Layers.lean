import Mathlib
import TaskForest.Proofs.Config.Sources

/-!
The configuration of a run for which no file is named, layer by layer. The base is what the first good candidate
gives, or the standard, and it allows some level. The environment replaces those fields of which its texts can be
read, so no level is left only if the environment says so.
-/

namespace TaskForest

/-- A value that is given takes the place of the old one. -/
structure Replaced {α : Type} (given? : Option α) (old new : α) : Prop where
  given : ∀ a, given? = some a → new = a
  kept : given? = none → new = old

theorem replaced_iff {α : Type} {given? : Option α} {old new : α} :
    Replaced given? old new ↔ new = given?.getD old := by
  cases given? with
  | none =>
      refine ⟨fun h => h.kept rfl, fun same => ⟨fun a absent => ?_, fun _ => same⟩⟩
      cases absent
  | some a =>
      refine ⟨fun h => h.given a rfl, fun same => ⟨fun b here => ?_, fun absent => ?_⟩⟩
      · cases here
        exact same
      · cases absent

namespace Config

variable {c base : Config} {content : Except FileError String} {candidates : List (Except FileError String)}

/-- What the environment is applied to. -/
inductive Base : List (Except FileError String) → Config → Prop
  /-- Every candidate before this one is bad. -/
  | first {skipped rest : List (Except FileError String)} {content : Except FileError String} {c : Config}
      (gives : Gives content c) (bad : ∀ other ∈ skipped, ∀ d, ¬ Gives other d) :
      Base (skipped ++ content :: rest) c
  | standard {candidates : List (Except FileError String)}
      (bad : ∀ other ∈ candidates, ∀ d, ¬ Gives other d) : Base candidates {}

/-- The values of the environment take the places of those of the base, each in its own field. -/
structure Overlaid (lookup : String → Option String) (base c : Config) : Prop where
  databasePath : Replaced (lookup "TASK_CASCADE_DB_PATH") base.databasePath c.databasePath
  maxDepth : Replaced ((lookup "TASK_CASCADE_MAX_DEPTH").bind Decimal.size?)
    base.limits.maxDepth c.limits.maxDepth
  orphanGuard : Replaced ((lookup "TASK_CASCADE_ORPHAN_GUARD").bind Overrides.boolean?)
    base.limits.orphanGuard c.limits.orphanGuard

theorem overlaid_iff {lookup : String → Option String} :
    Overlaid lookup base c ↔ c = (Overrides.ofLookup lookup).apply base := by
  obtain ⟨path, depth, guard⟩ := c
  constructor
  · intro h
    have path := replaced_iff.1 h.databasePath
    have depth := replaced_iff.1 h.maxDepth
    have guard := replaced_iff.1 h.orphanGuard
    simp only at path depth guard
    rw [path, depth, guard]
    rfl
  · intro same
    cases same
    exact ⟨replaced_iff.2 rfl, replaced_iff.2 rfl, replaced_iff.2 rfl⟩

theorem toOption_load : (load content).toOption = some c ↔ Gives content c := by
  rw [← load_eq_ok_iff]
  cases load content <;> simp [Except.toOption]

theorem toOption_load_eq_none : (load content).toOption = none ↔ ∀ c, ¬ Gives content c := by
  rw [Option.eq_none_iff_forall_ne_some]
  exact forall_congr' fun c => not_congr toOption_load

theorem search_base (candidates : List (Except FileError String)) : Base candidates (search candidates) := by
  rw [search]
  cases found : candidates.findSome? fun content => (load content).toOption with
  | none =>
      refine .standard fun other listed => toOption_load_eq_none.1 ?_
      exact List.findSome?_eq_none_iff.1 found other listed
  | some c =>
      obtain ⟨skipped, content, rest, rfl, loaded, bad⟩ := List.findSome?_eq_some_iff.1 found
      exact .first (toOption_load.1 loaded) fun other listed => toOption_load_eq_none.1 (bad other listed)

theorem Base.eq_search (h : Base candidates c) : c = search candidates := by
  rw [search]
  cases h with
  | standard bad =>
      rw [List.findSome?_eq_none_iff.2 fun other listed => toOption_load_eq_none.2 (bad other listed)]
      rfl
  | @first skipped rest content _ gives bad =>
      have found := List.findSome?_eq_some_iff.2
        ⟨skipped, content, rest, rfl, toOption_load.2 gives,
          fun other listed => toOption_load_eq_none.2 (bad other listed)⟩
      rw [found]
      rfl

theorem Base.level (h : Base candidates c) : c.limits.maxDepth ≠ 0 := by
  cases h with
  | first gives _ => exact gives.level
  | standard _ => decide

theorem validate_eq_ok_iff : base.validate = .ok c ↔ c = base ∧ base.limits.maxDepth ≠ 0 := by
  by_cases nothing : base.limits.maxDepth = 0
  · simp [validate_of_noDepth nothing, nothing]
  · simp [validate_of_depth nothing, nothing, eq_comm]

theorem validate_eq_error_iff {e : ConfigError} : base.validate = .error e ↔ base.limits.maxDepth = 0 := by
  by_cases nothing : base.limits.maxDepth = 0
  · simp [validate_of_noDepth nothing, nothing]
  · simp [validate_of_depth nothing, nothing]

/-- The configuration that is found is the base with the environment over it, the base being looked for in the
file here, and then in the one below the home directory, if there is one. It is refused exactly if the environment
gives a level of 0, whatever the files hold, and so it always allows some level. -/
theorem found_config_layers (home : Option String) (read : String → Except FileError String)
    (lookup : String → Option String) :
    let here := read "task-cascade/config.yaml"
    let atHome := home.map fun directory => read (directory ++ "/.task-cascade/config.yaml")
    let found := ofSearch ((searchPaths home).map read) (.ofLookup lookup)
    let refused := ∃ text, lookup "TASK_CASCADE_MAX_DEPTH" = some text ∧ Decimal.size? text = some 0
    ∃ base, (∀ c, Base (here :: atHome.toList) c ↔ c = base) ∧
      (∀ e, found = .error e ↔ refused) ∧
      (∀ c, found = .ok c ↔ ¬ refused ∧ Overlaid lookup base c ∧ 1 ≤ c.limits.maxDepth) := by
  intro here atHome found refused
  let candidates := (searchPaths home).map read
  have named : here :: atHome.toList = candidates := by
    cases home <;> rfl
  rw [named]
  have level := (search_base candidates).level
  have none_left : ((Overrides.ofLookup lookup).apply (search candidates)).limits.maxDepth = 0 ↔ refused :=
    (noDepth_apply_iff level _).trans Option.bind_eq_some_iff
  refine ⟨search candidates, fun c => ⟨Base.eq_search, fun same => same ▸ search_base candidates⟩,
    fun _ => validate_eq_error_iff.trans none_left, fun c => ?_⟩
  rw [overlaid_iff, ← none_left]
  refine validate_eq_ok_iff.trans ?_
  constructor
  · intro got
    obtain ⟨rfl, some_left⟩ := got
    exact ⟨some_left, rfl, Nat.one_le_iff_ne_zero.2 some_left⟩
  · exact fun got => ⟨got.2.1, got.1⟩

/-- The first candidate allows no level, and the second is good; a text that is no truth value is passed over. -/
example :
    ofSearch [.ok "hierarchy:\n  max_depth: 0", .ok "store:\n  db_path: grove.db"] ⟨none, some "7", some "no"⟩ =
      .ok ⟨"grove.db", ⟨7, true⟩⟩ := by
  cbv

end Config
end TaskForest
