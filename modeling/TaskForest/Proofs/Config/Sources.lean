import TaskForest.Config.Sources

/-!
The layers of a configuration. A file that loads allows some level, so behind the environment no level is left
only if the environment says so. What is found is checked at that point; what is named is checked once, behind
the flags.
-/

namespace TaskForest

/-- The greatest level that the environment gives, as far as its text can be read. -/
def Overrides.depth? (o : Overrides) : Option Nat := o.maxDepth.bind Decimal.size?

namespace Config

variable {c : Config} {text : String} {content : Except FileError String}

theorem validate_of_noDepth (h : c.limits.maxDepth = 0) : c.validate = .error .noDepth :=
  if_pos h

theorem validate_of_depth (h : c.limits.maxDepth ≠ 0) : c.validate = .ok c :=
  if_neg h

theorem load_of_none (h : ofYaml? text = none) : load (.ok text) = .error .malformed := by
  change (pure text >>= _) = _
  rw [pure_bind, h]
  rfl

theorem load_of_some (h : ofYaml? text = some c) : load (.ok text) = c.validate.mapError .invalid := by
  change (pure text >>= _) = _
  rw [pure_bind, h]

/-- The content can be read, has the form of a configuration and allows some level. -/
structure Gives (content : Except FileError String) (c : Config) : Prop where
  parsed : ∃ text, content = .ok text ∧ ofYaml? text = some c
  level : c.limits.maxDepth ≠ 0

theorem load_eq_ok_iff : load content = .ok c ↔ Gives content c := by
  constructor
  · intro loaded
    cases content with
    | error e => cases loaded
    | ok text =>
        cases parsed : ofYaml? text with
        | none =>
            rw [load_of_none parsed] at loaded
            cases loaded
        | some d =>
            rw [load_of_some parsed] at loaded
            by_cases none_left : d.limits.maxDepth = 0
            · rw [validate_of_noDepth none_left] at loaded
              cases loaded
            · rw [validate_of_depth none_left] at loaded
              cases loaded
              exact ⟨⟨text, rfl, parsed⟩, none_left⟩
  · intro gives
    obtain ⟨⟨text, rfl, parsed⟩, level⟩ := gives
    rw [load_of_some parsed, validate_of_depth level]
    rfl

theorem depth_of_load (h : load content = .ok c) : c.limits.maxDepth ≠ 0 :=
  (load_eq_ok_iff.1 h).level

theorem search_of_load (h : load content = .ok c) (others : List (Except FileError String)) :
    search (content :: others) = c := by
  simp only [search, List.findSome?_cons, h, Except.toOption, Option.getD_some]

theorem ofNamed_of_load (h : load content = .ok c) (o : Overrides) :
    ofNamed content o = .ok (o.apply c) := by
  rw [ofNamed, h]
  rfl

theorem noDepth_apply_iff (h : c.limits.maxDepth ≠ 0) (o : Overrides) :
    (o.apply c).limits.maxDepth = 0 ↔ o.depth? = some 0 := by
  change o.depth?.getD c.limits.maxDepth = 0 ↔ _
  cases o.depth? with
  | none => simpa using h
  | some depth => simp

theorem ofSearch_of_load (h : load content = .ok c) (others : List (Except FileError String))
    (o : Overrides) :
    ofSearch (content :: others) o = if o.depth? = some 0 then .error .noDepth else .ok (o.apply c) := by
  rw [ofSearch, search_of_load h]
  split
  · next nothing => exact validate_of_noDepth ((noDepth_apply_iff (depth_of_load h) o).2 nothing)
  · next something => exact validate_of_depth (mt (noDepth_apply_iff (depth_of_load h) o).1 something)

/-- The flags leave no level if they say so, or if they say nothing of it and there was none before. -/
theorem withFlags_eq (database : Option String) (depth : Option Nat) (c : Config) :
    c.withFlags database depth =
      if depth.getD c.limits.maxDepth = 0 then .error .noDepth
      else .ok ⟨database.getD c.databasePath, depth.getD c.limits.maxDepth, c.limits.orphanGuard⟩ := rfl

end Config
end TaskForest
