import TaskForest.Files.Database
import TaskForest.Proofs.Store.Table

/-!
The database at one place of a tree of files. Only saving writes a database, and it writes to the place that
the database was opened at; logs and directories come where there was nothing.
-/

namespace TaskForest
namespace FileTree

variable {t : FileTree} {place q : Place} {node : FileNode} {table : Table}

/-- Whatever database is found at the place satisfies a condition; there need not be one. -/
def DatabaseAt (P : Table → Prop) (place : Place) (t : FileTree) : Prop :=
  ∀ table, t.find? place = some (.database table) → P table

theorem find?_put_self (h : place ≠ []) : (t.put place node).find? place = some node := by
  simp [find?, put, h]

theorem lookup_filter_ne (h : q ≠ place) (nodes : List (Place × FileNode)) :
    (nodes.filter fun entry => entry.1 ≠ place).lookup q = nodes.lookup q := by
  induction nodes with
  | nil => rfl
  | cons entry rest ih =>
      obtain ⟨p, node⟩ := entry
      by_cases gone : p = place
      · subst gone
        have skipped : (q == p) = false := beq_eq_false_iff_ne.2 h
        rw [List.filter_cons_of_neg (by simp), List.lookup_cons, skipped, ih]
      · rw [List.filter_cons_of_pos (by simpa using gone), List.lookup_cons, List.lookup_cons, ih]

theorem find?_put_of_ne (h : q ≠ place) : (t.put place node).find? q = t.find? q := by
  have skipped : (q == place) = false := beq_eq_false_iff_ne.2 h
  simp only [find?, put, List.lookup_cons, skipped, lookup_filter_ne h]

namespace DatabaseAt

variable {P : Table → Prop}

theorem put_other (h : DatabaseAt P q t) (ne : q ≠ place) : DatabaseAt P q (t.put place node) := by
  intro table found
  rw [find?_put_of_ne ne] at found
  exact h table found

theorem put (h : DatabaseAt P q t) (ok : ∀ table, node = .database table → place = q → P table) :
    DatabaseAt P q (t.put place node) := by
  by_cases same : q = place
  · subst same
    intro table found
    by_cases root : q = []
    · subst root
      cases found
    · rw [find?_put_self root] at found
      exact ok table (Option.some.inj found) rfl
  · exact h.put_other same

end DatabaseAt

variable {P : Table → Prop}

abbrev Spares {α : Type} (P : Table → Prop) (q : Place) (m : FileM α) (t : FileTree) : Prop :=
  Yields m t (fun _ t' => t'.DatabaseAt P q) (fun _ t' => t'.DatabaseAt P q)

theorem openLog_spares (current : Place) (path : String) (h : t.DatabaseAt P q) :
    Spares P q (openLog current path) t := by
  rw [openLog]
  refine .bind (.bind (.ofExcept ?_ (fun _ _ => h)))
  intro got _
  obtain ⟨place, slashed⟩ := got
  refine .check (fun _ => h) (fun _ => ?_)
  cases k : t.find? place with
  | none => exact h.put nofun
  | some node =>
      cases node with
      | directory => exact .throw h
      | text _ | database _ => exact .pure h

theorem makeDirectory_spares (current : Place) (p : FilePath) (h : t.DatabaseAt P q) :
    Spares P q (makeDirectory current p) t := by
  rw [makeDirectory]
  refine .bind (.bind (.ofExcept (fun place _ => ?_) (fun _ _ => h)))
  exact .check (fun _ => h) (fun _ => h.put nofun)

theorem ensureDirectory_spares (current : Place) (p : FilePath) (h : t.DatabaseAt P q) :
    Spares P q (ensureDirectory current p) t := by
  have made := makeDirectory_spares current p h
  rw [Spares, Yields, ensureDirectory]
  cases k : makeDirectory current p t with
  | ok a t' => exact made.of_ok k
  | error e t' =>
      have spared := made.of_error k
      dsimp only
      cases t'.leadsToDirectory current p with
      | true => exact spared
      | false => exact spared

theorem makeDirectories_spares (current : Place) (absolute : Bool) (names : List String)
    (h : t.DatabaseAt P q) : Spares P q (makeDirectories current absolute names) t := by
  induction names generalizing t with
  | nil => exact .pure h
  | cons name above ih =>
      have made := ensureDirectory_spares current ⟨absolute, (name :: above).reverse, false⟩ h
      rw [Spares, Yields, makeDirectories]
      dsimp only
      cases k : ensureDirectory current ⟨absolute, (name :: above).reverse, false⟩ t with
      | ok a t' => exact made.of_ok k
      | error e t' =>
          have spared := made.of_error k
          cases e with
          | notFound =>
              exact Yields.bind ((ih spared).mono
                (fun _ _ h => ensureDirectory_spares current _ h) (fun _ _ h => h))
          | alreadyExists | notADirectory | isADirectory | notText | other _ => exact spared

theorem makeParents_spares (current : Place) (path : String) (h : t.DatabaseAt P q) :
    Spares P q (makeParents current path) t :=
  makeDirectories_spares _ _ _ h

section Opening

variable {current : Place} {path : String} {opened : OpenDatabase}

/-- A database is one that is gone at the end of the run, or it is opened at a place that is no directory, and
holds what is kept there, if anything is. -/
theorem openDatabase_inv (h : t.openDatabase current path = .ok opened) :
    (isTransient path = true ∧ opened = ⟨.empty, none⟩) ∨
      (isTransient path = false ∧ ∃ place slashed, t.locate current path = .ok (place, slashed) ∧
        opened.place = some place ∧ t.find? place ≠ some .directory ∧
        (opened.table = .empty ∨ t.find? place = some (.database opened.table))) := by
  rw [openDatabase] at h
  split at h
  · next transient =>
      cases h
      exact .inl ⟨transient, rfl⟩
  · next lasting =>
      refine .inr ⟨Bool.eq_false_iff.2 lasting, ?_⟩
      split at h
      · cases h
      · next place slashed located =>
          refine ⟨place, slashed, located, ?_⟩
          split at h
          · next nothing =>
              cases h
              exact ⟨rfl, by simp [nothing], .inl rfl⟩
          · cases h
          · next content written =>
              split at h
              · cases h
                exact ⟨rfl, by simp [written], .inl rfl⟩
              · cases h
          · next table kept =>
              cases h
              exact ⟨rfl, by simp [kept], .inr kept⟩

theorem openDatabase_table (h : t.openDatabase current path = .ok opened) :
    opened.table = .empty ∨
      ∃ place, opened.place = some place ∧ t.find? place = some (.database opened.table) := by
  obtain ⟨_, rfl⟩ | ⟨_, place, _, _, there, _, empty | kept⟩ := openDatabase_inv h
  · exact .inl rfl
  · exact .inl empty
  · exact .inr ⟨place, there, kept⟩

/-- No path leads on from a place that is no directory, so it leads where it led whatever is put there. -/
theorem step_put {r : Place} {name : String} (h : t.find? place ≠ some .directory)
    (moved : t.step q name = .ok r) : (t.put place node).step q name = .ok r := by
  cases found : t.find? q with
  | none =>
      rw [step, found] at moved
      cases moved
  | some there =>
      cases there with
      | directory =>
          have other : q ≠ place := fun same => h (same ▸ found)
          rw [step, find?_put_of_ne other]
          exact moved
      | text _ | database _ =>
          rw [step, found] at moved
          cases moved

theorem foldlM_step_put {r : Place} {names : List String} (h : t.find? place ≠ some .directory)
    (moved : names.foldlM t.step q = .ok r) : names.foldlM (t.put place node).step q = .ok r := by
  induction names generalizing q with
  | nil => exact moved
  | cons name rest ih =>
      rw [List.foldlM_cons] at moved ⊢
      cases first : t.step q name with
      | error e =>
          rw [first] at moved
          cases moved
      | ok q' =>
          rw [first] at moved
          rw [step_put h first]
          exact ih moved

theorem resolve_put {p : FilePath} {r : Place} (h : t.find? place ≠ some .directory)
    (resolved : t.resolve current p = .ok r) : (t.put place node).resolve current p = .ok r :=
  foldlM_step_put h resolved

theorem locate_put {found : Place × Bool} (h : t.find? place ≠ some .directory)
    (located : t.locate current path = .ok found) : (t.put place node).locate current path = .ok found := by
  rw [locate] at located ⊢
  split at located
  · cases located
  · next named =>
      rw [if_neg named]
      dsimp only at located ⊢
      cases resolved : t.resolve current (.ofText path) with
      | error e =>
          rw [resolved] at located
          cases located
      | ok place' =>
          rw [resolved] at located
          rw [resolve_put h resolved]
          exact located

/-- A database that was saved where it was opened is found again. -/
theorem openDatabase_saveDatabase (h : t.openDatabase current path = .ok opened)
    (there : opened.place = some place) (table : Table) :
    (t.saveDatabase (some place) table).openDatabase current path = .ok ⟨table, some place⟩ := by
  obtain ⟨_, rfl⟩ | ⟨lasting, place', slashed, located, there', free, _⟩ := openDatabase_inv h
  · cases there
  · obtain rfl : place' = place := Option.some.inj (there'.symm.trans there)
    have named : place' ≠ [] := by
      rintro rfl
      exact free rfl
    rw [saveDatabase, openDatabase, lasting, locate_put free located]
    dsimp only
    rw [find?_put_self named]
    rfl

end Opening

end FileTree
end TaskForest
