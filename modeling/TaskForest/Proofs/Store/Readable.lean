import TaskForest.Proofs.Store.Keeping

/-!
Rows that were written from tasks. Such a row can be read, so a table that holds no others never fails a read
or a query. Every operation keeps this, because it writes rows from tasks only.
-/

namespace TaskForest

namespace Table

variable {t : Table}

def Readable (t : Table) : Prop := ∀ r ∈ t.rows, ∃ task, read r = .ok task

theorem exists_read_ofTask (order : KeyOrder) (task : Task) : ∃ found, read (.ofTask order task) = .ok found :=
  exists_read_iff.2 (Row.legible_ofTask order task)

theorem readable_of_no_rows (h : t.rows = []) : t.Readable := by
  intro r hr
  rw [h] at hr
  cases hr

theorem Readable.add (h : t.Readable) (order : KeyOrder) (task : Task) :
    (t.add (.ofTask order task)).Readable := by
  rw [Table.add]
  split
  · exact h
  · intro r hr
    rcases List.mem_cons.1 hr with rfl | hr
    · exact exists_read_ofTask order task
    · exact h r hr

theorem Readable.replace (h : t.Readable) (id : String) (order : KeyOrder) (task : Task) :
    (t.replace id (.ofTask order task)).Readable := by
  rw [Table.replace]
  split
  · intro r hr
    obtain ⟨old, stored, same⟩ := List.mem_map.1 hr
    split at same
    · exact same ▸ exists_read_ofTask order task
    · exact same ▸ h old stored
  · exact h

theorem readable_governs : Governs Readable Readable :=
  governs (fun _ h => h) (fun t order task h => Readable.add (t := t.advance) h order task)
    (fun t id order task h => Readable.replace (t := t.advance) h id order task)
    (fun _ _ h fewer _ r hr => h r (fewer hr))

theorem Readable.not_damaged (h : t.Readable) {e : StoreError} :
    ¬ ∃ row ∈ t.rows, read row = .error e := by
  intro got
  obtain ⟨row, stored, damaged⟩ := got
  exact not_exists_read damaged (h row stored)

end Table
end TaskForest
