import TaskForest.Store.Table

/-!
Single cells written past the store. Columns that every row has to fill refuse the absent value, and the id
of another row is refused as an id.
-/

namespace TaskForest
namespace Table

/-- Writes a cell of the row of an id; the number of rows changed, 1 or 0. -/
def poke (id : String) (column : Column) (d : Datum) : StoreM Table Nat := do
  let t ← MonadState.get
  match t.find? id with
  | none => pure 0
  | some old =>
    match old.setCell? column d with
    | none => throw (emptied column)
    | some row =>
      if row.id ≠ id ∧ (t.find? row.id).isSome then
        throw (.backend "UNIQUE constraint failed: tasks.id")
      set (t.replace id row)
      pure 1

end Table
end TaskForest
