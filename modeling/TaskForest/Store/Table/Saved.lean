import TaskForest.Store.Table

/-!
Tables as texts that outlive a run: the tasks of the rows as one JSON array.
-/

namespace TaskForest
namespace Table

/-- The tasks in the order in which they were made. Damage of a row is a failure of the store. -/
def toText (t : Table) : Except StoreError String := do
  let tasks ← t.rows.reverse.mapM read
  pure (Json.array (tasks.map Task.toJson)).pretty

/-- Of tasks with the same id the first one counts. -/
def ofText (text : String) : Json.Decoded Table :=
  (ofList ·) <$> Json.decode (Json.Draft.asList Task.ofDraft Json.Draft.maxNesting) text

end Table
end TaskForest
