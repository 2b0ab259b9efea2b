import TaskForest.Proofs.Json.ReadBack

/-!
Pretty text is read back, as one more layout: every item and every field stands on a line of its own.
-/

namespace TaskForest
namespace Json

/-- A new line for each item, two blanks a level, and one blank behind a colon. -/
def Layout.pretty : Layout where
  lead := lineStart
  gap := [' ']
  lead_blank level c mem := by
    obtain rfl | behind := List.mem_cons.1 mem
    · decide
    · obtain rfl := List.eq_of_mem_replicate behind
      decide
  gap_blank c mem := by
    obtain rfl := List.mem_singleton.1 mem
    decide

mutual

theorem prettyText_eq : ∀ (j : Json) (level : Nat), j.prettyText level = Layout.pretty.text level j
  | null, _ | bool _, _ | number _, _ | string _, _ | array [], _ | object [], _ => rfl
  | array (item :: rest), level => by
    rw [prettyText, prettyItems_eq (item :: rest) (level + 1) (List.cons_ne_nil _ _)]
    simp [Layout.text, Layout.items, Layout.pretty]
  | object ((key, value) :: rest), level => by
    rw [prettyText, prettyFields_eq ((key, value) :: rest) (level + 1) (List.cons_ne_nil _ _)]
    simp [Layout.text, Layout.fields, Layout.pretty]

theorem prettyItems_eq : ∀ (items : List Json) (level : Nat), items ≠ [] →
    prettyItems level items = lineStart level ++ Layout.pretty.items level items
  | [], _, some_left => absurd rfl some_left
  | [item], level, _ => by
    rw [prettyItems, prettyText_eq item level, Layout.items, Layout.itemsBehind, List.append_nil]
  | item :: next :: rest, level, _ => by
    rw [prettyItems, prettyText_eq item level, prettyItems_eq (next :: rest) level (List.cons_ne_nil _ _)]
    · simp [Layout.items, Layout.itemsBehind, Layout.pretty]
    · simp

theorem prettyFields_eq : ∀ (fields : List (String × Json)) (level : Nat), fields ≠ [] →
    prettyFields level fields = lineStart level ++ Layout.pretty.fields level fields
  | [], _, some_left => absurd rfl some_left
  | [(key, value)], level, _ => by
    rw [prettyFields, prettyText_eq value level]
    simp [Layout.fields, Layout.fieldsBehind, Layout.pretty]
  | (key, value) :: next :: rest, level, _ => by
    rw [prettyFields, prettyText_eq value level, prettyFields_eq (next :: rest) level (List.cons_ne_nil _ _)]
    · simp [Layout.fields, Layout.fieldsBehind, Layout.pretty]
    · simp

end

/-- A decoder of pretty text is given the draft of the value. -/
theorem decode_pretty {α : Type} (decoder : Draft → Decoded α) {j : Json} (integral : j.Integral) :
    decode decoder j.pretty = decoder j.draft := by
  rw [pretty, prettyText_eq, decode_text decoder .pretty integral]

end Json
end TaskForest
