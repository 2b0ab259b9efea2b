import TaskForest.Json.Decode
import TaskForest.Proofs.Json.Fields
import TaskForest.Proofs.Json.Numeral
import TaskForest.Proofs.Json.Quoted

/-!
Written values are read back. A layout says which blanks are written; whichever they are, a value whose numbers
are integers of 64 bits is read as its draft, and the draft gives the value again, with the keys of its objects in
order, if it is not nested deeper than the reader allows.
-/

namespace TaskForest
namespace Json

mutual

/-- What a text of the value is read as. -/
def draft : Json → Draft
  | null => .null
  | bool b => .bool b
  | number n => .number n
  | string s => .string s
  | array items => .array (drafts items) .closed
  | object fields => .object (fieldDrafts fields) .closed

def drafts : List Json → List Draft
  | [] => []
  | item :: rest => item.draft :: drafts rest

def fieldDrafts : List (String × Json) → List (Option String × Draft)
  | [] => []
  | (key, value) :: rest => (some key, value.draft) :: fieldDrafts rest

end

mutual

/-- All numbers in the value are integers of 64 bits. -/
def Integral : Json → Prop
  | null | bool _ | string _ => True
  | number (.int n) => FitsWord n
  | number (.float _) => False
  | array items => IntegralItems items
  | object fields => IntegralFields fields

def IntegralItems : List Json → Prop
  | [] => True
  | item :: rest => item.Integral ∧ IntegralItems rest

def IntegralFields : List (String × Json) → Prop
  | [] => True
  | (_, value) :: rest => value.Integral ∧ IntegralFields rest

end

mutual

def decidableIntegral : (j : Json) → Decidable j.Integral
  | null | bool _ | string _ => isTrue trivial
  | number (.int n) => inferInstanceAs (Decidable (FitsWord n))
  | number (.float _) => isFalse id
  | array items => decidableItems items
  | object fields => decidableFields fields

def decidableItems : (items : List Json) → Decidable (IntegralItems items)
  | [] => isTrue trivial
  | item :: rest =>
    have _first := decidableIntegral item
    have _others := decidableItems rest
    inferInstanceAs (Decidable (_ ∧ _))

def decidableFields : (fields : List (String × Json)) → Decidable (IntegralFields fields)
  | [] => isTrue trivial
  | (_, value) :: rest =>
    have _first := decidableIntegral value
    have _others := decidableFields rest
    inferInstanceAs (Decidable (_ ∧ _))

end

instance (j : Json) : Decidable j.Integral := decidableIntegral j

mutual

/-- The greatest number of arrays and objects that stand inside one another. -/
def depth : Json → Nat
  | null | bool _ | number _ | string _ => 0
  | array items => 1 + depths items
  | object fields => 1 + fieldDepths fields

def depths : List Json → Nat
  | [] => 0
  | item :: rest => max item.depth (depths rest)

def fieldDepths : List (String × Json) → Nat
  | [] => 0
  | (_, value) :: rest => max value.depth (fieldDepths rest)

end

/-- The blanks that are written: in front of an item, a field or a closing bracket at a level, and behind a
colon. -/
structure Layout where
  lead : Nat → List Char
  gap : List Char
  lead_blank : ∀ level, ∀ c ∈ lead level, Draft.isBlank c = true
  gap_blank : ∀ c ∈ gap, Draft.isBlank c = true

namespace Layout

mutual

def text (L : Layout) (level : Nat) : Json → List Char
  | null => "null".toList
  | bool b => boolText b
  | number n => n.text
  | string s => quote s
  | array [] => ['[', ']']
  | array (item :: rest) =>
    '[' :: (L.lead (level + 1) ++ L.text (level + 1) item ++ L.itemsBehind (level + 1) rest
      ++ L.lead level ++ [']'])
  | object [] => ['{', '}']
  | object ((key, value) :: rest) =>
    '{' :: (L.lead (level + 1) ++ quote key ++ ':' :: L.gap ++ L.text (level + 1) value
      ++ L.fieldsBehind (level + 1) rest ++ L.lead level ++ ['}'])

/-- The items behind the first one. -/
def itemsBehind (L : Layout) (level : Nat) : List Json → List Char
  | [] => []
  | item :: rest => ',' :: (L.lead level ++ L.text level item ++ L.itemsBehind level rest)

def fieldsBehind (L : Layout) (level : Nat) : List (String × Json) → List Char
  | [] => []
  | (key, value) :: rest =>
    ',' :: (L.lead level ++ quote key ++ ':' :: L.gap ++ L.text level value
      ++ L.fieldsBehind level rest)

end

/-- Items from the first one on. -/
def items (L : Layout) (level : Nat) : List Json → List Char
  | [] => []
  | item :: rest => L.text level item ++ L.itemsBehind level rest

def fields (L : Layout) (level : Nat) : List (String × Json) → List Char
  | [] => []
  | (key, value) :: rest =>
    quote key ++ ':' :: L.gap ++ L.text level value ++ L.fieldsBehind level rest

/-- No blanks at all. -/
def compact : Layout := ⟨fun _ => [], [], by simp, by simp⟩

end Layout

mutual

theorem compactText_eq : ∀ (j : Json) (level : Nat), j.compactText = Layout.compact.text level j
  | null, _ | bool _, _ | number _, _ | string _, _ => rfl
  | array items, level => by
    rw [compactText, compactItems_eq items (level + 1)]
    cases items <;> simp [Layout.text, Layout.items, Layout.compact]
  | object fields, level => by
    rw [compactText, compactFields_eq fields (level + 1)]
    rcases fields with - | ⟨⟨key, value⟩, rest⟩ <;> simp [Layout.text, Layout.fields, Layout.compact]

theorem compactItems_eq : ∀ (items : List Json) (level : Nat),
    compactItems items = Layout.compact.items level items
  | [], _ => rfl
  | [item], level => by
    rw [compactItems, compactText_eq item level, Layout.items, Layout.itemsBehind, List.append_nil]
  | item :: next :: rest, level => by
    rw [compactItems, compactText_eq item level, compactItems_eq (next :: rest) level]
    · simp [Layout.items, Layout.itemsBehind, Layout.compact]
    · simp

theorem compactFields_eq : ∀ (fields : List (String × Json)) (level : Nat),
    compactFields fields = Layout.compact.fields level fields
  | [], _ => rfl
  | [(key, value)], level => by
    rw [compactFields, compactText_eq value level]
    simp [Layout.fields, Layout.fieldsBehind, Layout.compact]
  | (key, value) :: next :: rest, level => by
    rw [compactFields, compactText_eq value level, compactFields_eq (next :: rest) level]
    · simp [Layout.fields, Layout.fieldsBehind, Layout.compact]
    · simp

end

section Reading

open Draft

variable {L : Layout} {level : Nat} {cs rest : List Char} {c : Char}

theorem skipBlank_append {blanks : List Char} (blank : ∀ c ∈ blanks, isBlank c = true) (cs : List Char) :
    skipBlank (blanks ++ cs) = skipBlank cs :=
  List.dropWhile_append_of_pos blank

theorem skipBlank_cons (printed : isBlank c = false) (cs : List Char) : skipBlank (c :: cs) = c :: cs := by
  rw [skipBlank, List.dropWhile_cons_of_neg]
  simp [printed]

/-- A character that a value begins with. -/
structure Begins (c : Char) : Prop where
  printed : isBlank c = false
  item : c ≠ ']'

theorem integerText_eq_cons (n : Int) : ∃ c cs, integerText n = c :: cs ∧ (c = '-' ∨ c.isDigit = true) := by
  cases n with
  | negSucc n => exact ⟨'-', _, rfl, .inl rfl⟩
  | ofNat n =>
      cases digits : Nat.toDigits 10 n with
      | nil => exact absurd digits Nat.toDigits_ne_nil
      | cons d ds =>
          refine ⟨d, ds, digits, .inr (Numeral.isDigit_of_mem_toDigits (n := n) ?_)⟩
          rw [digits]
          exact List.mem_cons_self

/-- What begins a number begins nothing else. -/
theorem begins_of_numeric (h : c = '-' ∨ c.isDigit = true) :
    Begins c ∧ ∀ other ∈ ['"', '[', '{', 'n', 't', 'f'], c ≠ other := by
  have apart : ∀ other : Char, other ≠ '-' → other.isDigit = false → c ≠ other := by
    rintro other minus digit rfl
    rcases h with rfl | h
    · exact minus rfl
    · rw [digit] at h
      cases h
  refine ⟨⟨?_, apart _ (by decide) (by decide)⟩, ?_⟩
  · simp [isBlank, apart]
  · simp [apart]

theorem text_eq_cons (L : Layout) (level : Nat) : ∀ {j : Json}, j.Integral →
    ∃ c cs, L.text level j = c :: cs ∧ Begins c
  | null, _ => ⟨'n', _, rfl, by decide, by decide⟩
  | bool true, _ => ⟨'t', _, rfl, by decide, by decide⟩
  | bool false, _ => ⟨'f', _, rfl, by decide, by decide⟩
  | string s, _ => ⟨'"', _, rfl, by decide, by decide⟩
  | array [], _ | array (_ :: _), _ => ⟨'[', _, rfl, by decide, by decide⟩
  | object [], _ | object (_ :: _), _ => ⟨'{', _, rfl, by decide, by decide⟩
  | number (.int n), _ => by
    obtain ⟨c, cs, written, numeric⟩ := integerText_eq_cons n
    exact ⟨c, cs, written, (begins_of_numeric numeric).1⟩

/-- Neither a blank nor one of these characters goes on with a number. -/
theorem ends_cons (h : isBlank c = true ∨ c ∈ [',', ']', '}']) (cs : List Char) : Numeral.Ends (c :: cs) := by
  rintro _ ⟨⟩
  simp only [isBlank, Bool.or_eq_true, decide_eq_true_eq, List.mem_cons, List.not_mem_nil, or_false] at h
  rcases h with (((rfl | rfl) | rfl) | rfl) | rfl | rfl | rfl <;> decide

theorem ends_lead {bracket : Char} (closing : bracket ∈ [',', ']', '}']) (L : Layout) (level : Nat)
    (rest : List Char) : Numeral.Ends (L.lead level ++ bracket :: rest) := by
  cases blanks : L.lead level with
  | nil => exact ends_cons (.inr closing) rest
  | cons c cs =>
      refine ends_cons (.inl (L.lead_blank level c ?_)) _
      rw [blanks]
      exact List.mem_cons_self

theorem ends_itemsBehind (L : Layout) (level : Nat) (items : List Json) (rest : List Char) :
    Numeral.Ends (L.itemsBehind (level + 1) items ++ (L.lead level ++ ']' :: rest)) := by
  cases items with
  | nil => exact ends_lead (by decide) L level rest
  | cons item items => exact ends_cons (.inr (by decide)) _

theorem ends_fieldsBehind (L : Layout) (level : Nat) (fields : List (String × Json)) (rest : List Char) :
    Numeral.Ends (L.fieldsBehind (level + 1) fields ++ (L.lead level ++ '}' :: rest)) := by
  cases fields with
  | nil => exact ends_lead (by decide) L level rest
  | cons field fields => exact ends_cons (.inr (by decide)) _

theorem readWord_self (result : Draft) (word rest : List Char) :
    readWord result word (word ++ rest) = (result, some rest) := by
  induction word with
  | nil => cases rest <;> rfl
  | cons w word ih => rw [List.cons_append, readWord, if_pos rfl, ih]

theorem readNumeral_integerText {n : Int} (fits : FitsWord n) (ends : Numeral.Ends rest) :
    readNumeral (integerText n ++ rest) = (.number (.int n), some rest) := by
  rw [readNumeral, Numeral.cut_integerText n ends]
  simp only [Numeral.value?_ofInt fits]

theorem readValue_number {n : Int} (fits : FitsWord n) (ends : Numeral.Ends rest) (fuel : Nat) :
    readValue (fuel + 1) (integerText n ++ rest) = (.number (.int n), some rest) := by
  obtain ⟨c, cs, written, numeric⟩ := integerText_eq_cons n
  obtain ⟨⟨printed, _⟩, apart⟩ := begins_of_numeric numeric
  have read := readNumeral_integerText fits ends
  rw [written, List.cons_append] at read ⊢
  simp only [List.mem_cons, List.not_mem_nil, or_false, forall_eq_or_imp, forall_eq] at apart
  obtain ⟨quote, bracket, brace, n, t, f⟩ := apart
  simp only [readValue, skipBlank_cons printed, quote, bracket, brace, n, t, f, if_false, numeric, if_true,
    read]

theorem readValue_string (s : String) (rest : List Char) (fuel : Nat) :
    readValue (fuel + 1) (quote s ++ rest) = (.string s, some rest) := by
  obtain ⟨body, written, read⟩ := readQuoted_quote s rest
  rw [written, List.cons_append]
  simp only [readValue, skipBlank_cons (c := '"') (by decide), if_true, readString, read]

/-- The first item and the items behind it. -/
theorem readItem_of {item : Draft} {tail : List Char} {items : List Draft} {fuel : Nat}
    (first : readValue fuel cs = (item, some tail))
    (behind : readItems fuel false tail = (items, .closed, some rest)) :
    readItem (fuel + 1) cs = (item :: items, .closed, some rest) := by
  rw [readItem, first]
  simp only [behind]

theorem readValue_blank {blanks : List Char} (blank : ∀ c ∈ blanks, isBlank c = true) (fuel : Nat)
    (cs : List Char) : readValue fuel (blanks ++ cs) = readValue fuel cs := by
  cases fuel with
  | zero => rfl
  | succ fuel => rw [readValue, readValue, skipBlank_append blank]

/-- The first field, behind the opening quote of its key, and the fields behind it. -/
theorem exists_readField (L : Layout) {text tail : List Char} {value : Draft}
    {fields : List (Option String × Draft)} {fuel : Nat} (key : String) (stopAt : Fault → Stop)
    (first : readValue fuel (text ++ tail) = (value, some tail))
    (behind : readFields fuel false tail = (fields, .closed, some rest)) :
    ∃ body, quote key = '"' :: body ∧ readField (fuel + 2) stopAt (body ++ ':' :: (L.gap ++ (text ++ tail))) =
      ((some key, value) :: fields, .closed, some rest) := by
  obtain ⟨body, written, name⟩ := readQuoted_quote key (':' :: (L.gap ++ (text ++ tail)))
  rw [← readValue_blank L.gap_blank] at first
  refine ⟨body, written, ?_⟩
  rw [readField, name]
  simp only [Option.getD_some]
  rw [readFieldValue, skipBlank_cons (by decide)]
  simp only [if_true, first, behind]

theorem readItems_closed (L : Layout) (level : Nat) (first : Bool) (fuel : Nat) (rest : List Char) :
    readItems (fuel + 1) first (L.lead level ++ ']' :: rest) = ([], .closed, some rest) := by
  rw [readItems, skipBlank_append (L.lead_blank level), skipBlank_cons (by decide)]
  exact if_pos rfl

theorem readFields_closed (L : Layout) (level : Nat) (first : Bool) (fuel : Nat) (rest : List Char) :
    readFields (fuel + 1) first (L.lead level ++ '}' :: rest) = ([], .closed, some rest) := by
  rw [readFields, skipBlank_append (L.lead_blank level), skipBlank_cons (by decide)]
  exact if_pos rfl

theorem readItems_first (L : Layout) (level : Nat) (begins : Begins c) (fuel : Nat) (cs : List Char) :
    readItems (fuel + 1) true (L.lead level ++ c :: cs) = readItem fuel (c :: cs) := by
  rw [readItems, skipBlank_append (L.lead_blank level), skipBlank_cons begins.printed]
  simp only [begins.item, if_false, if_true]

theorem readItems_comma (L : Layout) (level : Nat) (begins : Begins c) (fuel : Nat) (cs : List Char) :
    readItems (fuel + 1) false (',' :: (L.lead level ++ c :: cs)) = readItem fuel (c :: cs) := by
  rw [readItems, skipBlank_cons (by decide)]
  simp only [Char.reduceEq, if_false, Bool.false_eq_true, if_true, skipBlank_append (L.lead_blank level),
    skipBlank_cons begins.printed, begins.item]

theorem readFields_first (L : Layout) (level : Nat) (fuel : Nat) (cs : List Char) :
    readFields (fuel + 1) true (L.lead level ++ '"' :: cs) = readField fuel .fault cs := by
  rw [readFields, skipBlank_append (L.lead_blank level), skipBlank_cons (by decide)]
  rfl

theorem readFields_comma (L : Layout) (level : Nat) (fuel : Nat) (cs : List Char) :
    readFields (fuel + 1) false (',' :: (L.lead level ++ '"' :: cs)) = readField fuel .afterComma cs := by
  rw [readFields, skipBlank_cons (by decide)]
  simp only [Char.reduceEq, if_false, Bool.false_eq_true, if_true, skipBlank_append (L.lead_blank level)]
  rfl

theorem readValue_array {items : List Draft} {fuel : Nat}
    (read : readItems fuel true cs = (items, .closed, some rest)) :
    readValue (fuel + 1) ('[' :: cs) = (.array items .closed, some rest) := by
  rw [readValue, skipBlank_cons (by decide)]
  simp only [Char.reduceEq, if_false, if_true, read]

theorem readValue_object {fields : List (Option String × Draft)} {fuel : Nat}
    (read : readFields fuel true cs = (fields, .closed, some rest)) :
    readValue (fuel + 1) ('{' :: cs) = (.object fields .closed, some rest) := by
  rw [readValue, skipBlank_cons (by decide)]
  simp only [Char.reduceEq, if_false, if_true, read]

mutual

theorem readValue_text (L : Layout) : ∀ (j : Json) (level fuel : Nat) (rest : List Char),
    j.Integral → Numeral.Ends rest → 4 * (L.text level j).length + 1 ≤ fuel →
    readValue fuel (L.text level j ++ rest) = (j.draft, some rest)
  | _, _, 0, _, _, _, enough => by omega
  | null, level, fuel + 1, rest, _, _, _ => readWord_self .null ['u', 'l', 'l'] rest
  | bool true, level, fuel + 1, rest, _, _, _ => readWord_self (.bool true) ['r', 'u', 'e'] rest
  | bool false, level, fuel + 1, rest, _, _, _ => readWord_self (.bool false) ['a', 'l', 's', 'e'] rest
  | number (.int n), level, fuel + 1, rest, integral, ends, _ => readValue_number integral ends fuel
  | string s, level, fuel + 1, rest, _, _, _ => readValue_string s rest fuel
  | array [], level, fuel + 1, rest, _, _, enough => by
    obtain ⟨fuel, rfl⟩ : ∃ n, fuel = n + 1 := ⟨fuel - 1, by simp [Layout.text] at enough; omega⟩
    exact readValue_array (readItems_closed .compact level true fuel rest)
  | object [], level, fuel + 1, rest, _, _, enough => by
    obtain ⟨fuel, rfl⟩ : ∃ n, fuel = n + 1 := ⟨fuel - 1, by simp [Layout.text] at enough; omega⟩
    exact readValue_object (readFields_closed .compact level true fuel rest)
  | array (item :: items), level, fuel + 1, rest, integral, ends, enough => by
    simp only [Layout.text, List.length_cons, List.length_append] at enough
    obtain ⟨fuel, rfl⟩ : ∃ n, fuel = n + 2 := ⟨fuel - 2, by omega⟩
    have first := readValue_text L item (level + 1) fuel
      (L.itemsBehind (level + 1) items ++ (L.lead level ++ ']' :: rest)) integral.1
      (ends_itemsBehind L level items rest) (by omega)
    have behind := readItems_behind L items level fuel rest integral.2 (by omega)
    obtain ⟨c, cs, written, begins⟩ := text_eq_cons L (level + 1) integral.1
    have all := readItem_of first behind
    rw [written, List.cons_append, ← readItems_first L (level + 1) begins] at all
    simp only [Layout.text, written, List.cons_append, List.append_assoc, List.nil_append]
    exact readValue_array all
  | object ((key, value) :: fields), level, fuel + 1, rest, integral, ends, enough => by
    simp only [Layout.text, List.length_cons, List.length_append] at enough
    obtain ⟨fuel, rfl⟩ : ∃ n, fuel = n + 3 := ⟨fuel - 3, by omega⟩
    have first := readValue_text L value (level + 1) fuel
      (L.fieldsBehind (level + 1) fields ++ (L.lead level ++ '}' :: rest)) integral.1
      (ends_fieldsBehind L level fields rest) (by omega)
    have behind := readFields_behind L fields level fuel rest integral.2 (by omega)
    obtain ⟨body, written, all⟩ := exists_readField L key .fault first behind
    rw [← readFields_first L (level + 1)] at all
    simp only [Layout.text, written, List.cons_append, List.append_assoc, List.nil_append]
    exact readValue_object all

theorem readItems_behind (L : Layout) : ∀ (items : List Json) (level fuel : Nat) (rest : List Char),
    IntegralItems items → 4 * (L.itemsBehind (level + 1) items).length + 1 ≤ fuel →
    readItems fuel false (L.itemsBehind (level + 1) items ++ (L.lead level ++ ']' :: rest)) =
      (drafts items, .closed, some rest)
  | _, _, 0, _, _, enough => by omega
  | [], level, fuel + 1, rest, _, _ => readItems_closed L level false fuel rest
  | item :: items, level, fuel + 1, rest, integral, enough => by
    simp only [Layout.itemsBehind, List.length_cons, List.length_append] at enough
    obtain ⟨fuel, rfl⟩ : ∃ n, fuel = n + 1 := ⟨fuel - 1, by omega⟩
    have first := readValue_text L item (level + 1) fuel
      (L.itemsBehind (level + 1) items ++ (L.lead level ++ ']' :: rest)) integral.1
      (ends_itemsBehind L level items rest) (by omega)
    have behind := readItems_behind L items level fuel rest integral.2 (by omega)
    obtain ⟨c, cs, written, begins⟩ := text_eq_cons L (level + 1) integral.1
    have all := readItem_of first behind
    rw [written, List.cons_append, ← readItems_comma L (level + 1) begins] at all
    simp only [Layout.itemsBehind, written, List.cons_append, List.append_assoc]
    exact all

theorem readFields_behind (L : Layout) : ∀ (fields : List (String × Json)) (level fuel : Nat)
    (rest : List Char), IntegralFields fields →
    4 * (L.fieldsBehind (level + 1) fields).length + 1 ≤ fuel →
    readFields fuel false (L.fieldsBehind (level + 1) fields ++ (L.lead level ++ '}' :: rest)) =
      (fieldDrafts fields, .closed, some rest)
  | _, _, 0, _, _, enough => by omega
  | [], level, fuel + 1, rest, _, _ => readFields_closed L level false fuel rest
  | (key, value) :: fields, level, fuel + 1, rest, integral, enough => by
    simp only [Layout.fieldsBehind, List.length_cons, List.length_append] at enough
    obtain ⟨fuel, rfl⟩ : ∃ n, fuel = n + 2 := ⟨fuel - 2, by omega⟩
    have first := readValue_text L value (level + 1) fuel
      (L.fieldsBehind (level + 1) fields ++ (L.lead level ++ '}' :: rest)) integral.1
      (ends_fieldsBehind L level fields rest) (by omega)
    have behind := readFields_behind L fields level fuel rest integral.2 (by omega)
    obtain ⟨body, written, all⟩ := exists_readField L key .afterComma first behind
    rw [← readFields_comma L (level + 1)] at all
    simp only [Layout.fieldsBehind, written, List.cons_append, List.append_assoc]
    exact all

end

end Reading

section Value

variable {fields : List (String × Json)} {n : Nat}

theorem fieldDepths_le_iff : fieldDepths fields ≤ n ↔ ∀ f ∈ fields, f.2.depth ≤ n := by
  induction fields with
  | nil => simp [fieldDepths]
  | cons f rest ih => rw [fieldDepths, Nat.max_le, ih, List.forall_mem_cons]

theorem fieldDepths_append (fields rest : List (String × Json)) :
    fieldDepths (fields ++ rest) = max (fieldDepths fields) (fieldDepths rest) := by
  induction fields with
  | nil => exact (Nat.zero_max _).symm
  | cons f fields ih => rw [List.cons_append, fieldDepths, fieldDepths, ih, Nat.max_assoc]

theorem integralFields_iff : IntegralFields fields ↔ ∀ f ∈ fields, f.2.Integral := by
  induction fields with
  | nil => simp [IntegralFields]
  | cons f rest ih => simp [IntegralFields, ih]

mutual

/-- The draft of a value gives the value, if there is room for its arrays and objects. -/
theorem value_draft : ∀ (j : Json) (room : Nat), j.depth ≤ room → j.draft.value room = .ok j.sorted
  | null, _, _ | bool _, _, _ | number _, _, _ | string _, _, _ => rfl
  | array _, 0, deep | object _, 0, deep => by simp [depth] at deep
  | array items, room + 1, deep => by
    rw [depth] at deep
    have values := valueItems_drafts items room (by omega)
    simp only [draft, Draft.value, values]
    rfl
  | object fields, room + 1, deep => by
    rw [depth] at deep
    have values := valueFields_fieldDrafts fields room [] (by omega)
    simp only [draft, Draft.value, values]
    rfl

theorem valueItems_drafts : ∀ (items : List Json) (room : Nat), depths items ≤ room →
    Draft.valueItems room (drafts items) = .ok (sortedItems items)
  | [], _, _ => rfl
  | item :: rest, room, deep => by
    rw [depths] at deep
    have first := value_draft item room (by omega)
    have behind := valueItems_drafts rest room (by omega)
    simp only [drafts, Draft.valueItems, first, behind]
    rfl

theorem valueFields_fieldDrafts : ∀ (fields : List (String × Json)) (room : Nat)
    (known : List (String × Json)), fieldDepths fields ≤ room →
    Draft.valueFields room known (fieldDrafts fields) = .ok (insertFields known (sortedFields fields))
  | [], _, _, _ => rfl
  | (key, value) :: rest, room, known, deep => by
    rw [fieldDepths] at deep
    have first := value_draft value room (by omega)
    have behind := valueFields_fieldDrafts rest room (insertField key value.sorted known) (by omega)
    simp only [fieldDrafts, Draft.valueFields, first]
    exact behind

end

/-- A decoder of a written value is given its draft. -/
theorem decode_text {α : Type} (decoder : Draft → Decoded α) (L : Layout) {j : Json}
    (integral : j.Integral) : decode decoder (String.ofList (L.text 0 j)) = decoder j.draft := by
  have ends : Numeral.Ends [] := nofun
  have read := readValue_text L j 0 (4 * (L.text 0 j).length + 4) [] integral ends (by omega)
  rw [List.append_nil] at read
  rw [decode, Draft.read, String.toList_ofList]
  simp only [read]
  cases decoder j.draft <;> rfl

end Value

end Json
end TaskForest
