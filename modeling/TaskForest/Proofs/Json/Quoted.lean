import TaskForest.Json.Reader

/-!
Quoted texts are read back. What is written for a character is read as one unit, and the unit gives the
character again: an escape by number is written only below the space, so it is never half of a pair.
-/

namespace TaskForest
namespace Json
namespace Quoted

variable {c : Char}

theorem hexValue_hexDigit {n : Nat} (small : n < 16) : hexValue (hexDigit n) = some n := by
  have all : ∀ n < 16, hexValue (hexDigit n) = some n := by decide
  exact all n small

theorem hexUnit_hexDigits {n : Nat} (small : n < 256) :
    hexUnit '0' '0' (hexDigit (n / 16)) (hexDigit (n % 16)) = some n := by
  have zero : hexValue '0' = some 0 := rfl
  have high : n / 16 < 16 := by omega
  have low : n % 16 < 16 := by omega
  simp only [hexUnit, zero, hexValue_hexDigit high, hexValue_hexDigit low, Option.bind_eq_bind,
    Option.bind_some, Option.pure_def]
  exact congrArg some (by omega)

/-- A unit that stands for a character wherever it is read. -/
structure Gives (u : Unit16) (c : Char) : Prop where
  units : ∀ tail, units (escapeChar c ++ tail) = (u :: (units tail).1, (units tail).2)
  pair : ∀ stop us, pair stop (u :: us) = (c :: ·) <$> pair stop us

theorem units_plain (quote : c ≠ '"') (escape : c ≠ '\\') (printed : ¬ c.toNat < 0x20) (tail : List Char) :
    units (c :: tail) = (.char c :: (units tail).1, (units tail).2) := by
  rw [units]
  · exact if_neg printed
  · exact quote
  · exact fun _ _ _ _ _ same => absurd same escape
  · exact fun _ same => absurd same escape
  · exact fun _ _ same => absurd same escape
  · exact fun same => absurd same escape

theorem exists_gives (c : Char) : ∃ u, Gives u c := by
  by_cases named : c ∈ ['"', '\\', '\n', '\r', '\t', '\x08', '\x0c']
  · refine ⟨.char c, fun tail => ?_, fun _ _ => rfl⟩
    simp only [List.mem_cons, List.not_mem_nil, or_false] at named
    rcases named with rfl | rfl | rfl | rfl | rfl | rfl | rfl <;> rfl
  · simp only [List.mem_cons, List.not_mem_nil, or_false, not_or] at named
    obtain ⟨quote, escape, n₁, n₂, n₃, n₄, n₅⟩ := named
    by_cases control : c.toNat < 0x20
    · have written : escapeChar c =
          ['\\', 'u', '0', '0', hexDigit (c.toNat / 16), hexDigit (c.toNat % 16)] := by
        simp only [escapeChar, quote, escape, n₁, n₂, n₃, n₄, n₅, if_false, control, if_true]
      refine ⟨.escaped c.toNat, fun tail => ?_, fun stop us => ?_⟩
      · rw [written]
        change units ('\\' :: 'u' :: '0' :: '0' :: _ :: _ :: tail) = _
        rw [Quoted.units, hexUnit_hexDigits (Nat.lt_trans control (by decide))]
      · have single : isTrailing c.toNat = false ∧ isLeading c.toNat = false := by
          constructor
          · rw [isTrailing, Bool.and_eq_false_imp]
            intro high
            have above := of_decide_eq_true high
            omega
          · rw [isLeading, Bool.and_eq_false_imp]
            intro high
            have above := of_decide_eq_true high
            omega
        rw [Quoted.pair.eq_def]
        simp only [single, Char.ofNat_toNat, Bool.false_eq_true, if_false]
    · have written : escapeChar c = [c] := by
        simp only [escapeChar, quote, escape, n₁, n₂, n₃, n₄, n₅, if_false, control]
      refine ⟨.char c, fun tail => ?_, fun _ _ => rfl⟩
      rw [written]
      exact units_plain quote escape control tail

/-- The units of a written text, up to the closing quote, are its characters. -/
theorem exists_units (cs rest : List Char) (stop : Fault) :
    ∃ us, units (cs.flatMap escapeChar ++ '"' :: rest) = (us, .ok rest) ∧ pair stop us = .ok cs := by
  induction cs with
  | nil => exact ⟨[], rfl, rfl⟩
  | cons c cs ih =>
      obtain ⟨us, read, paired⟩ := ih
      obtain ⟨u, gives⟩ := exists_gives c
      refine ⟨u :: us, ?_, ?_⟩
      · rw [List.flatMap_cons, List.append_assoc, gives.units, read]
      · rw [gives.pair, paired]
        rfl

end Quoted

namespace Draft

/-- A quoted text is the opening quote and then what is read back. -/
theorem readQuoted_quote (s : String) (rest : List Char) :
    ∃ body, quote s = '"' :: body ∧ readQuoted (body ++ rest) = (.ok s, some rest) := by
  refine ⟨s.toList.flatMap escapeChar ++ ['"'], rfl, ?_⟩
  obtain ⟨us, read, paired⟩ := Quoted.exists_units s.toList rest .malformed
  rw [List.append_assoc, List.singleton_append, readQuoted, read]
  simp only [paired, String.ofList_toList]

end Draft
end Json
end TaskForest
