import TaskForest.Json.Numeral

/-!
Written integers are read back. The digits are cut off again where the text behind them goes on with something
else, and as long as the integer is one of 64 bits all of them are gathered.
-/

namespace TaskForest
namespace Json

/-- The integers of 64 bits, signed or not. -/
def FitsWord (n : Int) : Prop := -0x8000000000000000 ≤ n ∧ n < 0x10000000000000000

instance (n : Int) : Decidable (FitsWord n) := inferInstanceAs (Decidable (_ ∧ _))

namespace Numeral

variable {rest : List Char}

/-- A text that does not go on with a number in front of it. -/
def Ends (rest : List Char) : Prop :=
  ∀ c, rest.head? = some c → c.isDigit = false ∧ c ≠ '.' ∧ c ≠ 'e' ∧ c ≠ 'E'

def ofInt (n : Int) : Numeral := ⟨n < 0, Nat.toDigits 10 n.natAbs, none, none⟩

theorem isDigit_of_mem_toDigits {n : Nat} {c : Char} (h : c ∈ Nat.toDigits 10 n) : c.isDigit = true :=
  Nat.isDigit_of_mem_toDigits (by decide) (by decide) h

/-- Only zero is written with a leading zero. -/
theorem exists_toDigits_eq_cons {n : Nat} (pos : 0 < n) : ∃ d ds, Nat.toDigits 10 n = d :: ds ∧ d ≠ '0' := by
  induction n using Nat.strongRecOn with
  | ind n ih =>
      by_cases small : n < 10
      · refine ⟨n.digitChar, [], Nat.toDigits_of_lt_base small, ?_⟩
        rw [ne_eq, Nat.digitChar_eq_zero]
        omega
      · obtain ⟨d, ds, first, nonzero⟩ := ih (n / 10) (by omega) (by omega)
        refine ⟨d, ds ++ [(n % 10).digitChar], ?_, nonzero⟩
        rw [Nat.toDigits_of_base_le (by decide) (by omega), first, List.cons_append]

theorem digits_append {ds : List Char} (all : ∀ c ∈ ds, c.isDigit = true) (ends : Ends rest) :
    digits (ds ++ rest) = (ds, rest) := by
  have front : rest.takeWhile Char.isDigit = [] ∧ rest.dropWhile Char.isDigit = rest := by
    cases rest with
    | nil => exact ⟨rfl, rfl⟩
    | cons c cs => simp [(ends c rfl).1]
  rw [digits, List.takeWhile_append_of_pos all, List.dropWhile_append_of_pos all, front.1, front.2,
    List.append_nil]

theorem cutFraction_of_ends (negative : Bool) (whole : List Char) (ends : Ends rest) :
    cutFraction negative whole rest = .whole ⟨negative, whole, none, none⟩ rest := by
  cases rest with
  | nil => rfl
  | cons c cs =>
      obtain ⟨_, point, small, capital⟩ := ends c rfl
      have exponent : cutExponent (fun e => ⟨negative, whole, none, e⟩) (c :: cs) =
          .whole ⟨negative, whole, none, none⟩ (c :: cs) := by
        simp only [cutExponent, small, capital, or_self, if_false]
      rw [cutFraction, exponent]
      rintro _ ⟨⟩
      exact point rfl

theorem cutWhole_toDigits (negative : Bool) (n : Nat) (ends : Ends rest) :
    cutWhole negative (Nat.toDigits 10 n ++ rest) =
      .whole ⟨negative, Nat.toDigits 10 n, none, none⟩ rest := by
  rcases Nat.eq_zero_or_pos n with rfl | pos
  · rw [Nat.toDigits_zero, List.singleton_append]
    cases rest with
    | nil => rfl
    | cons c cs =>
        rw [cutWhole, if_neg (by simp [(ends c rfl).1]), cutFraction_of_ends negative ['0'] ends]
  · obtain ⟨d, ds, first, nonzero⟩ := exists_toDigits_eq_cons pos
    have cut := digits_append (fun _ h => isDigit_of_mem_toDigits (n := n) h) ends
    rw [first, List.cons_append] at cut ⊢
    rw [cutWhole, cut]
    · exact cutFraction_of_ends negative (d :: ds) ends
    · rintro _ ⟨⟩
      exact nonzero rfl

theorem le_ofDigitChars (n : Nat) (ds : List Char) : n ≤ Nat.ofDigitChars 10 ds n := by
  induction ds generalizing n with
  | nil => exact Nat.le_refl n
  | cons d ds ih =>
      rw [Nat.ofDigitChars_cons]
      exact Nat.le_trans (by omega) (ih _)

/-- Digits of a number of 64 bits are all gathered. -/
theorem gather_of_lt (n : Nat) (ds : List Char) (fits : Nat.ofDigitChars 10 ds n < UInt64.size) :
    gather n ds = (Nat.ofDigitChars 10 ds n, []) := by
  induction ds generalizing n with
  | nil => rfl
  | cons d ds ih =>
      rw [Nat.ofDigitChars_cons, Nat.mul_comm] at fits ⊢
      have next : n * 10 + (d.toNat - '0'.toNat) < UInt64.size :=
        Nat.lt_of_le_of_lt (le_ofDigitChars _ ds) fits
      rw [gather]
      exact (if_pos next).trans (ih _ fits)

theorem value?_ofInt {n : Int} (fits : FitsWord n) : (ofInt n).value? = some (.int n) := by
  obtain ⟨least, greatest⟩ := fits
  have gathered : gather 0 (Nat.toDigits 10 n.natAbs) = (n.natAbs, []) := by
    rw [gather_of_lt, Nat.ofDigitChars_ten_toDigits]
    rw [Nat.ofDigitChars_ten_toDigits]
    change n.natAbs < 0x10000000000000000
    omega
  simp only [ofInt, value?, gathered]
  by_cases negative : n < 0
  · have small : 0 < n.natAbs ∧ n.natAbs ≤ Nat.pow 2 63 := ⟨by omega, by
      change n.natAbs ≤ 0x8000000000000000
      omega⟩
    rw [if_pos (decide_eq_true negative), if_pos small]
    congr 2
    omega
  · rw [if_neg (by simpa using negative)]
    congr 2
    omega

theorem cut_integerText (n : Int) (ends : Ends rest) :
    cut (integerText n ++ rest) = .whole (ofInt n) rest := by
  cases n with
  | negSucc n =>
      have parts : ofInt (.negSucc n) = ⟨true, Nat.toDigits 10 (n + 1), none, none⟩ := by
        rw [ofInt, decide_eq_true (Int.negSucc_lt_zero n), Int.natAbs_negSucc]
      rw [parts]
      exact cutWhole_toDigits true (n + 1) ends
  | ofNat n =>
      have parts : ofInt (.ofNat n) = ⟨false, Nat.toDigits 10 n, none, none⟩ := by
        have positive : ¬ Int.ofNat n < 0 := Int.not_lt.2 (Int.natCast_nonneg n)
        rw [ofInt, decide_eq_false positive]
        rfl
      rw [integerText, cut, parts]
      · exact cutWhole_toDigits false n ends
      · intro cs minus
        have first : '-' ∈ Nat.toDigits 10 n := by
          cases digits : Nat.toDigits 10 n with
          | nil => exact absurd digits Nat.toDigits_ne_nil
          | cons d ds =>
              rw [digits] at minus
              cases minus
              exact List.mem_cons_self
        cases isDigit_of_mem_toDigits first

end Numeral
end Json
end TaskForest
