import EsilLowering.Proofs.Denotation

/-! # Numbers written in decimal

The numerals that are read as numbers are exactly those that denote one a word holds. So a number comes
back from its own decimal text, and as well with zeros put before its digits, or with a plus if it is not
negative. -/

namespace EsilLowering
namespace Numeral

/-- How many digits a text has. -/
def digitCount (text : String) : Nat := text.toList.countP Char.isDigit

/-- The decimal text of a number, with zeros before its digits. A plus is only for a number that is not
negative. -/
def written (plus : Bool) (zeros : Nat) (number : Int) : String :=
  let sign := if number < 0 then ['-'] else if plus then ['+'] else []
  String.ofList (sign ++ List.replicate zeros '0' ++ Nat.toDigits 10 number.natAbs)

section
variable {text : String} {number : Int}

/-! ### What is read -/

theorem not_tooLong (short : digitCount text ≤ digitLimit) (count : Nat) : ¬TooLong text count := by
  rintro ⟨negative, digits, ⟨sign, -, hchars, -, hdigits⟩, long, -⟩
  have all : digits.countP Char.isDigit = digits.length := List.countP_eq_length.mpr hdigits
  rw [digitCount, hchars, List.countP_append] at short
  omega

theorem denotes_of_decimal? (read : decimal? text = .ok (some number)) : Denotes text number ∧ FitsWord number := by
  have fits : FitsWord number := fitsWord_iff.mp (decimal?_fits read)
  unfold decimal? at read
  split at read
  · cases read
  · rename_i negative digits parts
    split at read
    · cases read
    · simp only [Except.ok.injEq, Option.ite_none_right_eq_some, Option.some.injEq] at read
      obtain ⟨-, rfl⟩ := read
      rw [ofDigitChars_eq_placeValue] at fits ⊢
      exact ⟨⟨negative, digits, decimalParts?_eq_some.mp parts, rfl⟩, fits⟩

theorem decimal?_eq_some (short : digitCount text ≤ digitLimit) :
    decimal? text = .ok (some number) ↔ Denotes text number ∧ FitsWord number :=
  ⟨denotes_of_decimal?, fun ⟨denotes, fits⟩ => decimal?_of_denotes denotes fits (not_tooLong short)⟩

theorem decimal?_eq_none (short : digitCount text ≤ digitLimit) :
    decimal? text = .ok none ↔ ∀ number, Denotes text number → ¬FitsWord number := by
  constructor
  · intro unread number denotes fits
    have read := decimal?_of_denotes denotes fits (not_tooLong short)
    cases unread.symm.trans read
  · exact fun unfit => decimal?_of_unfit unfit (not_tooLong short)

/-! ### What is written -/

theorem placeValue_leadingZeros (zeros : Nat) (digits : List Char) :
    placeValue (List.replicate zeros '0' ++ digits) = placeValue digits := by
  rw [← ofDigitChars_eq_placeValue, Nat.ofDigitChars_append, Nat.ofDigitChars_replicate_zero, Nat.mul_zero,
    ofDigitChars_eq_placeValue]

theorem withSign_natAbs (number : Int) : withSign (decide (number < 0)) number.natAbs = number := by
  unfold withSign
  split
  · rename_i negative
    have := of_decide_eq_true negative
    omega
  · rename_i positive
    have := of_decide_eq_false (Bool.eq_false_iff.mpr positive)
    omega

theorem spells_written (plus : Bool) (zeros : Nat) (number : Int) :
    Spells (decide (number < 0)) (List.replicate zeros '0' ++ Nat.toDigits 10 number.natAbs)
      (written plus zeros number) := by
  have sign : Sign (decide (number < 0)) (if number < 0 then ['-'] else if plus then ['+'] else []) := by
    by_cases negative : number < 0
    · rw [decide_eq_true negative, if_pos negative]
      exact .minus
    · rw [decide_eq_false negative, if_neg negative]
      cases plus with
      | true => exact .plus
      | false => exact .none
  refine ⟨_, sign, ?_, by simp [Nat.toDigits_ne_nil], fun digit member => ?_⟩
  · rw [written, String.toList_ofList, List.append_assoc]
  · rcases List.mem_append.mp member with zero | digit
    · rw [List.eq_of_mem_replicate zero]
      rfl
    · exact Nat.isDigit_of_mem_toDigits (by decide) (by decide) digit

theorem denotes_written (plus : Bool) (zeros : Nat) (number : Int) : Denotes (written plus zeros number) number := by
  refine ⟨_, _, spells_written plus zeros number, ?_⟩
  rw [placeValue_leadingZeros, placeValue_toDigits, withSign_natAbs]

theorem digitCount_written (plus : Bool) (zeros : Nat) (number : Int) :
    digitCount (written plus zeros number) = zeros + (Nat.toDigits 10 number.natAbs).length := by
  obtain ⟨sign, hsign, hchars, -, hdigits⟩ := spells_written plus zeros number
  have none : sign.countP Char.isDigit = 0 := by
    generalize decide (number < 0) = negative at hsign
    cases hsign <;> rfl
  rw [digitCount, hchars, List.countP_append, none, List.countP_eq_length.mpr hdigits]
  simp

theorem written_plain (number : Int) : written false 0 number = toString number := by
  apply String.toList_inj.mp
  cases number with
  | ofNat size =>
    rw [toString_ofNat]
    simp [written]
  | negSucc size =>
    rw [toString_negSucc]
    simp [written, Int.negSucc_lt_zero]

/-- A number that a word holds has nineteen digits at most. -/
theorem length_digits_le (fits : FitsWord number) : (Nat.toDigits 10 number.natAbs).length ≤ 19 := by
  obtain ⟨low, high⟩ := fits
  rw [Nat.length_toDigits_le_iff (by decide) (by decide)]
  omega

end
end Numeral

namespace Value
open Numeral

/-- A token that has no more digits than are read gives a number exactly if it denotes the number and a word
holds it, and else no number. So every number that a word holds is read from its decimal text, and from one
with zeros before its digits or with a plus as long as the digits are not too many; unless such a text is a
register's name, it is a constant of that number. -/
theorem decimal_texts_exact (token : String) (short : digitCount token ≤ digitLimit) :
    (∀ number, decimal? token = .ok (some number) ↔ Denotes token number ∧ FitsWord number) ∧
    (decimal? token = .ok none ↔ ∀ number, Denotes token number → ¬FitsWord number) ∧
    ∀ number, FitsWord number →
      written false 0 number = toString number ∧
      (Nat.toDigits 10 number.natAbs).length ≤ digitLimit ∧
      ∀ plus zeros, zeros + (Nat.toDigits 10 number.natAbs).length ≤ digitLimit →
        decimal? (written plus zeros number) = .ok (some number) ∧
        ∀ registers defaultSize, registers.get? (written plus zeros number) = none →
          classify registers defaultSize (written plus zeros number) =
            .ok { name := written plus zeros number, size := defaultSize, location := .constant, literal := number } := by
  refine ⟨fun number => decimal?_eq_some short, decimal?_eq_none short, fun number fits => ?_⟩
  have few : (Nat.toDigits 10 number.natAbs).length ≤ digitLimit := (length_digits_le fits).trans (by decide)
  refine ⟨written_plain number, few, fun plus zeros room => ?_⟩
  rw [← digitCount_written plus zeros number] at room
  have read : decimal? (written plus zeros number) = .ok (some number) :=
    (decimal?_eq_some room).mpr ⟨denotes_written plus zeros number, fits⟩
  refine ⟨read, fun registers defaultSize absent => ?_⟩
  exact classify_eq_ok.mpr (Or.inr (Or.inl ⟨number, absent, read, rfl⟩))

/-- The least number that a word holds, with zeros before its digits, and the greatest with as many as there
may be. -/
theorem decimal_texts_exact_example :
    let least := "-0009223372036854775808"
    let greatest := written true 4281 9223372036854775807
    digitCount least ≤ digitLimit ∧ Denotes least (-9223372036854775808) ∧
      classify .empty 64 greatest =
        .ok { name := greatest, size := 64, location := .constant, literal := 9223372036854775807 } := by
  intro least greatest
  have short : digitCount least ≤ digitLimit := by decide +kernel
  obtain ⟨exact, -, texts⟩ := decimal_texts_exact least short
  have read : decimal? least = .ok (some (-9223372036854775808)) := by decide +kernel
  have fits : FitsWord 9223372036854775807 := ⟨by decide, by decide⟩
  obtain ⟨-, -, longer⟩ := texts 9223372036854775807 fits
  obtain ⟨-, constant⟩ := longer true 4281 (by decide +kernel)
  exact ⟨short, ((exact _).mp read).1, constant .empty 64 rfl⟩

end Value
end EsilLowering
