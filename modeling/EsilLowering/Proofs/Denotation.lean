import EsilLowering.Proofs.Classification
import Mathlib.Data.List.Basic
import Mathlib.Data.Nat.Digits.Defs

/-! # The number that a numeral denotes

The digits of a numeral denote a number by their places, the last one counting ones. An operand token that
is no register is a constant exactly if it denotes a number that fits a word, and its other digits may be
as many zeros as they like, up to the limit: a numeral with more digits is not read at all, whatever it
denotes. -/

namespace EsilLowering
namespace Numeral

/-- What a digit stands for. -/
def digitValue (digit : Char) : Nat := digit.toNat - '0'.toNat

/-- The number that digits give by their places. -/
def placeValue (digits : List Char) : Nat := Nat.ofDigits 10 (digits.reverse.map digitValue)

/-- A text is a decimal numeral of a number. -/
def Denotes (text : String) (number : Int) : Prop :=
  ∃ negative digits, Spells negative digits text ∧ number = withSign negative (placeValue digits)

/-- A number that a signed word of 64 bits holds. -/
def FitsWord (number : Int) : Prop := -2 ^ 63 ≤ number ∧ number ≤ 2 ^ 63 - 1

/-- A number that has no more digits than are converted to text. -/
def FitsText (number : Int) : Prop := number.natAbs < 10 ^ digitLimit

section
variable {negative : Bool} {digits : List Char} {text : String} {number : Int}

theorem placeValue_cons (digit : Char) (rest : List Char) :
    placeValue (digit :: rest) = 10 ^ rest.length * digitValue digit + placeValue rest := by
  simp [placeValue, Nat.ofDigits_append, add_comm]

theorem pow_le_placeValue {digit : Char} (leading : 0 < digitValue digit) (rest : List Char) :
    10 ^ rest.length ≤ placeValue (digit :: rest) := by
  rw [placeValue_cons]
  exact (Nat.le_mul_of_pos_right _ leading).trans (Nat.le_add_right _ _)

/-- Reading digits from the left gives what they are worth by their places. -/
theorem ofDigitChars_eq_placeValue (digits : List Char) : Nat.ofDigitChars 10 digits 0 = placeValue digits := by
  induction digits with
  | nil => rfl
  | cons digit rest ih =>
    rw [Nat.ofDigitChars_cons, Nat.ofDigitChars_eq_ofDigitChars_zero, ih, placeValue_cons]
    simp [digitValue]

theorem placeValue_toDigits (number : Nat) : placeValue (Nat.toDigits 10 number) = number := by
  rw [← ofDigitChars_eq_placeValue, Nat.ofDigitChars_ten_toDigits]

/-- Of the numbers only zero is written with a zero at the front, in every base that has digits. -/
theorem head_toDigits_eq_zero {base : Nat} (low : 1 < base) (high : base ≤ 16) (number : Nat) :
    (Nat.toDigits base number).head? = some '0' ↔ number = 0 := by
  induction number using Nat.base_induction base low with
  | single digit small =>
    have zero : ∀ value < 16, value.digitChar = '0' ↔ value = 0 := by decide
    rw [Nat.toDigits_of_lt_base small, List.head?_cons, Option.some.injEq]
    exact zero digit (small.trans_le high)
  | digit number digit small more ih =>
    rw [← Nat.toDigits_append_toDigits low more small, List.head?_append_of_ne_nil _ Nat.toDigits_ne_nil, ih]
    have grows : number ≤ base * number := Nat.le_mul_of_pos_left number (Nat.zero_lt_of_lt low)
    omega

theorem toString_ofNat (size : Nat) : (toString (Int.ofNat size)).toList = Nat.toDigits 10 size := by
  change size.repr.toList = _
  rw [Nat.repr_eq_ofList_toDigits, String.toList_ofList]

theorem toString_negSucc (size : Nat) : (toString (Int.negSucc size)).toList = '-' :: Nat.toDigits 10 (size + 1) := by
  change ("-" ++ (size + 1).repr).toList = _
  rw [Nat.repr_eq_ofList_toDigits, String.toList_append, String.toList_ofList, String.toList_ofList,
    List.singleton_append]

/-- A number is converted to text exactly if it has not too many digits. -/
theorem text?_eq_some : text? number = some text ↔ FitsText number ∧ text = toString number := by
  have short : (Nat.toDigits 10 number.natAbs).length ≤ digitLimit ↔ FitsText number :=
    Nat.length_toDigits_le_iff (by decide) (by decide)
  unfold text?
  split
  · rename_i long
    exact ⟨(nomatch ·), fun fits => absurd (short.mpr fits.1) (Nat.not_le.mpr long)⟩
  · rename_i few
    simp [short.mp (Nat.not_lt.mp few), eq_comm]

theorem FitsText.of_le {other : Int} (fits : FitsText other) (smaller : number.natAbs ≤ other.natAbs) :
    FitsText number := Nat.lt_of_le_of_lt smaller fits

theorem FitsText.of_fitsWord (fits : FitsWord number) : FitsText number := by
  have wide : 10 ^ 20 ≤ 10 ^ digitLimit := Nat.pow_le_pow_right (by decide) (by decide)
  obtain ⟨low, high⟩ := fits
  refine Nat.lt_of_lt_of_le ?_ wide
  omega

theorem decimal?_of_spells (spells : Spells negative digits text) (short : ∀ count, ¬TooLong text count) :
    let number := withSign negative (placeValue digits)
    decimal? text = .ok (if fitsWord number then some number else none) := by
  have few : ¬digitLimit < digits.length := fun long => short _ ⟨negative, digits, spells, long, rfl⟩
  simp only [decimal?, decimalParts?_eq_some.mpr spells, if_neg few, ofDigitChars_eq_placeValue]

/-- A numeral that is not too long is read as the number that it denotes, if a word holds that. -/
theorem decimal?_of_denotes (denotes : Denotes text number) (fits : FitsWord number)
    (short : ∀ count, ¬TooLong text count) : decimal? text = .ok (some number) := by
  obtain ⟨negative, digits, spells, rfl⟩ := denotes
  rw [decimal?_of_spells spells short, if_pos (fitsWord_iff.mpr fits)]

/-- Nothing is read from any other text, unless it is too long. -/
theorem decimal?_of_unfit (unfit : ∀ number, Denotes text number → ¬FitsWord number)
    (short : ∀ count, ¬TooLong text count) : decimal? text = .ok none := by
  cases parts : decimalParts? text with
  | none => simp [decimal?, parts]
  | some found =>
    obtain ⟨negative, digits⟩ := found
    have spells : Spells negative digits text := decimalParts?_eq_some.mp parts
    have beyond : ¬fitsWord (withSign negative (placeValue digits)) = true :=
      fun fits => unfit _ ⟨negative, digits, spells, rfl⟩ (fitsWord_iff.mp fits)
    rw [decimal?_of_spells spells short, if_neg beyond]

end
end Numeral

namespace Value
open Numeral

/-- Four thousand three hundred and one nines are a numeral, of a number that no word holds, and yet have
no value: they are too many to be read. -/
theorem long_numeral_unclassified :
    let token := String.ofList (List.replicate 4301 '9')
    (∃ number, Denotes token number ∧ ¬FitsWord number) ∧ classify .empty 64 token = .error ⟨4301⟩ := by
  intro token
  have long : digitLimit < (List.replicate 4301 '9').length := by
    rw [List.length_replicate]
    decide
  have spells : Spells false (List.replicate 4301 '9') token := by
    refine ⟨[], .none, String.toList_ofList, List.ne_nil_of_length_pos (Nat.zero_lt_of_lt long), ?_⟩
    intro digit member
    rw [List.eq_of_mem_replicate member]
    rfl
  have large : 10 ^ 20 ≤ placeValue (List.replicate 4301 '9') := by
    have many : 20 ≤ (List.replicate 4300 '9').length := by
      rw [List.length_replicate]
      decide
    exact (Nat.pow_le_pow_right (by decide) many).trans (pow_le_placeValue (by decide) _)
  have unfit : ¬FitsWord (withSign false (placeValue (List.replicate 4301 '9'))) := by
    rw [withSign, if_neg Bool.false_ne_true]
    rintro ⟨-, high⟩
    omega
  exact ⟨⟨_, ⟨false, _, spells, rfl⟩, unfit⟩, classify_eq_error.mpr ⟨rfl, false, _, spells, long, List.length_replicate⟩⟩

/-- An operand token has a value, whatever the tables, unless it is no register and a numeral with more
digits than are read. A register has the width of the table. Of all other tokens those are constants that
denote a number which a word holds, and the rest are unknown, any number beyond a word included. -/
theorem classify_unless_too_long (registers : Table Int) (defaultSize : Int) (token : String) :
    (∀ refusal, classify registers defaultSize token = .error refusal ↔
      registers.get? token = none ∧ TooLong token refusal.digits) ∧
    (∀ width, registers.get? token = some width →
      classify registers defaultSize token = .ok { name := token, size := width, location := .register }) ∧
    (registers.get? token = none → (∀ count, ¬TooLong token count) →
      (∀ number, Denotes token number → FitsWord number →
        classify registers defaultSize token =
          .ok { name := token, size := defaultSize, location := .constant, literal := number }) ∧
      ((∀ number, Denotes token number → ¬FitsWord number) →
        classify registers defaultSize token = .ok { name := token, size := defaultSize, location := .unknown })) := by
  refine ⟨fun refusal => classify_eq_error, fun width found => ?_, fun absent short => ⟨?_, fun unfit => ?_⟩⟩
  · exact classify_eq_ok.mpr (Or.inl ⟨width, found, rfl⟩)
  · intro number denotes fits
    have read := decimal?_of_denotes denotes fits short
    exact classify_eq_ok.mpr (Or.inr (Or.inl ⟨number, absent, read, rfl⟩))
  · have unread := decimal?_of_unfit unfit short
    exact classify_eq_ok.mpr (Or.inr (Or.inr ⟨absent, unread, rfl⟩))

end Value
end EsilLowering
