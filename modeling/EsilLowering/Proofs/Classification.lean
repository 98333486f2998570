import EsilLowering.Value
import Mathlib.Algebra.Group.Int.Defs

/-! # What an operand token is

A decimal numeral is an optional sign and then digits, at least one, and nothing else. An operand token
is a register if the table has it; else a constant if it is a numeral whose number fits a word, and
unknown if it is anything else. There is no answer only for a numeral that is too long to be read. -/

namespace EsilLowering
namespace Numeral

/-! ### Numerals -/

/-- What stands before the digits of a numeral: nothing or one sign, of which a minus is negative. -/
inductive Sign : Bool → List Char → Prop where
  | none : Sign false []
  | plus : Sign false ['+']
  | minus : Sign true ['-']

/-- A text is a decimal numeral with these digits, and it is `negative` that a minus stands before them. -/
def Spells (negative : Bool) (digits : List Char) (text : String) : Prop :=
  ∃ sign, Sign negative sign ∧ text.toList = sign ++ digits ∧ digits ≠ [] ∧ ∀ digit ∈ digits, digit.isDigit = true

/-- A decimal numeral with more digits than are read, and how many it has. -/
def TooLong (text : String) (count : Nat) : Prop :=
  ∃ negative digits, Spells negative digits text ∧ digitLimit < digits.length ∧ digits.length = count

section
variable {negative : Bool} {digits : List Char} {text : String}

theorem splitSign_eq (chars : List Char) :
    ∃ sign, Sign (splitSign chars).1 sign ∧ chars = sign ++ (splitSign chars).2 := by
  unfold splitSign
  split
  · exact ⟨_, .minus, rfl⟩
  · exact ⟨_, .plus, rfl⟩
  · exact ⟨_, .none, rfl⟩

theorem splitSign_append {sign body : List Char} (hsign : Sign negative sign)
    (unsigned : ∀ c ∈ body.head?, c ≠ '-' ∧ c ≠ '+') : splitSign (sign ++ body) = (negative, body) := by
  cases hsign with
  | plus | minus => rfl
  | none =>
    rw [List.nil_append]
    unfold splitSign
    split
    · exact absurd rfl (unsigned '-' rfl).1
    · exact absurd rfl (unsigned '+' rfl).2
    · rfl

/-- A digit is no sign, so digits begin where the sign ends. -/
theorem unsigned_of_isDigit (hdigits : ∀ digit ∈ digits, digit.isDigit = true) :
    ∀ c ∈ digits.head?, c ≠ '-' ∧ c ≠ '+' := by
  intro c first
  have digit := hdigits c (List.mem_of_mem_head? first)
  constructor <;> rintro rfl <;> cases digit

theorem decimalParts?_eq_some : decimalParts? text = some (negative, digits) ↔ Spells negative digits text := by
  constructor
  · intro h
    obtain ⟨sign, hsign, hchars⟩ := splitSign_eq text.toList
    simp only [decimalParts?] at h
    split at h
    · rename_i hdigits
      cases h
      exact ⟨sign, hsign, hchars, hdigits.1, List.all_eq_true.mp hdigits.2⟩
    · cases h
  · rintro ⟨sign, hsign, hchars, hne, hdigits⟩
    simp only [decimalParts?, hchars, splitSign_append hsign (unsigned_of_isDigit hdigits)]
    exact if_pos ⟨hne, List.all_eq_true.mpr hdigits⟩

theorem decimal?_eq_error {refusal : TooManyDigits} : decimal? text = .error refusal ↔ TooLong text refusal.digits := by
  obtain ⟨count⟩ := refusal
  unfold decimal?
  cases parts : decimalParts? text with
  | none =>
    refine ⟨(nomatch ·), ?_⟩
    rintro ⟨negative, digits, spells, -⟩
    rw [decimalParts?_eq_some.mpr spells] at parts
    cases parts
  | some found =>
    obtain ⟨negative, digits⟩ := found
    constructor
    · intro h
      simp only at h
      split at h
      · rename_i hlong
        cases h
        exact ⟨negative, digits, decimalParts?_eq_some.mp parts, hlong, rfl⟩
      · cases h
    · rintro ⟨_, _, spells, hlong, rfl⟩
      rw [decimalParts?_eq_some.mpr spells] at parts
      cases parts
      exact if_pos hlong

theorem TooLong.lt_length {count : Nat} (h : TooLong text count) : digitLimit < text.toList.length := by
  obtain ⟨negative, digits, ⟨sign, -, hchars, -⟩, hlong, -⟩ := h
  rw [hchars, List.length_append]
  omega

theorem decimal?_fits {number : Int} (h : decimal? text = .ok (some number)) : fitsWord number = true := by
  unfold decimal? at h
  split at h
  · cases h
  · split at h
    · cases h
    · simp only [Except.ok.injEq] at h
      split at h
      · rename_i hfits
        cases h
        exact hfits
      · cases h

end

theorem fitsWord_iff {number : Int} : fitsWord number = true ↔ -2 ^ 63 ≤ number ∧ number ≤ 2 ^ 63 - 1 := by
  simp [fitsWord]

end Numeral

/-! ### Operand tokens -/

namespace Value
variable {registers : Table Int} {defaultSize : Int} {token : String} {value : Value}

theorem classify_eq_error {refusal : Numeral.TooManyDigits} : classify registers defaultSize token = .error refusal ↔
    registers.get? token = none ∧ Numeral.TooLong token refusal.digits := by
  rw [← Numeral.decimal?_eq_error]
  unfold classify
  cases found : registers.get? token with
  | some width => simp
  | none => cases numeral : Numeral.decimal? token <;> simp [Except.map]

/-- An operand token has one of three values. -/
theorem classify_eq_ok : classify registers defaultSize token = .ok value ↔
    (∃ width, registers.get? token = some width ∧ value = { name := token, size := width, location := .register }) ∨
    (∃ number, registers.get? token = none ∧ Numeral.decimal? token = .ok (some number) ∧
      value = { name := token, size := defaultSize, location := .constant, literal := number }) ∨
    (registers.get? token = none ∧ Numeral.decimal? token = .ok none ∧
      value = { name := token, size := defaultSize, location := .unknown }) := by
  unfold classify
  cases found : registers.get? token with
  | some width => simp [eq_comm]
  | none =>
    cases numeral : Numeral.decimal? token with
    | error refusal => simp [Except.map]
    | ok number? => cases number? <;> simp [Except.map, eq_comm]

section
variable (h : classify registers defaultSize token = .ok value)
include h

theorem classify_name : value.name = token := by
  rcases classify_eq_ok.mp h with ⟨_, -, rfl⟩ | ⟨_, -, -, rfl⟩ | ⟨-, -, rfl⟩ <;> rfl

theorem classify_typeset : value.typeset = 0 := by
  rcases classify_eq_ok.mp h with ⟨_, -, rfl⟩ | ⟨_, -, -, rfl⟩ | ⟨-, -, rfl⟩ <;> rfl

theorem classify_location : value.location ≠ .temporary := by
  rcases classify_eq_ok.mp h with ⟨_, -, rfl⟩ | ⟨_, -, -, rfl⟩ | ⟨-, -, rfl⟩ <;> exact (nomatch ·)

theorem classify_isNull : value.isNull = false := by
  rcases classify_eq_ok.mp h with ⟨_, -, rfl⟩ | ⟨_, -, -, rfl⟩ | ⟨-, -, rfl⟩ <;> rfl

end

/-- Whatever the tables, an operand token has a value unless it is a numeral that is too long. -/
theorem exists_classify (registers : Table Int) (defaultSize : Int)
    (short : ∀ count, ¬Numeral.TooLong token count) :
    ∃ value, classify registers defaultSize token = .ok value := by
  cases classified : classify registers defaultSize token with
  | ok value => exact ⟨value, rfl⟩
  | error refusal => exact absurd (classify_eq_error.mp classified).2 (short _)

end Value
end EsilLowering
