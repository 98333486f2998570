/-! # Decimal numerals

An optional sign and one or more ASCII digits. A numeral is converted to a number only while it has at
most `digitLimit` digits, and the number is kept only if it fits a signed 64-bit word. A number of any
size is converted to text under the same limit. -/

namespace EsilLowering.Numeral

/-- The most digits, leading zeros included, of a numeral that is converted to a number, and of a number
that is converted to text. -/
def digitLimit : Nat := 4300

/-- A numeral has more digits than are converted. -/
structure TooManyDigits where
  digits : Nat
  deriving DecidableEq, Repr

/-- The refusal in words. -/
def TooManyDigits.message (refusal : TooManyDigits) : String :=
  s!"Exceeds the limit ({digitLimit} digits) for integer string conversion: " ++
    s!"value has {refusal.digits} digits; use sys.set_int_max_str_digits() to increase the limit"

/-- Whether the first character is a minus sign, and the characters after a sign, if there is one. -/
def splitSign : List Char → Bool × List Char
  | '-' :: rest => (true, rest)
  | '+' :: rest => (false, rest)
  | chars => (false, chars)

/-- A size with its sign. -/
def withSign (negative : Bool) (size : Nat) : Int :=
  if negative then -(size : Int) else size

/-- The sign and the digits of a decimal numeral. -/
def decimalParts? (text : String) : Option (Bool × List Char) :=
  let (negative, digits) := splitSign text.toList
  if digits ≠ [] ∧ digits.all Char.isDigit then some (negative, digits) else none

/-- Whether a number fits a signed 64-bit word. -/
def fitsWord (number : Int) : Bool :=
  -0x8000000000000000 ≤ number && number ≤ 0x7fffffffffffffff

/-- The number that a decimal numeral gives, if the text is one and the number fits a signed 64-bit
word. -/
def decimal? (text : String) : Except TooManyDigits (Option Int) :=
  match decimalParts? text with
  | none => .ok none
  | some (negative, digits) =>
    if digitLimit < digits.length then .error ⟨digits.length⟩
    else
      let number := withSign negative (Nat.ofDigitChars 10 digits 0)
      .ok (if fitsWord number then some number else none)

/-- The decimal text of an integer. An integer with more digits than are converted has none. -/
def text? (number : Int) : Option String :=
  if digitLimit < (Nat.toDigits 10 number.natAbs).length then none else some (toString number)

/-- The refusal to convert an integer to text, in words. -/
def unwritableMessage : String :=
  s!"Exceeds the limit ({digitLimit} digits) for integer string conversion; " ++
    "use sys.set_int_max_str_digits() to increase the limit"

end EsilLowering.Numeral
