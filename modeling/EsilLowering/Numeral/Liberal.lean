import EsilLowering.Numeral.Decimal
import EsilLowering.Text.Blank
import EsilLowering.Text.DecimalDigit

/-! # Integers as people write them

Settings are read more liberally than operands: space around the numeral, digits of any script and
single underscores between digits are accepted, and the number may be of any size. -/

namespace EsilLowering.Numeral

/-- The digits of a numeral in which single underscores may stand between two digits; `afterDigit`
says whether a digit came just before. -/
def groupedDigits? (afterDigit : Bool) : List Char → Option (List Nat)
  | [] => if afterDigit then some [] else none
  | c :: rest =>
    match Text.decimalDigit? c with
    | some digit => (groupedDigits? true rest).map (digit :: ·)
    | none => if c = '_' ∧ afterDigit then groupedDigits? false rest else none

/-- The number that digits give, the most significant first. -/
def ofDigits (digits : List Nat) : Nat :=
  digits.foldl (fun number digit => 10 * number + digit) 0

/-- The integer that a text gives in the liberal form. -/
def liberal? (text : String) : Option Int :=
  let (negative, numeral) := splitSign (Text.trimmed Text.isSpace text.toList)
  match groupedDigits? false numeral with
  | none => none
  | some digits =>
    if digitLimit < digits.length then none else some (withSign negative (ofDigits digits))

end EsilLowering.Numeral
