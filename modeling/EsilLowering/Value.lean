import EsilLowering.Numeral.Decimal
import EsilLowering.Numeral.Hexadecimal
import EsilLowering.Table

/-! # Values

A value is what an instruction reads or writes: a register, a constant, the result of an earlier
instruction, a name that could not be classified, or nothing. -/

namespace EsilLowering

/-- Where a value lives. No token is classified as memory; the place is reserved. -/
inductive Location where
  | memory
  | register
  | constant
  | temporary
  | unknown
  | null
  deriving DecidableEq, Repr

/-- The word for a place. -/
def Location.word : Location → String
  | memory => "memory"
  | register => "register"
  | constant => "constant"
  | temporary => "temporary"
  | unknown => "unknown"
  | null => "null"

/-- The place that a word names. -/
def Location.ofWord? (word : String) : Option Location :=
  [memory, register, constant, temporary, unknown, null].find? (·.word == word)

/-- A value: its text, its width in bits, where it lives, the number that a constant stands for and a
bit mask that is kept for later use. -/
structure Value where
  name : String
  size : Int
  location : Location
  literal : Int := 0
  typeset : Nat := 0
  deriving DecidableEq, Repr

namespace Value

/-- No value. -/
def null : Value := { name := "", size := 0, location := .null }

/-- What every temporary's name begins with. -/
def temporaryStem : String := "tmp_"

/-- The temporary with an index, which its name gives in base sixteen. -/
def temporary (index : Int) : Value :=
  { name := temporaryStem ++ Numeral.hexadecimal index, size := 0, location := .temporary }

/-- Whether there is no value. -/
def isNull (value : Value) : Bool := value.location == .null

/-- The value of an operand token: a register of the table has the table's width; a decimal numeral
that fits a word is a constant and anything else is unknown, both of the default width. -/
def classify (registers : Table Int) (defaultSize : Int) (token : String) :
    Except Numeral.TooManyDigits Value :=
  match registers.get? token with
  | some width => .ok { name := token, size := width, location := .register }
  | none =>
    (Numeral.decimal? token).map fun
      | some number => { name := token, size := defaultSize, location := .constant, literal := number }
      | none => { name := token, size := defaultSize, location := .unknown }

end Value
end EsilLowering
