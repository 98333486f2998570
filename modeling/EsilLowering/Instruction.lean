import EsilLowering.Operator
import EsilLowering.Value

/-! # Instructions

One step of evaluation: an operator, a destination and two operands. Assignment has no destination and
writes its second operand to its first; an operator with fewer operands leaves the second one null. -/

namespace EsilLowering

/-- A three-operand instruction. -/
structure Instruction where
  opcode : Operator
  destination : Value
  first : Value
  second : Value
  deriving DecidableEq, Repr

namespace Instruction

/-- Whether an instruction assigns. -/
def isAssignment (instruction : Instruction) : Bool := instruction.opcode.isAssignment

/-- An instruction as text: `a = b` for an assignment, else `d = a op b`. A null operand has an empty
name, and the spaces around it stay. -/
def text (instruction : Instruction) : String :=
  let { opcode, destination, first, second } := instruction
  if opcode.isAssignment then first.name ++ " = " ++ second.name
  else destination.name ++ " = " ++ first.name ++ " " ++ opcode.symbol ++ " " ++ second.name

end Instruction
end EsilLowering
