import EsilLowering.Operator

/-! # Profiles

A dialect gives tokens their meaning: which are operators, which are registers and how wide an operand
is that is neither. A profile is a dialect with the name of the architecture it belongs to. -/

namespace EsilLowering

/-- The tables and the default width by which tokens are read. -/
structure Dialect where
  registers : Table Int
  operators : Table Operator := Operator.builtin
  defaultSize : Int := 64
  deriving DecidableEq

/-- The operator that a composite token assigns with: what the table has under `=`, else plain
assignment. -/
def Dialect.assignment (dialect : Dialect) : Operator :=
  (dialect.operators.get? Operator.assignmentSymbol).getD .assignment

/-- A dialect under the name of an architecture. -/
structure Profile extends Dialect where
  name : String
  deriving DecidableEq

namespace Profile

/-- The architecture that is meant when none is named. -/
def defaultName : String := "x86_64"

/-- The registers of the built-in profile, with their widths. -/
def builtinRegisters : Table Int :=
  .ofList (["rax", "rbx", "rcx", "rdx", "rsp", "rbp", "rsi", "rdi", "rip"].map fun name => (name, 64))

/-- The built-in profile. -/
def builtin : Profile := { name := defaultName, registers := builtinRegisters }

end Profile
end EsilLowering
