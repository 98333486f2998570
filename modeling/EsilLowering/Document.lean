import EsilLowering.Json
import EsilLowering.Lowering

/-! # The document of a run

What a run over several expressions came to, as one JSON document: for each expression its status, its
instructions with their operands, its diagnostics and how far it was read. -/

namespace EsilLowering

/-- A value as an operand of a document. -/
def Value.json (value : Value) : Json :=
  .object [
    ("name", .text value.name),
    ("size", .integer value.size),
    ("location", .text value.location.word),
    ("value", .integer value.literal)]

/-- An instruction with its text, its operator and its three places. -/
def Instruction.json (instruction : Instruction) : Json :=
  .object [
    ("text", .text instruction.text),
    ("opcode", .text instruction.opcode.symbol),
    ("arity", .integer instruction.opcode.arity.toNat),
    ("destination", instruction.destination.json),
    ("operand_1", instruction.first.json),
    ("operand_2", instruction.second.json)]

/-- A diagnostic with its bare message. -/
def Diagnostic.json (diagnostic : Diagnostic) : Json :=
  .object [
    ("kind", .text diagnostic.kind.word),
    ("message", .text diagnostic.message),
    ("token", .text diagnostic.token),
    ("position", .integer diagnostic.position)]

/-- What came of one expression. -/
def Lowering.json (lowering : Lowering) : Json :=
  .object [
    ("expression", .text lowering.expression),
    ("status", .text lowering.status.word),
    ("instructions", .list (lowering.instructions.map Instruction.json)),
    ("diagnostics", .list (lowering.diagnostics.map Diagnostic.json)),
    ("tokens_consumed", .integer lowering.tokensConsumed)]

/-- What came of all expressions, under the architecture they were lowered for. -/
def runDocument (architecture : String) (lowerings : List Lowering) : Json :=
  .object [
    ("architecture", .text architecture),
    ("results", .list (lowerings.map Lowering.json))]

end EsilLowering
