import EsilLowering.Numeral.Decimal
import EsilLowering.Problem
import EsilLowering.Text.Fields
import EsilLowering.Text.Utf8

/-! # Faults

Everything that can end an operation instead of an answer: the library's own errors, values that are
refused, texts that cannot be decoded, and failures of the surroundings. -/

namespace EsilLowering

/-- Why a value is refused. -/
inductive Refusal where
  /-- A decimal numeral is too long to be converted. -/
  | tooManyDigits (refusal : Numeral.TooManyDigits)
  /-- An integer has too many digits to be written. -/
  | unwritable
  /-- No arity has this number. -/
  | arity (number : Int)
  /-- The architecture's name is taken. -/
  | architectureTaken (name : String)
  /-- The built-in architecture cannot be removed. -/
  | architectureBuiltin (name : String)
  /-- Any other reason. -/
  | other (message : String)
  deriving DecidableEq, Repr

/-- A refusal in words. -/
def Refusal.message : Refusal → String
  | tooManyDigits refusal => refusal.message
  | unwritable => Numeral.unwritableMessage
  | arity number => s!"{number} is not a valid Arity"
  | architectureTaken name => s!"architecture '{name}' is already registered"
  | architectureBuiltin name => s!"cannot remove built-in architecture '{name}'"
  | other message => message

/-- What ended an operation. -/
inductive Fault where
  /-- An error of the library that says no more than its message. -/
  | plain (message : String)
  /-- A lowering error. -/
  | lowering (error : LoweringError)
  /-- A setting cannot be met. -/
  | configuration (message : String)
  /-- No profile has the name; those that exist are listed. -/
  | unknownArchitecture (name : String) (available : List String)
  /-- A value is refused. -/
  | refused (refusal : Refusal)
  /-- Bytes are no text. -/
  | undecodable (fault : Text.Utf8.Fault)
  /-- A file is missing. -/
  | missingFile (message : String)
  /-- A file may not be read. -/
  | forbiddenFile (message : String)
  /-- Anything else. -/
  | unexpected (message : String)
  deriving DecidableEq, Repr

/-- The families of faults. Those of the library form a tree under `library`. -/
inductive FaultFamily where
  | library
  | lowering
  | stackUnderflow
  | unknownOperator
  | unsupportedArity
  | configuration
  | unknownArchitecture
  | refused
  | undecodable
  | missingFile
  | forbiddenFile
  | unexpected
  deriving DecidableEq, Repr

/-- The families that a family belongs to, the nearest first. -/
def FaultFamily.ancestors : FaultFamily → List FaultFamily
  | lowering | configuration => [library]
  | stackUnderflow | unknownOperator | unsupportedArity => [lowering, library]
  | unknownArchitecture => [configuration, library]
  | library | refused | undecodable | missingFile | forbiddenFile | unexpected => []

namespace Fault

/-- The narrowest family of a fault. -/
def family : Fault → FaultFamily
  | plain _ => .library
  | lowering { cause := .found (.stackUnderflow ..), .. } => .stackUnderflow
  | lowering { cause := .found (.unknownOperator ..), .. } => .unknownOperator
  | lowering { cause := .found (.unsupportedArity ..), .. } => .unsupportedArity
  | lowering { cause := .remark .., .. } => .lowering
  | configuration _ => .configuration
  | unknownArchitecture .. => .unknownArchitecture
  | refused _ => .refused
  | undecodable _ => .undecodable
  | missingFile _ => .missingFile
  | forbiddenFile _ => .forbiddenFile
  | unexpected _ => .unexpected

/-- Whether a fault belongs to a family. -/
def isIn (fault : Fault) (family : FaultFamily) : Bool :=
  (fault.family :: fault.family.ancestors).contains family

/-- The full text of a fault. -/
def text : Fault → String
  | lowering error => error.text
  | unknownArchitecture name available =>
    let listing := if available.isEmpty then "" else " (available: " ++ ", ".intercalate available ++ ")"
    s!"unknown architecture '{name}'" ++ listing
  | refused refusal => refusal.message
  | undecodable fault => fault.message
  | plain message | configuration message | missingFile message | forbiddenFile message
  | unexpected message => message

end Fault
end EsilLowering
