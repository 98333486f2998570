import EsilLowering.Lowerer
import EsilLowering.Numeral.Liberal

/-! # Settings

The settings of a run, as the environment gives them. A variable that is missing, empty or makes no
sense leaves its setting alone. -/

namespace EsilLowering

/-- The architecture to lower for, the default width in place of the profile's, and whether the first
problem ends the run. -/
structure Settings where
  architecture : String := Profile.defaultName
  defaultSize? : Option Int := none
  strict : Bool := false
  deriving DecidableEq, Repr

namespace Settings

/-- The variable that names the architecture. -/
def architectureVariable : String := "ESIL_IR_ARCH"

/-- The variable that gives the default width. -/
def defaultSizeVariable : String := "ESIL_IR_DEFAULT_SIZE"

/-- The variable that asks for strictness. -/
def strictVariable : String := "ESIL_IR_STRICT"

/-- The words that ask for strictness, in lower case. -/
def affirmations : List String := ["1", "true", "yes", "on"]

/-- The width that a text gives: a positive integer. -/
def positiveSize? (text : String) : Option Int :=
  (Numeral.liberal? text).filter (0 < ·)

/-- The settings that an environment gives. Case counts for the architecture only. -/
def ofEnvironment (environment : Table String) : Settings :=
  { architecture := ((environment.get? architectureVariable).filter (· ≠ "")).getD Profile.defaultName
    defaultSize? := (environment.get? defaultSizeVariable).bind positiveSize?
    strict := (environment.get? strictVariable).any fun text => affirmations.contains text.toLower }

/-- The fresh lowerer that settings ask for. -/
def lowerer (settings : Settings) (registry : Registry) : Except Fault Lowerer :=
  (registry.find settings.architecture).map fun profile =>
    .ofProfile profile settings.defaultSize? settings.strict

end Settings
end EsilLowering
