import EsilLowering.Instruction

/-! # Events

What lowering reports while it works: operands pushed, instructions emitted, tokens skipped, an
expression given up, an expression done. Each event has a level and one line of text. -/

namespace EsilLowering

/-- How lowering an expression came out. -/
inductive Status where
  /-- Every token did its work. -/
  | success
  /-- Every token was looked at and some did not do their work. -/
  | incomplete
  /-- The tokens from some point on were not looked at. -/
  | failed
  deriving DecidableEq, Repr

/-- The word for a status. -/
def Status.word : Status → String
  | success => "success"
  | incomplete => "partial"
  | failed => "failed"

/-- How much attention an event asks for. -/
inductive Level where
  | debug
  | warning
  | error
  deriving DecidableEq, Repr

/-- The word for a level. -/
def Level.word : Level → String
  | debug => "DEBUG"
  | warning => "WARNING"
  | error => "ERROR"

/-- Something that happened while lowering. -/
inductive Event where
  /-- An operand went onto the stack. -/
  | pushed (value : Value)
  /-- An instruction came out. -/
  | emitted (instruction : Instruction)
  /-- A token was left undone. -/
  | skipped (expression : String) (position : Nat) (message : String)
  /-- The rest of an expression was given up. -/
  | stopped (expression : String) (position : Nat) (message : String)
  /-- An expression was done with. -/
  | finished (expression : String) (status : Status) (instructions depth : Nat)
  deriving DecidableEq, Repr

namespace Event

/-- The level of an event. -/
def level : Event → Level
  | pushed _ | emitted _ | finished .. => .debug
  | skipped .. => .warning
  | stopped .. => .error

/-- An event in words. -/
def text : Event → String
  | pushed value => s!"Push {value.location.word} operand '{value.name}'"
  | emitted instruction => s!"Emit '{instruction.text}'"
  | skipped expression position message => s!"Skipped token {position} of '{expression}': {message}"
  | stopped expression position message =>
    s!"Translation of '{expression}' stopped at token {position}: {message}"
  | finished expression status instructions depth =>
    s!"Parsed '{expression}': {status.word}, {instructions} instruction(s), stack depth {depth}"

/-- An event as a line of a log. -/
def line (event : Event) : String :=
  s!"{event.level.word}: esil_ir.parser: {event.text}"

end Event
end EsilLowering
