import EsilLowering.Event
import EsilLowering.Problem
import EsilLowering.Profile
import EsilLowering.Temporaries
import EsilLowering.Text.Fields

/-! # The operand machine

The machine reads one token at a time. An operand token goes onto the stack. An operator takes its
operands off the stack, becomes an instruction and leaves the result on the stack. A composite token,
such as `+=`, is a chain of operators, each of which assigns its result to its first operand.

A token that cannot do its work leaves the machine as the last completed piece of it left it. -/

namespace EsilLowering

/-- The stack, its top first, and the temporaries handed out. -/
structure Machine where
  stack : List Value := []
  temporaries : Temporaries := {}
  deriving DecidableEq, Repr

/-- Why a token did not do its work. -/
inductive Halt where
  /-- There is a problem with the token. -/
  | problem (problem : Problem)
  /-- The token is a numeral too long to be read. -/
  | tooManyDigits (refusal : Numeral.TooManyDigits)
  deriving DecidableEq, Repr

/-- What some work of the machine came to: the state it leaves, the instructions and events it gave, in
order, and what cut it short, if anything did. -/
structure Step where
  machine : Machine
  instructions : List Instruction := []
  events : List Event := []
  halt? : Option Halt := none
  deriving DecidableEq, Repr

/-- Goes on from where some work ended, unless it was cut short. -/
def Step.andThen (step : Step) (next : Machine → Step) : Step :=
  match step.halt? with
  | some _ => step
  | none =>
    let rest := next step.machine
    { rest with
      instructions := step.instructions ++ rest.instructions
      events := step.events ++ rest.events }

theorem Step.andThen_of_halt {step : Step} {next : Machine → Step} {halt : Halt} (h : step.halt? = some halt) :
    step.andThen next = step := by
  simp [andThen, h]

theorem Step.andThen_of_done {step : Step} {next : Machine → Step} (h : step.halt? = none) :
    step.andThen next =
      { next step.machine with
        instructions := step.instructions ++ (next step.machine).instructions
        events := step.events ++ (next step.machine).events } := by
  simp [andThen, h]

theorem Step.andThen_assoc (step : Step) (next later : Machine → Step) :
    (step.andThen next).andThen later = step.andThen fun machine => (next machine).andThen later := by
  cases h : step.halt? with
  | some halt => rw [andThen_of_halt h, andThen_of_halt h, andThen_of_halt h]
  | none =>
    cases hnext : (next step.machine).halt? with
    | some halt => simp [andThen, h, hnext]
    | none => simp [andThen, h, hnext, List.append_assoc]

/-- The operands that an operator takes off a stack, and what stays below them. -/
structure Operands where
  first : Value
  second : Value
  below : List Value
  deriving DecidableEq, Repr

/-- The operands of an operator. The top of the stack is the second operand of a binary operator and
the first of any other; an operator with no operands of its own still takes the value it closes over. -/
def Operator.operands (operator : Operator) (stack : List Value) : Except Problem Operands :=
  match operator.arity, stack with
  | .ternary, _ => .error (.unsupportedArity operator.symbol 3)
  | .binary, second :: first :: below => .ok ⟨first, second, below⟩
  | .binary, _ => .error (.stackUnderflow operator.symbol 2 stack.length)
  | _, first :: below => .ok ⟨first, .null, below⟩
  | _, [] => .error (.stackUnderflow operator.symbol 1 0)

/-- Operands are missing exactly if no instruction expresses the operator or the stack is too low. -/
theorem Operator.operands_isOk (operator : Operator) (stack : List Value) :
    (operator.operands stack).isOk ↔
      operator.arity ≠ .ternary ∧ max operator.arity.toNat 1 ≤ stack.length := by
  obtain ⟨symbol, arity⟩ := operator
  cases arity <;> rcases stack with _ | ⟨a, _ | ⟨b, below⟩⟩ <;>
    simp [operands, Except.isOk, Except.toBool, Arity.toNat]

/-- The pieces of a composite token: its fields between assignment marks, without an empty last one. -/
def compositePieces (token : String) : List String :=
  let pieces := Text.fields Operator.assignmentMark token
  if pieces.getLast? = some "" then pieces.dropLast else pieces

namespace Machine

/-- No work, because of a problem. -/
def refuse (machine : Machine) (problem : Problem) : Step :=
  { machine, halt? := some (.problem problem) }

/-- Emits the instruction of an operator and puts its result on a stack. Assignment has no result; any
other operator has the next temporary. -/
def emit (machine : Machine) (operator : Operator) (operands : Operands) (below : List Value) : Step :=
  let (destination, temporaries) :=
    if operator.isAssignment then (.null, machine.temporaries) else machine.temporaries.next
  let instruction : Instruction := ⟨operator, destination, operands.first, operands.second⟩
  { machine := { stack := destination :: below, temporaries }
    instructions := [instruction]
    events := [.emitted instruction] }

@[simp] theorem emit_halt? (machine : Machine) (operator : Operator) (operands : Operands)
    (below : List Value) : (machine.emit operator operands below).halt? = none := by
  unfold emit
  split
  rfl

/-- Applies an operator to the operands on the stack. -/
def apply (operator : Operator) (machine : Machine) : Step :=
  match operator.operands machine.stack with
  | .error problem => machine.refuse problem
  | .ok operands => machine.emit operator operands operands.below

/-- Applies an operator, puts its first operand back beneath the result, and assigns. -/
def applyAndAssign (assignment operator : Operator) (machine : Machine) : Step :=
  match operator.operands machine.stack with
  | .error problem => machine.refuse problem
  | .ok operands =>
    (machine.emit operator operands (operands.first :: operands.below)).andThen (apply assignment)

/-- Works through the pieces of a composite token. -/
def applyPieces (dialect : Dialect) (composite : String) : List String → Machine → Step
  | [], machine => { machine }
  | piece :: rest, machine =>
    match dialect.operators.get? piece with
    | none => machine.refuse (.unknownOperator piece composite)
    | some operator =>
      (machine.applyAndAssign dialect.assignment operator).andThen (applyPieces dialect composite rest)

/-- Puts an operand token on the stack. -/
def push (dialect : Dialect) (token : String) (machine : Machine) : Step :=
  match Value.classify dialect.registers dialect.defaultSize token with
  | .error refusal => { machine, halt? := some (.tooManyDigits refusal) }
  | .ok value => { machine := { machine with stack := value :: machine.stack }, events := [.pushed value] }

/-- Reads a token: an operator if the table has it, a composite token if it holds the assignment mark,
else an operand. -/
def read (dialect : Dialect) (token : String) (machine : Machine) : Step :=
  match dialect.operators.get? token with
  | some operator => machine.apply operator
  | none =>
    if Operator.assignmentMark ∈ token.toList then
      machine.applyPieces dialect token (compositePieces token)
    else machine.push dialect token

end Machine
end EsilLowering
