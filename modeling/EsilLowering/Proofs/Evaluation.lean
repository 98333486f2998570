import EsilLowering.Lowering
import Mathlib.Data.List.Forall2
import Mathlib.Logic.Function.Basic

/-! # Two evaluations

What an expression means, told twice. Instructions are executed over a store, which holds the content
of every value that is not a temporary, and over a scratch pad for the temporaries. A calculator works
through the tokens themselves: an operand token puts its cell on the stack, an operator takes its
operands, reads the cells among them as the store then is, and puts its result in their place. -/

namespace EsilLowering
universe u

/-- What the operators other than assignment compute: a binary one from two operands, another from
one. -/
structure Interpretation (α : Type u) where
  ofTwo : Operator → α → α → α
  ofOne : Operator → α → α

/-- A place of the store: any value but a temporary, the null value included. -/
structure Cell where
  value : Value
  lasting : value.location ≠ .temporary
  deriving DecidableEq

/-- The place of the null value. -/
def Cell.null : Cell := ⟨.null, by decide⟩

/-! ### Instructions -/

/-- What instructions read and write. Only temporaries that were written have content. -/
structure Memory (α : Type u) where
  store : Cell → α
  scratch : Value → Option α

namespace Memory
variable {α : Type u}

/-- A store and an empty scratch pad. -/
def ofStore (store : Cell → α) : Memory α := ⟨store, fun _ => none⟩

/-- The content of a value. -/
def read (memory : Memory α) (value : Value) : Option α :=
  if lasting : value.location ≠ .temporary then some (memory.store ⟨value, lasting⟩) else memory.scratch value

/-- The memory with other content for a value. -/
def write (memory : Memory α) (value : Value) (content : α) : Memory α :=
  if lasting : value.location ≠ .temporary then
    { memory with store := Function.update memory.store ⟨value, lasting⟩ content }
  else { memory with scratch := Function.update memory.scratch value (some content) }

/-- What an instruction that is no assignment computes. -/
def compute? (I : Interpretation α) (memory : Memory α) (instruction : Instruction) : Option α :=
  match instruction.opcode.arity with
  | .binary => do
    let first ← memory.read instruction.first
    let second ← memory.read instruction.second
    return I.ofTwo instruction.opcode first second
  | .nullary | .unary => do
    let first ← memory.read instruction.first
    return I.ofOne instruction.opcode first
  | .ternary => none

/-- Executes an instruction: an assignment writes the content of its second operand to its first, any
other instruction writes what it computes to its destination. -/
def execute (I : Interpretation α) (memory : Memory α) (instruction : Instruction) : Option (Memory α) :=
  if instruction.isAssignment then (memory.read instruction.second).map (memory.write instruction.first)
  else (memory.compute? I instruction).map (memory.write instruction.destination)

theorem read_cell (memory : Memory α) (cell : Cell) : memory.read cell.value = some (memory.store cell) :=
  dif_pos cell.lasting

theorem read_temporary (memory : Memory α) {value : Value} (h : value.location = .temporary) :
    memory.read value = memory.scratch value :=
  dif_neg (not_not_intro h)

theorem write_cell (memory : Memory α) (cell : Cell) (content : α) :
    memory.write cell.value content = { memory with store := Function.update memory.store cell content } :=
  dif_pos cell.lasting

theorem write_temporary (memory : Memory α) {value : Value} (h : value.location = .temporary) (content : α) :
    memory.write value content = { memory with scratch := Function.update memory.scratch value (some content) } :=
  dif_neg (not_not_intro h)

end Memory

/-! ### Tokens -/

/-- What stands on the stack of a calculator: a cell, to be read when an operator takes it, or the
result of an operator. -/
inductive Item (α : Type u) where
  | cell (cell : Cell)
  | result (content : α)

namespace Item
variable {α : Type u}

/-- The content of an item as the store is. -/
def content (store : Cell → α) : Item α → α
  | .cell place => store place
  | .result held => held

/-- The store after an item was assigned to. A result is no place; what is written to it is lost. -/
def assign (content : α) (store : Cell → α) : Item α → Cell → α
  | .cell place => Function.update store place content
  | .result _ => store

end Item

/-- A store, and a stack with its top first. -/
structure Calculator (α : Type u) where
  store : Cell → α
  stack : List (Item α) := []

namespace Calculator
variable {α : Type u}

/-- Evaluates an operator on the top of the stack, and says which item was its first operand. -/
def evaluate (I : Interpretation α) (operator : Operator) (calculator : Calculator α) :
    Option (Item α × Calculator α) :=
  let { store, stack } := calculator
  match operator.arity, stack with
  | .binary, second :: first :: below =>
    if operator.isAssignment then
      some (first, { store := first.assign (second.content store) store, stack := .cell .null :: below })
    else
      let content := I.ofTwo operator (first.content store) (second.content store)
      some (first, { store, stack := .result content :: below })
  | .nullary, first :: below | .unary, first :: below =>
    some (first, { store, stack := .result (I.ofOne operator (first.content store)) :: below })
  | _, _ => none

/-- Evaluates an operator and assigns the result to its first operand, which leaves a null. -/
def evaluateAndAssign (I : Interpretation α) (operator : Operator) (calculator : Calculator α) :
    Option (Calculator α) :=
  match calculator.evaluate I operator with
  | some (target, { store, stack := result :: below }) =>
    some { store := target.assign (result.content store) store, stack := .cell .null :: below }
  | _ => none

/-- Puts the cell of a value on the stack. -/
def push? (calculator : Calculator α) (value : Value) : Option (Calculator α) :=
  if lasting : value.location ≠ .temporary then
    some { calculator with stack := .cell ⟨value, lasting⟩ :: calculator.stack }
  else none

/-- Works through a piece of a composite token. -/
def readPiece (I : Interpretation α) (dialect : Dialect) (calculator : Calculator α) (piece : String) :
    Option (Calculator α) :=
  match dialect.operators.get? piece with
  | some operator => calculator.evaluateAndAssign I operator
  | none => none

/-- Works through a token. -/
def read (I : Interpretation α) (dialect : Dialect) (calculator : Calculator α) (token : String) :
    Option (Calculator α) :=
  match dialect.operators.get? token with
  | some operator => (calculator.evaluate I operator).map Prod.snd
  | none =>
    if Operator.assignmentMark ∈ token.toList then (compositePieces token).foldlM (readPiece I dialect) calculator
    else match Value.classify dialect.registers dialect.defaultSize token with
      | .ok value => calculator.push? value
      | .error _ => none

end Calculator

/-! ### What a value of the machine's stack stands for -/

section
variable {α : Type u} {memory : Memory α} {value : Value} {item : Item α}

/-- A value stands for the same cell, or as a temporary for the result it holds. -/
def Memory.Denotes (memory : Memory α) (value : Value) : Item α → Prop
  | .cell cell => value = cell.value
  | .result content => value.location = .temporary ∧ memory.scratch value = some content

/-- A value is a place just where an item is one, and then the same place. -/
def Value.Places (value : Value) : Item α → Prop
  | .cell cell => value = cell.value
  | .result _ => value.location = .temporary

theorem Memory.Denotes.places (h : memory.Denotes value item) : value.Places item := by
  cases item with
  | cell cell => exact h
  | result content => exact h.1

theorem Memory.Denotes.read (h : memory.Denotes value item) : memory.read value = some (item.content memory.store) := by
  cases item with
  | cell cell =>
    cases h
    exact memory.read_cell cell
  | result content =>
    rw [memory.read_temporary h.1]
    exact h.2

/-- Writing elsewhere does not change what a value stands for. -/
theorem Memory.Denotes.write (h : memory.Denotes value item) {place : Value}
    (elsewhere : place.location = .temporary → value ≠ place) (content : α) :
    (memory.write place content).Denotes value item := by
  cases item with
  | cell cell => exact h
  | result held =>
    by_cases hplace : place.location = .temporary
    · rw [memory.write_temporary hplace]
      exact ⟨h.1, (Function.update_of_ne (elsewhere hplace) _ _).trans h.2⟩
    · rw [memory.write_cell ⟨place, hplace⟩]
      exact h

theorem Value.Places.write_store (h : value.Places item) (memory : Memory α) (content : α) :
    (memory.write value content).store = item.assign content memory.store := by
  cases item with
  | cell cell =>
    cases h
    rw [memory.write_cell cell]
    rfl
  | result held =>
    rw [memory.write_temporary h]
    rfl

end
end EsilLowering
