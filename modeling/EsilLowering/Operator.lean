import EsilLowering.Table

/-! # Operators

An operator has a symbol and an arity. A table of operators says which tokens are operators; a token
may name an operator with another symbol. -/

namespace EsilLowering

/-- How many operands an operator has. The three-operand form is reserved: no instruction expresses it. -/
inductive Arity where
  | nullary
  | unary
  | binary
  | ternary
  deriving DecidableEq, Repr

/-- The arity as a number. -/
def Arity.toNat : Arity → Nat
  | nullary => 0
  | unary => 1
  | binary => 2
  | ternary => 3

/-- The arity that a number stands for. -/
def Arity.ofInt? : Int → Option Arity
  | 0 => some nullary
  | 1 => some unary
  | 2 => some binary
  | 3 => some ternary
  | _ => none

/-- An operator: the symbol that instructions show, and its arity. -/
structure Operator where
  symbol : String
  arity : Arity
  deriving DecidableEq, Repr

namespace Operator

/-- The character that marks assignment, alone or at the end of a composite token. -/
def assignmentMark : Char := '='

/-- The symbol of plain assignment. -/
def assignmentSymbol : String := "="

/-- Plain assignment. -/
def assignment : Operator := ⟨assignmentSymbol, .binary⟩

/-- Whether an operator assigns: its symbol decides, whatever token names it. -/
def isAssignment (operator : Operator) : Bool := operator.symbol == assignmentSymbol

/-- The operators that every profile has unless it brings its own: comparison, shifts and bit
operations, assignment and arithmetic on two operands, the conditional, negation, decrement and
increment on one, and the end of a block. -/
def builtin : Table Operator :=
  let binary := ["==", "<", ">", "<=", ">=", "<<", ">>", "&", "|", "^", "=", "*", "+", "-", "/", "%"]
  let unary := ["?\x7b", "!", "--", "++"]
  let nullary := ["\x7d"]
  .ofList (binary.map (fun symbol => (symbol, ⟨symbol, .binary⟩)) ++
    unary.map (fun symbol => (symbol, ⟨symbol, .unary⟩)) ++
    nullary.map (fun symbol => (symbol, ⟨symbol, .nullary⟩)))

end Operator
end EsilLowering
