/-! # Problems

What can go wrong at a token, in causes. An error adds the place where it happened; a diagnostic is an
error that was noted while lowering went on. -/

namespace EsilLowering

/-- A token of an expression, by its position from zero on. -/
structure TokenLocation where
  expression : String
  position : Int
  token : String
  deriving DecidableEq, Repr

/-- The place as messages show it. -/
def TokenLocation.text (location : TokenLocation) : String :=
  s!"{location.expression}:{location.position}"

/-- What is wrong with a token. -/
inductive Problem where
  /-- An operator needs more operands than the stack holds. -/
  | stackUnderflow (operator : String) (required available : Int)
  /-- A piece of a composite token is no operator. -/
  | unknownOperator (operator composite : String)
  /-- No instruction has as many operands. -/
  | unsupportedArity (operator : String) (arity : Int)
  deriving DecidableEq, Repr

/-- The kinds of problems. -/
inductive ProblemKind where
  | stackUnderflow
  | unknownOperator
  | unsupportedArity
  deriving DecidableEq, Repr

/-- The word for a kind. -/
def ProblemKind.word : ProblemKind → String
  | stackUnderflow => "stack-underflow"
  | unknownOperator => "unknown-operator"
  | unsupportedArity => "unsupported-arity"

/-- The kind that a word names. -/
def ProblemKind.ofWord? (word : String) : Option ProblemKind :=
  [stackUnderflow, unknownOperator, unsupportedArity].find? (·.word == word)

namespace Problem

/-- The kind of a problem. -/
def kind : Problem → ProblemKind
  | stackUnderflow .. => .stackUnderflow
  | unknownOperator .. => .unknownOperator
  | unsupportedArity .. => .unsupportedArity

/-- A problem in words. -/
def message : Problem → String
  | stackUnderflow operator required available =>
    s!"operator '{operator}' needs {required} operand(s), stack holds {available}"
  | unknownOperator operator composite =>
    s!"unknown operator '{operator}' in composite token '{composite}'"
  | unsupportedArity operator arity => s!"operator '{operator}' with {arity} operands is not supported"

/-- What to do about a problem. -/
def hint? : Problem → Option String
  | stackUnderflow .. => some "push the missing operands before the operator"
  | unknownOperator .. | unsupportedArity .. => none

/-- Whether the rest of the expression has no meaning after the problem. -/
def stops : Problem → Bool
  | unknownOperator .. => true
  | stackUnderflow .. | unsupportedArity .. => false

end Problem

/-- What a lowering error is about: one of the problems, or any other remark with its own hint. -/
inductive Cause where
  | found (problem : Problem)
  | remark (message : String) (hint? : Option String)
  deriving DecidableEq, Repr

/-- The bare description. -/
def Cause.message : Cause → String
  | found problem => problem.message
  | remark message _ => message

/-- What to do about it. -/
def Cause.hint? : Cause → Option String
  | found problem => problem.hint?
  | remark _ hint? => hint?

/-- A cause at a place in an expression, as far as the place is known. -/
structure LoweringError where
  cause : Cause
  location? : Option TokenLocation := none
  deriving DecidableEq, Repr

/-- The full text: the place if there is one, the description, and the hint on a line of its own unless
it is missing or empty. -/
def LoweringError.text (error : LoweringError) : String :=
  let place := match error.location? with
    | some location => location.text ++ ": "
    | none => ""
  let advice := match error.cause.hint? with
    | some hint => if hint = "" then "" else "\nhint: " ++ hint
    | none => ""
  place ++ "error: " ++ error.cause.message ++ advice

/-- An error that was noted, under the kind it is reported as. -/
structure Diagnostic where
  kind : ProblemKind
  error : LoweringError
  deriving DecidableEq, Repr

namespace Diagnostic

/-- The note of a problem at a place. -/
def ofProblem (problem : Problem) (location : TokenLocation) : Diagnostic :=
  { kind := problem.kind, error := { cause := .found problem, location? := location } }

/-- The bare description. -/
def message (diagnostic : Diagnostic) : String := diagnostic.error.cause.message

/-- The token at fault; empty without a place. -/
def token (diagnostic : Diagnostic) : String :=
  (diagnostic.error.location?.map TokenLocation.token).getD ""

/-- The position of the token at fault; `-1` without a place. -/
def position (diagnostic : Diagnostic) : Int :=
  (diagnostic.error.location?.map TokenLocation.position).getD (-1)

/-- The full text. -/
def text (diagnostic : Diagnostic) : String := diagnostic.error.text

end Diagnostic
end EsilLowering
