import EsilLowering.Fault
import EsilLowering.Machine

/-! # Lowering an expression

An expression is a text of tokens between commas. Its tokens are read in order. A problem at a token is
noted and the token skipped, unless the rest of the expression has no meaning without it; in strict
mode the first problem ends the run. -/

namespace EsilLowering

/-- The character between the tokens of an expression. -/
def tokenSeparator : Char := ','

/-- The tokens of an expression. -/
def tokens (expression : String) : List String := Text.fields tokenSeparator expression

/-- What came of an expression: the instructions it gave, the problems noted in order, and how many
tokens were read before the end or the stop. -/
structure Lowering where
  expression : String
  status : Status
  instructions : List Instruction
  diagnostics : List Diagnostic
  tokensConsumed : Nat
  deriving DecidableEq, Repr

namespace Lowering

/-- Whether every token did its work. -/
def ok (lowering : Lowering) : Bool := lowering.status == .success

/-- The fault that stands for the whole: the first problem noted. -/
def fault? (lowering : Lowering) : Option Fault :=
  lowering.diagnostics.head?.map fun diagnostic => .lowering diagnostic.error

end Lowering

/-- How a run over tokens ended. -/
inductive Ending where
  /-- At the last token. -/
  | completed
  /-- At a problem that leaves the rest without meaning. -/
  | stopped
  /-- At a fault. -/
  | faulted (fault : Fault)
  deriving DecidableEq, Repr

/-- What a run over tokens came to. -/
structure Run where
  machine : Machine
  ending : Ending
  tokensConsumed : Nat
  instructions : List Instruction := []
  diagnostics : List Diagnostic := []
  events : List Event := []
  deriving DecidableEq, Repr

namespace Run

/-- A run that ends with a step at a position. -/
def ended (step : Step) (position : Nat) (ending : Ending) : Run :=
  { machine := step.machine, ending, tokensConsumed := position }

/-- A run with what came before it: a step, the problems noted at it and the events about them. -/
def after (run : Run) (step : Step) (diagnostics : List Diagnostic) (events : List Event) : Run :=
  { run with
    instructions := step.instructions ++ run.instructions
    diagnostics := diagnostics ++ run.diagnostics
    events := step.events ++ events ++ run.events }

section
variable (run : Run) (step : Step) (diagnostics : List Diagnostic) (events : List Event)

@[simp] theorem machine_after : (run.after step diagnostics events).machine = run.machine := rfl

@[simp] theorem ending_after : (run.after step diagnostics events).ending = run.ending := rfl

@[simp] theorem tokensConsumed_after :
    (run.after step diagnostics events).tokensConsumed = run.tokensConsumed := rfl

@[simp] theorem instructions_after :
    (run.after step diagnostics events).instructions = step.instructions ++ run.instructions := rfl

@[simp] theorem diagnostics_after :
    (run.after step diagnostics events).diagnostics = diagnostics ++ run.diagnostics := rfl

@[simp] theorem events_after :
    (run.after step diagnostics events).events = step.events ++ events ++ run.events := rfl

end

/-- The status of a run: failed if it stopped, else a success unless a problem was noted. -/
def status (run : Run) : Status :=
  if run.ending = .stopped then .failed
  else if run.diagnostics = [] then .success
  else .incomplete

end Run

/-- Reads the tokens of an expression from a position on. -/
def Machine.run (dialect : Dialect) (strict : Bool) (expression : String) :
    Nat → List String → Machine → Run
  | position, [], machine => { machine, ending := .completed, tokensConsumed := position }
  | position, token :: rest, machine =>
    let step := machine.read dialect token
    match step.halt? with
    | none => (step.machine.run dialect strict expression (position + 1) rest).after step [] []
    | some (.tooManyDigits refusal) =>
      (Run.ended step position (.faulted (.refused (.tooManyDigits refusal)))).after step [] []
    | some (.problem problem) =>
      let diagnostic := Diagnostic.ofProblem problem { expression, position, token }
      if strict then
        (Run.ended step position (.faulted (.lowering diagnostic.error))).after step [] []
      else if problem.stops then
        (Run.ended step position .stopped).after step [diagnostic]
          [.stopped expression position problem.message]
      else
        (step.machine.run dialect strict expression (position + 1) rest).after step [diagnostic]
          [.skipped expression position problem.message]

/-! ### The five ways of a token -/

section
variable {dialect : Dialect} {strict : Bool} {expression token : String} {rest : List String}
  {position : Nat} {machine : Machine}

theorem Machine.run_of_done (h : (machine.read dialect token).halt? = none) :
    machine.run dialect strict expression position (token :: rest) =
      ((machine.read dialect token).machine.run dialect strict expression (position + 1) rest).after
        (machine.read dialect token) [] [] := by
  simp [run, h]

theorem Machine.run_of_tooManyDigits {refusal : Numeral.TooManyDigits}
    (h : (machine.read dialect token).halt? = some (.tooManyDigits refusal)) :
    machine.run dialect strict expression position (token :: rest) =
      (Run.ended (machine.read dialect token) position (.faulted (.refused (.tooManyDigits refusal)))).after
        (machine.read dialect token) [] [] := by
  simp [run, h]

theorem Machine.run_of_strict {problem : Problem}
    (h : (machine.read dialect token).halt? = some (.problem problem)) :
    machine.run dialect true expression position (token :: rest) =
      (Run.ended (machine.read dialect token) position (.faulted (.lowering
        (Diagnostic.ofProblem problem { expression, position, token }).error))).after
        (machine.read dialect token) [] [] := by
  simp [run, h]

theorem Machine.run_of_stop {problem : Problem}
    (h : (machine.read dialect token).halt? = some (.problem problem)) (stops : problem.stops = true) :
    machine.run dialect false expression position (token :: rest) =
      (Run.ended (machine.read dialect token) position .stopped).after (machine.read dialect token)
        [.ofProblem problem { expression, position, token }] [.stopped expression position problem.message] := by
  simp [run, h, stops]

theorem Machine.run_of_skip {problem : Problem}
    (h : (machine.read dialect token).halt? = some (.problem problem)) (goes : problem.stops = false) :
    machine.run dialect false expression position (token :: rest) =
      ((machine.read dialect token).machine.run dialect false expression (position + 1) rest).after
        (machine.read dialect token)
        [.ofProblem problem { expression, position, token }] [.skipped expression position problem.message] := by
  simp [run, h, goes]

end
end EsilLowering
