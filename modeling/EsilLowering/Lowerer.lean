import EsilLowering.Lowering
import EsilLowering.Registry

/-! # Lowerers

A lowerer works through expressions one after the other. The stack, the instructions and the count of
temporaries go on from one expression to the next, also when an expression ends in a fault. -/

namespace EsilLowering

/-- The state of one unit of lowering, with the rules it keeps throughout. -/
structure Lowerer where
  architecture : String
  dialect : Dialect
  strict : Bool := false
  machine : Machine := {}
  instructions : List Instruction := []
  deriving DecidableEq

/-- What a lowerer makes of an expression: its own state afterwards, the events on the way, and the
result or the fault that took its place. -/
structure Answer where
  lowerer : Lowerer
  events : List Event
  result : Except Fault Lowering

namespace Lowerer

/-- A fresh lowerer for a profile, with another default width if one is given. -/
def ofProfile (profile : Profile) (defaultSize? : Option Int) (strict : Bool) : Lowerer :=
  { architecture := profile.name
    dialect := { profile.toDialect with defaultSize := defaultSize?.getD profile.defaultSize }
    strict }

/-- Lowers an expression. -/
def lower (lowerer : Lowerer) (expression : String) : Answer :=
  let run := lowerer.machine.run lowerer.dialect lowerer.strict expression 0 (tokens expression)
  let after := { lowerer with
    machine := run.machine
    instructions := lowerer.instructions ++ run.instructions }
  match run.ending with
  | .faulted fault => { lowerer := after, events := run.events, result := .error fault }
  | .completed | .stopped =>
    let lowering : Lowering :=
      { expression
        status := run.status
        instructions := run.instructions
        diagnostics := run.diagnostics
        tokensConsumed := run.tokensConsumed }
    let finished := Event.finished expression run.status run.instructions.length run.machine.stack.length
    { lowerer := after, events := run.events ++ [finished], result := .ok lowering }

/-- Lowers expressions in turn. -/
def lowerAll (lowerer : Lowerer) : List String → List Answer
  | [] => []
  | expression :: rest =>
    let answer := lowerer.lower expression
    answer :: answer.lowerer.lowerAll rest

end Lowerer

/-- Lowers one expression for an architecture, with nothing before it. -/
def Registry.lower (registry : Registry) (architecture : String) (strict : Bool) (expression : String) :
    Except Fault Lowering := do
  let profile ← registry.find architecture
  ((Lowerer.ofProfile profile none strict).lower expression).result

end EsilLowering
