import EsilLowering.Proofs.Classification
import EsilLowering.Proofs.History
import EsilLowering.Proofs.Pieces

/-! # Every access finds what it reaches for

Lowering can be written out as work that reaches for what it needs: it takes values off the stack and
reads others below its top, takes the last field of a token and looks up the kind of an error, without
a way to go on if there is nothing there. Written out so, it answers as before. So a fault that only
says that something is missing never ends it: what does is a problem in strict mode, or a numeral that
is too long. -/

namespace EsilLowering

/-- What has been done so far on an expression. -/
structure Progress where
  machine : Machine
  instructions : List Instruction
  diagnostics : List Diagnostic := []
  status : Status := .success
  tokensConsumed : Nat := 0
  events : List Event := []

/-- Work on an expression. What it has done before a fault stays done. -/
abbrev Work := EStateM Fault Progress

namespace Work

/-! ### Accesses -/

/-- Takes the top off the stack. -/
def pop : Work Value := do
  match (← get).machine.stack with
  | [] => throw (.unexpected "the stack is empty")
  | value :: below =>
    modify fun progress => { progress with machine.stack := below }
    return value

/-- The value so many places down the stack, its top being in place one. -/
def peek (place : Nat) : Work Value := do
  match (← get).machine.stack[place - 1]? with
  | none => throw (.unexpected "the stack is not that deep")
  | some value => return value

def push (value : Value) : Work Unit :=
  modify fun progress => { progress with machine.stack := value :: progress.machine.stack }

/-- Hands out the next temporary. -/
def allocate : Work Value := do
  let (value, temporaries) := (← get).machine.temporaries.next
  modify fun progress => { progress with machine.temporaries := temporaries }
  return value

def report (event : Event) : Work Unit :=
  modify fun progress => { progress with events := progress.events ++ [event] }

def emit (instruction : Instruction) : Work Unit :=
  modify fun progress => { progress with instructions := progress.instructions ++ [instruction] }

def consume (count : Nat) : Work Unit :=
  modify fun progress => { progress with tokensConsumed := count }

def conclude (status : Status) : Work Unit :=
  modify fun progress => { progress with status := status }

/-- The last of the fields of a token. There is one at least. -/
def lastField (fields : List String) : Work String :=
  match fields.getLast? with
  | none => throw (.unexpected "there is no field")
  | some field => return field

/-- The kinds that errors are noted under, by the families of the faults that they are. -/
def kinds : List (FaultFamily × ProblemKind) :=
  [(.stackUnderflow, .stackUnderflow), (.unknownOperator, .unknownOperator), (.unsupportedArity, .unsupportedArity)]

def kindOf (fault : Fault) : Work ProblemKind :=
  match kinds.lookup fault.family with
  | none => throw (.unexpected "there is no kind")
  | some kind => return kind

def raise {α : Type} (place : TokenLocation) (problem : Problem) : Work α :=
  throw (.lowering { cause := .found problem, location? := place })

/-! ### Tokens -/

/-- How many values an operator takes. Only here it is looked whether the stack holds as many. -/
def operandCount (place : TokenLocation) (operator : Operator) : Work Nat := do
  if operator.arity = .ternary then
    raise place (.unsupportedArity operator.symbol 3)
  else
    let count := max operator.arity.toNat 1
    let depth := (← get).machine.stack.length
    if depth < count then
      raise place (.stackUnderflow operator.symbol count depth)
    else
      return count

def apply (place : TokenLocation) (operator : Operator) : Work Unit := do
  let count ← operandCount place operator
  let second ← if count = 2 then pop else pure .null
  let first ← pop
  let destination ← if operator.isAssignment then pure .null else allocate
  emit ⟨operator, destination, first, second⟩
  push destination
  report (.emitted ⟨operator, destination, first, second⟩)

def putBeneath (target : Value) : Work Unit := do
  let result ← pop
  push target
  push result

/-- Applies an operator, puts its target beneath the result, and assigns. -/
def applyPiece (place : TokenLocation) (assignment operator : Operator) : Work Unit := do
  let target ← peek (← operandCount place operator)
  apply place operator
  putBeneath target
  apply place assignment

def applyPieces (dialect : Dialect) (place : TokenLocation) : List String → Work Unit
  | [] => return
  | piece :: rest => do
    match dialect.operators.get? piece with
    | none => raise place (.unknownOperator piece place.token)
    | some operator =>
      applyPiece place dialect.assignment operator
      applyPieces dialect place rest

/-- Reads the token at a place. -/
def read (dialect : Dialect) (place : TokenLocation) : Work Unit := do
  match dialect.operators.get? place.token with
  | some operator => apply place operator
  | none =>
    if Operator.assignmentMark ∈ place.token.toList then
      let fields := Text.fields Operator.assignmentMark place.token
      let last ← lastField fields
      applyPieces dialect place (if last = "" then fields.dropLast else fields)
    else
      match Value.classify dialect.registers dialect.defaultSize place.token with
      | .error refusal => throw (.refused (.tooManyDigits refusal))
      | .ok value =>
        report (.pushed value)
        push value

/-! ### Expressions -/

/-- Does some work and catches its fault. -/
def attempt (work : Work Unit) : Work (Option Fault) := fun progress =>
  match work.run progress with
  | .ok _ reached => .ok none reached
  | .error fault reached => .ok (some fault) reached

/-- Notes an error, unless errors are faults. -/
def note (strict : Bool) (error : LoweringError) : Work Unit := do
  if strict then
    throw (.lowering error)
  let kind ← kindOf (.lowering error)
  modify fun progress => { progress with diagnostics := progress.diagnostics ++ [{ kind, error }] }

/-- Reads tokens, the first of them at a position. -/
def readAll (dialect : Dialect) (strict : Bool) (expression : String) : Nat → List String → Work Unit
  | _, [] => return
  | position, token :: rest => do
    match ← attempt (read dialect { expression, position, token }) with
    | none =>
      consume (position + 1)
      readAll dialect strict expression (position + 1) rest
    | some (.lowering error) =>
      if Fault.isIn (.lowering error) .unknownOperator then
        note strict error
        conclude .failed
        report (.stopped expression position error.cause.message)
      else
        note strict error
        conclude .incomplete
        report (.skipped expression position error.cause.message)
        consume (position + 1)
        readAll dialect strict expression (position + 1) rest
    | some fault => throw fault

end Work

/-- A lowerer once work has come to this. -/
def Lowerer.afterWork (lowerer : Lowerer) (reached : Progress) : Lowerer :=
  { lowerer with machine := reached.machine, instructions := reached.instructions }

/-- What a lowerer answers if the work on an expression ends so. The new instructions are those past the
ones that there were. -/
def Lowerer.answer (lowerer : Lowerer) (expression : String) : EStateM.Result Fault Progress Unit → Answer
  | .error fault reached =>
    { lowerer := lowerer.afterWork reached, events := reached.events, result := .error fault }
  | .ok _ reached =>
    let new := reached.instructions.drop lowerer.instructions.length
    let finished := Event.finished expression reached.status new.length reached.machine.stack.length
    let lowering : Lowering :=
      { expression
        status := reached.status
        instructions := new
        diagnostics := reached.diagnostics
        tokensConsumed := reached.tokensConsumed }
    { lowerer := lowerer.afterWork reached, events := reached.events ++ [finished], result := .ok lowering }

/-- Lowers an expression by work that is written out access by access. -/
def Lowerer.work (lowerer : Lowerer) (expression : String) : Answer :=
  lowerer.answer expression
    ((Work.readAll lowerer.dialect lowerer.strict expression 0 (tokens expression)).run
      { machine := lowerer.machine, instructions := lowerer.instructions })

/-! ### Work that does what a step does -/

/-- The fault that a token's halt is. -/
def Halt.fault (place : TokenLocation) : Halt → Fault
  | .problem found => .lowering { cause := .found found, location? := place }
  | .tooManyDigits refusal => .refused (.tooManyDigits refusal)

namespace Progress

/-- What has been done once a step is done too. -/
def after (progress : Progress) (step : Step) : Progress :=
  { progress with
    machine := step.machine
    instructions := progress.instructions ++ step.instructions
    events := progress.events ++ step.events }

/-- How work ends that does what a step does. -/
def finish (progress : Progress) (place : TokenLocation) (step : Step) : EStateM.Result Fault Progress Unit :=
  match step.halt? with
  | none => .ok () (progress.after step)
  | some halt => .error (halt.fault place) (progress.after step)

section
variable {progress : Progress} {place : TokenLocation} {step : Step}

theorem finish_of_done (h : step.halt? = none) : progress.finish place step = .ok () (progress.after step) := by
  simp [finish, h]

theorem finish_of_halt {halt : Halt} (h : step.halt? = some halt) :
    progress.finish place step = .error (halt.fault place) (progress.after step) := by
  simp [finish, h]

theorem finish_andThen {onward : Machine → Step} (h : step.halt? = none) :
    progress.finish place (step.andThen onward) = (progress.after step).finish place (onward step.machine) := by
  rw [Step.andThen_of_done h]
  simp only [finish, after, List.append_assoc]

theorem after_refuse (problem : Problem) : progress.after (progress.machine.refuse problem) = progress := by
  simp [after, Machine.refuse]

theorem finish_refuse (problem : Problem) :
    progress.finish place (progress.machine.refuse problem) =
      .error (.lowering { cause := .found problem, location? := place }) progress := by
  have halted : (progress.machine.refuse problem).halt? = some (.problem problem) := rfl
  rw [finish_of_halt halted, after_refuse]
  rfl

end
end Progress

namespace Work
variable {dialect : Dialect} {place : TokenLocation} {operator assignment : Operator} {operands : Operands}
  {problem : Problem} {progress : Progress}

theorem run_andThen {work next : Work Unit} {step : Step} {onward : Machine → Step}
    (h : work.run progress = progress.finish place step)
    (hnext : next.run (progress.after step) = (progress.after step).finish place (onward step.machine)) :
    (do work; next : Work Unit).run progress = progress.finish place (step.andThen onward) := by
  rw [EStateM.run_bind, h]
  cases halted : step.halt? with
  | some halt => rw [Step.andThen_of_halt halted, Progress.finish_of_halt halted]
  | none =>
    rw [Progress.finish_andThen halted, ← hnext, Progress.finish_of_done halted]

/-! ### One operator -/

theorem run_operandCount_of_ok (taken : operator.operands progress.machine.stack = .ok operands) :
    (operandCount place operator).run progress = .ok (max operator.arity.toNat 1) progress := by
  obtain ⟨hternary, hdepth⟩ := (operator.operands_isOk _).mp (by rw [taken]; rfl)
  simp only [operandCount, if_neg hternary, EStateM.run_bind, EStateM.run_get, if_neg (Nat.not_lt.mpr hdepth)]
  rfl

theorem run_operandCount_of_error (missing : operator.operands progress.machine.stack = .error problem) :
    (operandCount place operator).run progress =
      .error (.lowering { cause := .found problem, location? := place }) progress := by
  rcases Operator.operands_eq_error.mp missing with ⟨hternary, rfl⟩ | ⟨hternary, hdepth, rfl⟩
  · simp only [operandCount, if_pos hternary]
    rfl
  · simp only [operandCount, if_neg hternary, EStateM.run_bind, EStateM.run_get, if_pos hdepth]
    rfl

theorem run_apply_of_ok (taken : operator.operands progress.machine.stack = .ok operands) :
    (apply place operator).run progress =
      .ok () (progress.after (progress.machine.emit operator operands operands.below)) := by
  simp only [apply, EStateM.run_bind, run_operandCount_of_ok taken]
  obtain ⟨⟨stack, temporaries⟩, instructions, diagnostics, status, tokensConsumed, events⟩ := progress
  rcases Operator.operands_counted taken with ⟨count, rfl⟩ | ⟨count, hnull, rfl⟩
  · cases assigns : operator.isAssignment <;>
      simp [count, pop, allocate, emit, push, report, Progress.after, Machine.emit, assigns, Temporaries.next]
  · cases assigns : operator.isAssignment <;>
      simp [count, hnull, pop, allocate, emit, push, report, Progress.after, Machine.emit, assigns, Temporaries.next]

theorem run_apply (place : TokenLocation) (operator : Operator) (progress : Progress) :
    (apply place operator).run progress = progress.finish place (progress.machine.apply operator) := by
  cases taken : operator.operands progress.machine.stack with
  | error problem =>
    rw [Machine.apply_of_error taken, Progress.finish_refuse]
    simp only [apply, EStateM.run_bind, run_operandCount_of_error taken]
  | ok operands =>
    rw [Machine.apply_of_ok taken, run_apply_of_ok taken, Progress.finish_of_done (Machine.emit_halt? ..)]

theorem run_peek (taken : operator.operands progress.machine.stack = .ok operands) :
    (peek (max operator.arity.toNat 1)).run progress = .ok operands.first progress := by
  rcases Operator.operands_counted taken with ⟨count, htop⟩ | ⟨count, -, htop⟩ <;> simp [peek, count, htop]

/-- The result is on top of what stays below the operands, so the target goes between the two. -/
theorem run_putBeneath (operator : Operator) (operands : Operands) (progress : Progress) :
    (putBeneath operands.first).run (progress.after (progress.machine.emit operator operands operands.below)) =
      .ok () (progress.after (progress.machine.emitKeeping operator operands)) := by
  simp [putBeneath, pop, push, Machine.emitKeeping, Machine.emit_eq, Progress.after]

theorem run_applyPiece (place : TokenLocation) (assignment operator : Operator) (progress : Progress) :
    (applyPiece place assignment operator).run progress =
      progress.finish place (progress.machine.applyAndAssign assignment operator) := by
  cases taken : operator.operands progress.machine.stack with
  | error problem =>
    rw [Machine.applyAndAssign_of_error taken, Progress.finish_refuse]
    simp only [applyPiece, EStateM.run_bind, run_operandCount_of_error taken]
  | ok operands =>
    have assigned := run_apply place assignment (progress.after (progress.machine.emitKeeping operator operands))
    rw [Machine.applyAndAssign_of_ok taken, Progress.finish_andThen Machine.emitKeeping_halt?]
    refine Eq.trans ?_ assigned
    simp only [applyPiece, EStateM.run_bind, run_operandCount_of_ok taken, run_peek taken, run_apply_of_ok taken,
      run_putBeneath]

/-! ### Tokens -/

theorem run_applyPieces (dialect : Dialect) (place : TokenLocation) (pieces : List String) (progress : Progress) :
    (applyPieces dialect place pieces).run progress =
      progress.finish place (progress.machine.applyPieces dialect place.token pieces) := by
  induction pieces generalizing progress with
  | nil => simp [applyPieces, Machine.applyPieces, Progress.finish, Progress.after]
  | cons piece rest ih =>
    unfold applyPieces Machine.applyPieces
    cases found : dialect.operators.get? piece with
    | none =>
      rw [Progress.finish_refuse]
      rfl
    | some operator => exact run_andThen (run_applyPiece ..) (ih _)

theorem run_lastField (separator : Char) (text : String) (progress : Progress) :
    ∃ last, (Text.fields separator text).getLast? = some last ∧
      (lastField (Text.fields separator text)).run progress = .ok last progress := by
  have hlast := List.getLast?_eq_some_getLast (Text.fields_ne_nil separator text)
  exact ⟨_, hlast, by simp [lastField, hlast]⟩

theorem run_read (dialect : Dialect) (place : TokenLocation) (progress : Progress) :
    (read dialect place).run progress = progress.finish place (progress.machine.read dialect place.token) := by
  unfold read
  cases found : dialect.operators.get? place.token with
  | some operator =>
    rw [Machine.read_of_operator found]
    exact run_apply ..
  | none =>
    by_cases mark : Operator.assignmentMark ∈ place.token.toList
    · obtain ⟨last, hlast, hrun⟩ := run_lastField Operator.assignmentMark place.token progress
      have pieces : compositePieces place.token =
          if last = "" then (Text.fields Operator.assignmentMark place.token).dropLast
          else Text.fields Operator.assignmentMark place.token := by
        simp [compositePieces, hlast]
      rw [Machine.read_of_composite found mark, pieces, ← run_applyPieces]
      simp only [if_pos mark, EStateM.run_bind, hrun]
    · rw [Machine.read_of_operand found mark]
      simp only [if_neg mark, Machine.push]
      cases classified : Value.classify dialect.registers dialect.defaultSize place.token with
      | error refusal => simp [Progress.finish, Progress.after, Halt.fault]
      | ok value => simp [Progress.finish, Progress.after, report, push]

theorem run_attempt (dialect : Dialect) (place : TokenLocation) (progress : Progress) :
    (attempt (read dialect place)).run progress =
      .ok ((progress.machine.read dialect place.token).halt?.map (·.fault place))
        (progress.after (progress.machine.read dialect place.token)) := by
  have caught : (attempt (read dialect place)).run progress =
      match (read dialect place).run progress with
      | .ok _ reached => .ok none reached
      | .error fault reached => .ok (some fault) reached := rfl
  rw [caught, run_read]
  cases halted : (progress.machine.read dialect place.token).halt? with
  | none => rw [Progress.finish_of_done halted, Option.map_none]
  | some halt => rw [Progress.finish_of_halt halted, Option.map_some]

/-! ### Runs -/

theorem run_note_strict (error : LoweringError) (progress : Progress) :
    (note true error).run progress = .error (.lowering error) progress := rfl

/-- Every error of a token has a kind. -/
theorem run_note_lenient (problem : Problem) (place : TokenLocation) (progress : Progress) :
    (note false { cause := .found problem, location? := place }).run progress =
      .ok () { progress with diagnostics := progress.diagnostics ++ [.ofProblem problem place] } := by
  cases problem <;> rfl

theorem isIn_unknownOperator (problem : Problem) (place : TokenLocation) :
    Fault.isIn (.lowering { cause := .found problem, location? := place }) .unknownOperator = problem.stops := by
  cases problem <;> rfl

end Work

/-- What has been done once a run is done too. -/
def Progress.through (progress : Progress) (run : Run) : Progress :=
  { machine := run.machine
    instructions := progress.instructions ++ run.instructions
    diagnostics := progress.diagnostics ++ run.diagnostics
    status :=
      if run.ending = .stopped then .failed
      else if run.diagnostics = [] then progress.status
      else .incomplete
    tokensConsumed := run.tokensConsumed
    events := progress.events ++ run.events }

/-- How work ends that does what a run does. -/
def Progress.end (progress : Progress) (run : Run) : EStateM.Result Fault Progress Unit :=
  match run.ending with
  | .faulted fault => .error fault (progress.through run)
  | .completed | .stopped => .ok () (progress.through run)

/-- What has been done once a token is read, problems are noted of it and the next one comes. -/
def Progress.onward (progress : Progress) (step : Step) (noted : List Diagnostic) (events : List Event)
    (position : Nat) : Progress :=
  { machine := step.machine
    instructions := progress.instructions ++ step.instructions
    diagnostics := progress.diagnostics ++ noted
    status := if noted = [] then progress.status else .incomplete
    tokensConsumed := position
    events := progress.events ++ step.events ++ events }

theorem Progress.end_onward (progress : Progress) (step : Step) (noted : List Diagnostic) (events : List Event)
    (position : Nat) (run : Run) :
    (progress.onward step noted events position).end run = progress.end (run.after step noted events) := by
  have through : (progress.onward step noted events position).through run =
      progress.through (run.after step noted events) := by
    by_cases hnoted : noted = [] <;> by_cases hrun : run.diagnostics = [] <;>
      simp [Progress.through, Progress.onward, hnoted, hrun]
  simp only [Progress.end, through, Run.ending_after]

namespace Work

section
variable {dialect : Dialect} {strict : Bool} {expression token : String} {position : Nat} {progress : Progress}

theorem run_readAll_of_ending (consumed : progress.tokensConsumed = position) {ending : Ending}
    (ends : (progress.machine.read dialect token).ending? strict { expression, position, token } = some ending)
    (rest : List String) :
    (readAll dialect strict expression position (token :: rest)).run progress =
      progress.end ((Run.ended (progress.machine.read dialect token) position ending).after
        (progress.machine.read dialect token)
        ((progress.machine.read dialect token).noted strict { expression, position, token })
        ((progress.machine.read dialect token).noticed strict expression position)) := by
  simp only [readAll, EStateM.run_bind, run_attempt]
  cases halted : (progress.machine.read dialect token).halt? with
  | none => simp [Step.ending?, halted] at ends
  | some halt =>
    cases halt with
    | tooManyDigits refusal =>
      obtain rfl : Ending.faulted (.refused (.tooManyDigits refusal)) = ending := by
        simpa [Step.ending?, halted] using ends
      simp [Halt.fault, Step.noted, Step.noticed, halted, Progress.end, Run.ended, Progress.through, Progress.after,
        consumed]
    | problem problem =>
      simp only [Option.map_some, Halt.fault, isIn_unknownOperator]
      cases strict with
      | true =>
        obtain rfl := Option.some.inj (by simpa [Step.ending?, halted] using ends)
        cases problem.stops <;>
          simp [run_note_strict, Step.noted, Step.noticed, halted, Progress.end, Run.ended, Progress.through,
            Progress.after, consumed, Diagnostic.ofProblem]
      | false =>
        cases stops : problem.stops with
        | true =>
          obtain rfl : Ending.stopped = ending := by simpa [Step.ending?, halted, stops] using ends
          simp [run_note_lenient, conclude, report, Step.noted, Step.noticed, halted, stops, Progress.end, Run.ended,
            Progress.through, Progress.after, consumed, Cause.message]
        | false => simp [Step.ending?, halted, stops] at ends

theorem run_readAll_of_onward
    (ends : (progress.machine.read dialect token).ending? strict { expression, position, token } = none)
    (rest : List String) :
    (readAll dialect strict expression position (token :: rest)).run progress =
      (readAll dialect strict expression (position + 1) rest).run
        (progress.onward (progress.machine.read dialect token)
          ((progress.machine.read dialect token).noted strict { expression, position, token })
          ((progress.machine.read dialect token).noticed strict expression position) (position + 1)) := by
  simp only [readAll, EStateM.run_bind, run_attempt]
  cases halted : (progress.machine.read dialect token).halt? with
  | none => simp [consume, Step.noted, Step.noticed, halted, Progress.onward, Progress.after]
  | some halt =>
    cases halt with
    | tooManyDigits refusal => simp [Step.ending?, halted] at ends
    | problem problem =>
      simp only [Option.map_some, Halt.fault, isIn_unknownOperator]
      cases strict with
      | true => simp [Step.ending?, halted] at ends
      | false =>
        cases stops : problem.stops with
        | true => simp [Step.ending?, halted, stops] at ends
        | false =>
          simp [run_note_lenient, conclude, report, consume, Step.noted, Step.noticed, halted, stops, Progress.onward,
            Progress.after, Cause.message]

end

theorem run_readAll (dialect : Dialect) (strict : Bool) (expression : String) {position : Nat} (tokens : List String)
    {progress : Progress} (consumed : progress.tokensConsumed = position) :
    (readAll dialect strict expression position tokens).run progress =
      progress.end (progress.machine.run dialect strict expression position tokens) := by
  induction tokens generalizing position progress with
  | nil => simp [readAll, Machine.run_nil, Progress.end, Progress.through, ← consumed]
  | cons token rest ih =>
    cases ends : (progress.machine.read dialect token).ending? strict { expression, position, token } with
    | some ending => rw [run_readAll_of_ending consumed ends, Machine.run_of_ending ends]
    | none =>
      rw [run_readAll_of_onward ends, Machine.run_of_onward ends, ← Progress.end_onward _ _ _ _ (position + 1)]
      exact ih rfl

end Work

namespace Lowerer
variable {lowerer : Lowerer} {expression : String}

theorem work_eq_answer (lowerer : Lowerer) (expression : String) :
    lowerer.work expression = lowerer.answer expression
      (Progress.end { machine := lowerer.machine, instructions := lowerer.instructions } (lowerer.run expression)) :=
  congrArg (lowerer.answer expression) (Work.run_readAll _ _ _ _ rfl)

/-- Written out access by access, lowering does what it does otherwise. -/
theorem work_eq_lower (lowerer : Lowerer) (expression : String) :
    lowerer.work expression = lowerer.lower expression := by
  have new : (lowerer.instructions ++ (lowerer.run expression).instructions).drop lowerer.instructions.length =
      (lowerer.run expression).instructions := List.drop_left' rfl
  rw [work_eq_answer]
  cases ending : (lowerer.run expression).ending with
  | faulted fault =>
    rw [lower_of_faulted ending]
    simp only [Progress.end, ending, answer]
    rfl
  | completed | stopped =>
    rw [lower_of_ended (by simp [ending])]
    simp only [Progress.end, ending, answer, Progress.through, new, List.nil_append]
    simp [summary, Run.status, ending, reach, afterWork]

end Lowerer
end EsilLowering
