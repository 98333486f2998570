import EsilLowering.Proofs.Classification
import EsilLowering.Proofs.Conservation
import EsilLowering.Proofs.UnknownPieces

/-! # The log of an expression

While an expression is lowered, a log is written. It has a line for each instruction that comes out and one
for each operand that goes onto the stack, and after the lines of a token that is noted a line about what is
noted. A last line sums up what came of the expression, unless a fault ended it. In strict mode nothing is
noted, so there are no such lines but those of instructions and operands. -/

namespace EsilLowering

/-- A line of a log. -/
structure LogLine where
  level : Level
  text : String
  deriving DecidableEq, Repr

namespace LogLine

/-- The word that a line begins with. -/
def word (line : LogLine) : String := String.ofList (line.text.toList.takeWhile (· ≠ ' '))

/-- Whether a line begins with a word. -/
def begins (word : String) (line : LogLine) : Bool := line.word = word

/-- Whether a line is more than a debugging aid. -/
def notable (line : LogLine) : Bool := line.level ≠ .debug

/-- Whether a line tells an error. -/
def isError (line : LogLine) : Bool := line.level = .error

/-- The line about an operand token that went onto the stack. -/
def push (token : String) (location : Location) : LogLine :=
  { level := .debug, text := "Push " ++ location.word ++ " operand '" ++ token ++ "'" }

/-- The line about an instruction that came out. -/
def emit (instruction : Instruction) : LogLine :=
  { level := .debug, text := "Emit '" ++ instruction.text ++ "'" }

/-- The line about a diagnostic: an error for an unknown operator, which stops the lowering, and else a
warning. -/
def notice (expression : String) (diagnostic : Diagnostic) : LogLine :=
  let position := toString diagnostic.position
  if diagnostic.kind = .unknownOperator then
    { level := .error
      text := "Translation of '" ++ expression ++ "' stopped at token " ++ position ++ ": " ++ diagnostic.message }
  else
    { level := .warning
      text := "Skipped token " ++ position ++ " of '" ++ expression ++ "': " ++ diagnostic.message }

/-- The line about an expression that came to a result. -/
def parsed (lowering : Lowering) (depth : Nat) : LogLine :=
  { level := .debug
    text := "Parsed '" ++ lowering.expression ++ "': " ++ lowering.status.word ++ ", " ++
      toString lowering.instructions.length ++ " instruction(s), stack depth " ++ toString depth }

end LogLine

/-- The line about the value of an operand token, which has the token for its name. -/
def Value.pushLine (value : Value) : LogLine := .push value.name value.location

/-- The line about an event. -/
def Event.logLine (event : Event) : LogLine := { level := event.level, text := event.text }

def Run.log (run : Run) : List LogLine := run.events.map Event.logLine

def Answer.log (answer : Answer) : List LogLine := answer.events.map Event.logLine

/-- A token that is an operand: neither an operator nor a composite. -/
def Dialect.IsOperand (dialect : Dialect) (token : String) : Prop :=
  dialect.operators.get? token = none ∧ Operator.assignmentMark ∉ token.toList

instance (dialect : Dialect) (token : String) : Decidable (dialect.IsOperand token) :=
  inferInstanceAs (Decidable (_ ∧ _))

/-- What a token with a problem has emitted by then. An operator has emitted nothing, and a composite what the
pieces before the failing one emit, with the instruction of the failing one if only its assignment is refused. -/
inductive HaltsAfter (dialect : Dialect) (token : String) (machine : Machine) : Problem → List Instruction → Prop where
  | operator {operator : Operator} {problem : Problem} (found : dialect.operators.get? token = some operator)
      (missing : operator.operands machine.stack = .error problem) : HaltsAfter dialect token machine problem []
  | piece {done rest : List String} {piece : String} {problem : Problem} {emitted last : List Instruction}
      {reached left : Machine} (absent : dialect.operators.get? token = none)
      (mark : Operator.assignmentMark ∈ token.toList) (pieces : compositePieces token = done ++ piece :: rest)
      (completes : Completes dialect done machine emitted reached)
      (halts : PieceHalts dialect token piece reached problem last left) :
      HaltsAfter dialect token machine problem (emitted ++ last)

/-! ### Lines and their words -/

namespace LogLine

theorem word_eq {line : LogLine} {word : String} (rest : String) (text : line.text = word ++ " " ++ rest)
    (whole : ' ' ∉ word.toList) : line.word = word := by
  have letters : ∀ c ∈ word.toList, decide (c ≠ ' ') = true := by
    intro c member
    exact decide_eq_true fun space => whole (space ▸ member)
  have chars : line.text.toList = word.toList ++ ' ' :: rest.toList := by simp [text]
  rw [LogLine.word, chars, List.takeWhile_append_of_pos letters, List.takeWhile_cons_of_neg (by simp), List.append_nil,
    String.ofList_toList]

@[simp] theorem word_push (token : String) (location : Location) : (push token location).word = "Push" := by
  refine word_eq (location.word ++ " operand '" ++ token ++ "'") ?_ (by decide)
  simp [push, ← String.append_assoc]

@[simp] theorem word_emit (instruction : Instruction) : (emit instruction).word = "Emit" := by
  refine word_eq ("'" ++ instruction.text ++ "'") ?_ (by decide)
  simp [emit, ← String.append_assoc]

@[simp] theorem word_parsed (lowering : Lowering) (depth : Nat) : (parsed lowering depth).word = "Parsed" := by
  refine word_eq ("'" ++ lowering.expression ++ "': " ++ lowering.status.word ++ ", " ++
    toString lowering.instructions.length ++ " instruction(s), stack depth " ++ toString depth) ?_ (by decide)
  simp [parsed, ← String.append_assoc]

theorem word_notice (expression : String) (diagnostic : Diagnostic) :
    (notice expression diagnostic).word =
      if diagnostic.kind = .unknownOperator then "Translation" else "Skipped" := by
  unfold notice
  split
  · refine word_eq ("of '" ++ expression ++ "' stopped at token " ++ toString diagnostic.position ++ ": " ++
      diagnostic.message) ?_ (by decide)
    simp [← String.append_assoc]
  · refine word_eq ("token " ++ toString diagnostic.position ++ " of '" ++ expression ++ "': " ++
      diagnostic.message) ?_ (by decide)
    simp [← String.append_assoc]

theorem begins_notice (word : String) (other : word ∈ ["Emit", "Push", "Parsed"]) (expression : String)
    (diagnostic : Diagnostic) : (notice expression diagnostic).begins word = false := by
  refine decide_eq_false ?_
  rintro rfl
  rw [word_notice] at other
  split at other <;> revert other <;> decide

theorem level_notice (expression : String) (diagnostic : Diagnostic) :
    (notice expression diagnostic).level = if diagnostic.kind = .unknownOperator then .error else .warning := by
  unfold notice
  split <;> rfl

theorem notable_notice (expression : String) (diagnostic : Diagnostic) :
    (notice expression diagnostic).notable = true := by
  rw [notable, level_notice]
  split <;> rfl

section
variable {α : Type} {line : α → LogLine} {p : LogLine → Bool}

theorem filter_all (keeps : ∀ item, p (line item) = true) (items : List α) :
    (items.map line).filter p = items.map line := by
  refine List.filter_eq_self.mpr fun found member => ?_
  obtain ⟨item, -, rfl⟩ := List.mem_map.mp member
  exact keeps item

theorem filter_none (drops : ∀ item, p (line item) = false) (items : List α) : (items.map line).filter p = [] := by
  refine List.filter_eq_nil_iff.mpr fun found member => ?_
  obtain ⟨item, -, rfl⟩ := List.mem_map.mp member
  exact Bool.eq_false_iff.mp (drops item)

end
end LogLine

/-! ### The events of a token -/

/-- The events of some work are about its instructions, in order. -/
def Step.TellsInstructions (step : Step) : Prop := step.events = step.instructions.map .emitted

theorem Step.TellsInstructions.andThen {step : Step} {next : Machine → Step} (h : step.TellsInstructions)
    (hnext : (next step.machine).TellsInstructions) : (step.andThen next).TellsInstructions := by
  cases halted : step.halt? with
  | some halt =>
    rw [andThen_of_halt halted]
    exact h
  | none =>
    rw [andThen_of_done halted, TellsInstructions, List.map_append, ← h, ← hnext]

section
variable {dialect : Dialect} {token : String} {machine : Machine} {operator assignment : Operator} {problem : Problem}

theorem Machine.apply_tells (machine : Machine) (operator : Operator) :
    (machine.apply operator).TellsInstructions := by
  cases taken : operator.operands machine.stack with
  | error problem =>
    rw [apply_of_error taken]
    rfl
  | ok operands =>
    rw [apply_of_ok taken, emit_eq]
    rfl

theorem Machine.applyAndAssign_tells (machine : Machine) (assignment operator : Operator) :
    (machine.applyAndAssign assignment operator).TellsInstructions := by
  cases taken : operator.operands machine.stack with
  | error problem =>
    rw [applyAndAssign_of_error taken]
    rfl
  | ok operands =>
    rw [applyAndAssign_of_ok taken]
    refine Step.TellsInstructions.andThen ?_ (apply_tells _ assignment)
    rw [emitKeeping, emit_eq]
    rfl

theorem Machine.applyPieces_tells (composite : String) (pieces : List String) (machine : Machine) :
    (machine.applyPieces dialect composite pieces).TellsInstructions := by
  induction pieces generalizing machine with
  | nil => rfl
  | cons piece rest ih =>
    unfold applyPieces
    split
    · rfl
    · exact (applyAndAssign_tells machine _ _).andThen (ih _)

/-- A token is told by the operand it pushes, or else by the instructions it emits. -/
theorem Machine.read_events (dialect : Dialect) (token : String) (machine : Machine) :
    (machine.read dialect token).events =
      (dialect.operand? token).toList.map .pushed ++ (machine.read dialect token).instructions.map .emitted := by
  unfold Dialect.operand?
  cases found : dialect.operators.get? token with
  | some operator =>
    rw [read_of_operator found, apply_tells machine operator]
    rfl
  | none =>
    by_cases mark : Operator.assignmentMark ∈ token.toList
    · rw [read_of_composite found mark, applyPieces_tells token (compositePieces token) machine]
      simp [mark]
    · rw [read_of_operand found mark]
      unfold push
      cases classified : Value.classify dialect.registers dialect.defaultSize token with
      | error refusal => simp [mark, Except.toOption]
      | ok value => simp [mark, Except.toOption]

theorem Machine.read_haltsAfter (halted : (machine.read dialect token).halt? = some (.problem problem)) :
    HaltsAfter dialect token machine problem (machine.read dialect token).instructions := by
  cases found : dialect.operators.get? token with
  | some operator =>
    rw [read_of_operator found] at halted ⊢
    cases taken : operator.operands machine.stack with
    | ok operands => simp [apply_of_ok taken] at halted
    | error other =>
      rw [apply_of_error taken] at halted ⊢
      cases halted
      exact .operator found taken
  | none =>
    by_cases mark : Operator.assignmentMark ∈ token.toList
    · rw [read_of_composite found mark] at halted ⊢
      obtain ⟨done, piece, rest, emitted, reached, other, last, pieces, same, completes, halts, hlast⟩ :=
        applyPieces_halts halted
      cases same
      rw [hlast]
      exact .piece found mark pieces completes halts
    · rw [read_of_operand found mark] at halted
      exact absurd halted (push_no_problem token)

end

/-! ### The lines of a run -/

section
variable {dialect : Dialect} {strict : Bool} {expression token : String} {position : Nat} {tokens : List String}
  {machine : Machine}

theorem Step.noticed_lines (step : Step) (strict : Bool) (expression token : String) (position : Nat) :
    (step.noticed strict expression position).map Event.logLine =
      (step.noted strict { expression, position, token }).map (.notice expression) := by
  unfold noticed noted
  split
  · rename_i problem halted
    cases strict with
    | true => rfl
    | false => cases problem <;> rfl
  · rfl

/-- A token before the others has its lines before theirs: about what it does, and then about what is noted
of it. -/
theorem Run.log_after (run : Run) (strict : Bool) (expression token : String) (position : Nat) (machine : Machine) :
    (run.after (machine.read dialect token)
      ((machine.read dialect token).noted strict { expression, position, token })
      ((machine.read dialect token).noticed strict expression position)).log =
      (dialect.operand? token).toList.map Value.pushLine ++ (machine.read dialect token).instructions.map .emit ++
        ((machine.read dialect token).noted strict { expression, position, token }).map (.notice expression) ++
        run.log := by
  rw [log, events_after, List.map_append, List.map_append, Step.noticed_lines, Machine.read_events, List.map_append,
    List.map_map, List.map_map]
  rfl

theorem Run.filter_log_after (run : Run) (strict : Bool) (expression token : String) (position : Nat)
    (machine : Machine) (p : LogLine → Bool) :
    (run.after (machine.read dialect token)
      ((machine.read dialect token).noted strict { expression, position, token })
      ((machine.read dialect token).noticed strict expression position)).log.filter p =
      ((dialect.operand? token).toList.map Value.pushLine).filter p ++
        ((machine.read dialect token).instructions.map .emit).filter p ++
        (((machine.read dialect token).noted strict { expression, position, token }).map (.notice expression)).filter p ++
        run.log.filter p := by
  rw [log_after, List.filter_append, List.filter_append, List.filter_append]

/-- A run has every property that an end without a line has and that a token put before the others keeps. -/
theorem Machine.run_keeps {P : Run → Prop}
    (ended : ∀ machine ending tokensConsumed, P { machine, ending, tokensConsumed })
    (after : ∀ (run : Run) (machine : Machine) (token : String) (position : Nat), P run → P (run.after (machine.read dialect token)
      ((machine.read dialect token).noted strict { expression, position, token })
      ((machine.read dialect token).noticed strict expression position))) :
    P (machine.run dialect strict expression position tokens) := by
  induction tokens generalizing position machine with
  | nil => exact ended _ _ _
  | cons token rest ih =>
    cases ends : (machine.read dialect token).ending? strict { expression, position, token } with
    | some ending =>
      rw [run_of_ending ends]
      exact after _ _ _ _ (ended _ _ _)
    | none =>
      rw [run_of_onward ends]
      exact after _ _ _ _ ih

theorem Machine.run_emits :
    (machine.run dialect strict expression position tokens).log.filter (LogLine.begins "Emit") =
      (machine.run dialect strict expression position tokens).instructions.map .emit := by
  refine run_keeps (P := fun run => run.log.filter (LogLine.begins "Emit") = run.instructions.map .emit)
    (fun _ _ _ => rfl) fun run machine token position ih => ?_
  have pushes : ∀ value : Value, value.pushLine.begins "Emit" = false := by simp [Value.pushLine, LogLine.begins]
  have emits : ∀ instruction, (LogLine.emit instruction).begins "Emit" = true := by simp [LogLine.begins]
  have notices := LogLine.begins_notice "Emit" (by decide) expression
  rw [Run.filter_log_after, LogLine.filter_none pushes, LogLine.filter_all emits, LogLine.filter_none notices, ih,
    Run.instructions_after, List.map_append, List.nil_append, List.append_nil]

theorem Machine.run_notices :
    (machine.run dialect strict expression position tokens).log.filter LogLine.notable =
      (machine.run dialect strict expression position tokens).diagnostics.map (.notice expression) := by
  refine run_keeps (P := fun run => run.log.filter LogLine.notable = run.diagnostics.map (.notice expression))
    (fun _ _ _ => rfl) fun run machine token position ih => ?_
  have pushes : ∀ value : Value, value.pushLine.notable = false := fun _ => rfl
  have emits : ∀ instruction, (LogLine.emit instruction).notable = false := fun _ => rfl
  have notices := LogLine.notable_notice expression
  rw [Run.filter_log_after, LogLine.filter_none pushes, LogLine.filter_none emits, LogLine.filter_all notices, ih,
    Run.diagnostics_after, List.map_append, List.append_nil, List.nil_append]

theorem Machine.run_unsummed :
    (machine.run dialect strict expression position tokens).log.filter (LogLine.begins "Parsed") = [] := by
  refine run_keeps (P := fun run => run.log.filter (LogLine.begins "Parsed") = [])
    (fun _ _ _ => rfl) fun run machine token position ih => ?_
  have pushes : ∀ value : Value, value.pushLine.begins "Parsed" = false := by simp [Value.pushLine, LogLine.begins]
  have emits : ∀ instruction, (LogLine.emit instruction).begins "Parsed" = false := by simp [LogLine.begins]
  have notices := LogLine.begins_notice "Parsed" (by decide) expression
  rw [Run.filter_log_after, LogLine.filter_none pushes, LogLine.filter_none emits, LogLine.filter_none notices, ih]
  rfl

theorem Machine.run_strict_clean : (machine.run dialect true expression position tokens).diagnostics = [] := by
  refine run_keeps (P := fun run => run.diagnostics = []) (fun _ _ _ => rfl) fun run machine token position ih => ?_
  rw [Run.diagnostics_after, ih, List.append_nil]
  unfold Step.noted
  split <;> rfl

theorem Machine.run_pushes {count : Nat}
    (consumed : (machine.run dialect strict expression position tokens).tokensConsumed = position + count) :
    (machine.run dialect strict expression position tokens).log.filter (LogLine.begins "Push") =
      ((tokens.take (count + 1)).filterMap dialect.operand?).map Value.pushLine := by
  induction tokens generalizing position machine count with
  | nil => rfl
  | cons token rest ih =>
    have pushes : ∀ value : Value, value.pushLine.begins "Push" = true := by simp [Value.pushLine, LogLine.begins]
    have emits : ∀ instruction, (LogLine.emit instruction).begins "Push" = false := by simp [LogLine.begins]
    have notices := LogLine.begins_notice "Push" (by decide) expression
    cases ends : (machine.read dialect token).ending? strict { expression, position, token } with
    | some ending =>
      rw [run_of_ending ends] at consumed ⊢
      obtain rfl : count = 0 := Nat.add_left_cancel consumed.symm
      rw [Run.filter_log_after, LogLine.filter_all pushes, LogLine.filter_none emits, LogLine.filter_none notices]
      cases brings : dialect.operand? token <;> simp [brings, Run.ended, Run.log]
    | none =>
      rw [run_of_onward ends] at consumed ⊢
      have further : position + 1 ≤ position + count := consumed ▸ le_tokensConsumed
      obtain ⟨less, rfl⟩ : ∃ less, count = less + 1 := ⟨count - 1, by omega⟩
      have onward := ih (consumed.trans (by rw [Nat.add_assoc, Nat.add_comm 1]))
      rw [Run.filter_log_after, LogLine.filter_all pushes, LogLine.filter_none emits, LogLine.filter_none notices, onward,
        List.take_succ_cons]
      cases brings : dialect.operand? token <;> simp [brings]

theorem Step.length_errors (step : Step) (strict : Bool) (expression : String) (place : TokenLocation) :
    (((step.noted strict place).map (.notice expression)).filter LogLine.isError).length =
      if step.ending? strict place = some .stopped then 1 else 0 := by
  unfold noted ending?
  cases step.halt? with
  | none => rfl
  | some halt =>
    cases halt with
    | tooManyDigits refusal => rfl
    | problem problem =>
      cases strict with
      | true => rfl
      | false => cases problem <;> rfl

theorem Machine.run_errors :
    ((machine.run dialect strict expression position tokens).log.filter LogLine.isError).length =
      if (machine.run dialect strict expression position tokens).ending = .stopped then 1 else 0 := by
  induction tokens generalizing position machine with
  | nil => rfl
  | cons token rest ih =>
    have pushes : ∀ value : Value, value.pushLine.isError = false := fun _ => rfl
    have emits : ∀ instruction, (LogLine.emit instruction).isError = false := fun _ => rfl
    cases ends : (machine.read dialect token).ending? strict { expression, position, token } with
    | some ending =>
      rw [run_of_ending ends, Run.filter_log_after, LogLine.filter_none pushes, LogLine.filter_none emits,
        List.length_append, List.length_append, Step.length_errors, ends]
      by_cases stops : ending = .stopped <;> simp [Run.ended, Run.log, stops]
    | none =>
      rw [run_of_onward ends, Run.filter_log_after, LogLine.filter_none pushes, LogLine.filter_none emits,
        List.length_append, List.length_append, Step.length_errors, ends, ih]
      exact Nat.zero_add _

/-- The lines of the first tokens are the first lines. -/
theorem Machine.run_log_grows (first later : List String) :
    (machine.run dialect strict expression position first).log <+:
      (machine.run dialect strict expression position (first ++ later)).log := by
  rw [run_append]
  by_cases completed : (machine.run dialect strict expression position first).ending = .completed
  · rw [Run.andThen_of_completed completed, Run.log, Run.log, List.map_append]
    exact List.prefix_append ..
  · exact ⟨[], by rw [Run.andThen_of_ended completed, List.append_nil]⟩

/-- The line about a diagnostic comes right after those about the instructions of its token. -/
theorem Machine.run_log_noted {problem : Problem}
    (halted : (machine.read dialect token).halt? = some (.problem problem)) :
    (machine.run dialect false expression position [token]).log =
      (machine.read dialect token).instructions.map .emit ++
        [.notice expression (.ofProblem problem { expression, position, token })] := by
  have silent : dialect.operand? token = none := by
    unfold Dialect.operand?
    split
    · rename_i operand
      rw [read_of_operand operand.1 operand.2] at halted
      exact absurd halted (push_no_problem token)
    · rfl
  have noted : (machine.read dialect token).noted false { expression, position, token } =
      [.ofProblem problem { expression, position, token }] := by
    rw [Step.noted, halted]
    rfl
  cases ends : (machine.read dialect token).ending? false { expression, position, token } with
  | some ending =>
    rw [run_of_ending ends, Run.log_after, silent, noted]
    simp [Run.ended, Run.log]
  | none =>
    rw [run_of_onward ends, Run.log_after, silent, noted]
    simp [run_nil, Run.log]

/-- If each operand among some tokens is classified, all of them have their lines. -/
theorem Dialect.pushLines_classified (classified : ∀ token ∈ tokens, dialect.IsOperand token →
      ∃ value, Value.classify dialect.registers dialect.defaultSize token = .ok value) :
    List.Forall₂ (fun token line => ∃ value,
        Value.classify dialect.registers dialect.defaultSize token = .ok value ∧ line = .push token value.location)
      (tokens.filter dialect.IsOperand) ((tokens.filterMap dialect.operand?).map Value.pushLine) := by
  induction tokens with
  | nil => exact .nil
  | cons token rest ih =>
    obtain ⟨first, others⟩ := List.forall_mem_cons.mp classified
    by_cases operand : dialect.IsOperand token
    · obtain ⟨value, value_eq⟩ := first operand
      have brings : dialect.operand? token = some value := by
        refine (if_pos operand).trans ?_
        rw [value_eq]
        rfl
      rw [List.filter_cons_of_pos (by simpa using operand), List.filterMap_cons_some brings, List.map_cons]
      refine .cons ⟨value, value_eq, ?_⟩ (ih others)
      rw [Value.pushLine, Value.classify_name value_eq]
    · have none : dialect.operand? token = none := if_neg operand
      rw [List.filter_cons_of_neg (by simpa using operand), List.filterMap_cons_none none]
      exact ih others

end

/-! ### The log of an answer -/

namespace Lowerer
variable {lowerer : Lowerer} {expression : String} {lowering : Lowering}

/-- What the log tells of an expression that comes to a result. -/
structure LogTells (lowerer : Lowerer) (expression : String) (lowering : Lowering) : Prop where
  /-- Each diagnostic has its line, in order, and there are no other warnings and errors. -/
  notices : (lowerer.lower expression).log.filter LogLine.notable = lowering.diagnostics.map (.notice expression)
  errors : ((lowerer.lower expression).log.filter LogLine.isError).length = if lowering.status = .failed then 1 else 0
  /-- The line about a diagnostic is the last one of its token: those of the instructions that the token has
  emitted come before it. -/
  placed : ∀ diagnostic ∈ lowering.diagnostics, ∃ (index : Nat) (token : String) (problem : Problem)
    (emitted : List Instruction), lowerer.Reaches expression index token ∧
      diagnostic = .ofProblem problem { expression, position := index, token } ∧
      HaltsAfter lowerer.dialect token (lowerer.runFirst expression index).machine problem emitted ∧
      (lowerer.runFirst expression (index + 1)).log =
        (lowerer.runFirst expression index).log ++ emitted.map .emit ++ [.notice expression diagnostic]
  /-- The lines of a token come after those of the tokens before it. -/
  grows : ∀ count, (lowerer.runFirst expression count).log <+: (lowerer.runFirst expression (count + 1)).log
  /-- After the lines of all tokens there is one more. -/
  last : (lowerer.lower expression).log = (lowerer.runFirst expression (tokens expression).length).log ++
    [.parsed lowering (lowerer.lower expression).lowerer.machine.stack.length]
  once : (lowerer.lower expression).log.filter (LogLine.begins "Parsed") =
    [.parsed lowering (lowerer.lower expression).lowerer.machine.stack.length]

theorem log_of_error {fault : Fault} (result : (lowerer.lower expression).result = .error fault) :
    (lowerer.lower expression).log = (lowerer.run expression).log := by
  rw [lower_of_faulted (result_eq_error.mp result)]
  rfl

theorem log_of_ok (result : (lowerer.lower expression).result = .ok lowering) :
    (lowerer.lower expression).log = (lowerer.run expression).log ++
      [.parsed lowering (lowerer.lower expression).lowerer.machine.stack.length] := by
  obtain ⟨ends, rfl⟩ := result_eq_ok.mp result
  rw [lower_of_ended ends, Answer.log, List.map_append]
  rfl

/-- Lines of a kind that no summary is of are lines of the run. -/
theorem filter_log (lowerer : Lowerer) (expression : String) {p : LogLine → Bool}
    (other : ∀ lowering depth, p (.parsed lowering depth) = false) :
    (lowerer.lower expression).log.filter p = (lowerer.run expression).log.filter p := by
  cases result : (lowerer.lower expression).result with
  | error fault => rw [log_of_error result]
  | ok lowering => rw [log_of_ok result, List.filter_append, List.filter_singleton, other, cond_false, List.append_nil]

theorem run_placed {diagnostic : Diagnostic} (noted : diagnostic ∈ (lowerer.run expression).diagnostics) :
    ∃ (index : Nat) (token : String) (problem : Problem) (emitted : List Instruction),
      lowerer.Reaches expression index token ∧
      diagnostic = .ofProblem problem { expression, position := index, token } ∧
      HaltsAfter lowerer.dialect token (lowerer.runFirst expression index).machine problem emitted ∧
      (lowerer.runFirst expression (index + 1)).log =
        (lowerer.runFirst expression index).log ++ emitted.map .emit ++ [.notice expression diagnostic] := by
  cases strict : lowerer.strict with
  | true =>
    rw [run, strict, Machine.run_strict_clean] at noted
    cases noted
  | false =>
    obtain ⟨index, token, problem, htoken, rfl, completed, halted⟩ := run_notes strict noted
    have reaches : lowerer.Reaches expression index token := ⟨htoken, completed⟩
    refine ⟨index, token, problem, _, reaches, rfl, Machine.read_haltsAfter halted, ?_⟩
    rw [runFirst_succ strict reaches, Run.andThen_of_completed completed, Run.log, List.map_append, List.append_assoc,
      ← Machine.run_log_noted halted]
    rfl

theorem runFirst_log_grows (lowerer : Lowerer) (expression : String) (count : Nat) :
    (lowerer.runFirst expression count).log <+: (lowerer.runFirst expression (count + 1)).log := by
  rw [runFirst, runFirst, List.take_add_one]
  exact Machine.run_log_grows _ _

theorem runFirst_all (lowerer : Lowerer) (expression : String) :
    lowerer.runFirst expression (tokens expression).length = lowerer.run expression := by
  rw [runFirst, List.take_length, run]

theorem logTells_of_result (result : (lowerer.lower expression).result = .ok lowering) :
    lowerer.LogTells expression lowering := by
  have whole := log_of_ok result
  obtain ⟨ends, same⟩ := result_eq_ok.mp result
  subst same
  exact
    { notices := (filter_log lowerer expression fun _ _ => rfl).trans Machine.run_notices
      errors := by
        rw [filter_log lowerer expression fun _ _ => rfl, run, Machine.run_errors]
        exact if_congr Run.status_eq_failed.symm rfl rfl
      placed := fun _ => run_placed
      grows := lowerer.runFirst_log_grows expression
      last := by rw [runFirst_all, whole]
      once := by
        rw [whole, List.filter_append, run, Machine.run_unsummed, List.nil_append]
        exact List.filter_eq_self.mpr (by simp [LogLine.begins]) }

/-- Also where a fault ends an expression, there are lines about the operands that were classified before it. -/
theorem log_pushes (lowerer : Lowerer) (expression : String) :
    let looked := (tokens expression).take ((lowerer.run expression).tokensConsumed + 1)
    (lowerer.lower expression).log.filter (LogLine.begins "Push") =
      (looked.filterMap lowerer.dialect.operand?).map Value.pushLine := by
  rw [lowerer.filter_log expression (by simp [LogLine.begins])]
  exact Machine.run_pushes (Nat.zero_add _).symm

/-- The log of an expression is a faithful trace, whatever the tables, the state of the lowerer and the
expression. Its lines about instructions are those of the instructions that are new, in order, also before a
fault. If all operands that are looked at can be classified, its lines about operands are theirs, in order,
with the places they were found to live in. A result has one line for each diagnostic, after the lines of its
token and before those of the next one, and a last line that sums it up. A fault has no such line, and in
strict mode nothing is told as a warning or an error. -/
theorem log_traces_lowering (lowerer : Lowerer) (expression : String) :
    let answer := lowerer.lower expression
    let looked := (tokens expression).take ((lowerer.run expression).tokensConsumed + 1)
    let classify := Value.classify lowerer.dialect.registers lowerer.dialect.defaultSize
    (∃ new, answer.lowerer.instructions = lowerer.instructions ++ new ∧
      answer.log.filter (LogLine.begins "Emit") = new.map .emit) ∧
    ((∀ token ∈ looked, lowerer.dialect.IsOperand token → ∃ value, classify token = .ok value) →
      List.Forall₂ (fun token line => ∃ value, classify token = .ok value ∧ line = .push token value.location)
        (looked.filter lowerer.dialect.IsOperand) (answer.log.filter (LogLine.begins "Push"))) ∧
    (∀ lowering, answer.result = .ok lowering → lowerer.LogTells expression lowering) ∧
    (∀ fault, answer.result = .error fault → answer.log.filter (LogLine.begins "Parsed") = []) ∧
    (lowerer.strict = true → answer.log.filter LogLine.notable = []) := by
  intro answer looked classify
  refine ⟨⟨(lowerer.run expression).instructions, ?_, ?_⟩, fun classified => ?_, fun lowering => logTells_of_result,
    fun fault result => ?_, fun strict => ?_⟩
  · exact congrArg Lowerer.instructions (lower_lowerer lowerer expression)
  · rw [lowerer.filter_log expression (by simp [LogLine.begins])]
    exact Machine.run_emits
  · rw [lowerer.log_pushes expression]
    exact Dialect.pushLines_classified classified
  · rw [log_of_error result]
    exact Machine.run_unsummed
  · rw [lowerer.filter_log expression fun _ _ => rfl, run, Machine.run_notices, strict, Machine.run_strict_clean]
    rfl

/-- One piece of a composite token is done before the stack is too low for the next one, and a later
composite stops the lowering. -/
theorem log_traces_lowering_example :
    let lowerer := fresh Profile.defaultName Profile.builtin.toDialect false
    let expression := "2,rax,+=-=,foo=,rcx"
    let lowering := summary expression (lowerer.run expression)
    (lowerer.lower expression).result = .ok lowering ∧ lowering.status = .failed ∧
      (lowerer.lower expression).log.map LogLine.text =
        ["Push constant operand '2'", "Push register operand 'rax'", "Emit 'tmp_1 = 2 + rax'", "Emit '2 = tmp_1'",
          "Skipped token 2 of '2,rax,+=-=,foo=,rcx': operator '-' needs 2 operand(s), stack holds 1",
          "Translation of '2,rax,+=-=,foo=,rcx' stopped at token 3: unknown operator 'foo' in composite token 'foo='",
          "Parsed '2,rax,+=-=,foo=,rcx': failed, 2 instruction(s), stack depth 1"] ∧
      lowerer.LogTells expression lowering := by
  intro lowerer expression lowering
  have stopped : (lowerer.run expression).ending = .stopped := by decide +kernel
  have result : (lowerer.lower expression).result = .ok lowering :=
    result_eq_ok.mpr ⟨fun fault faulted => (nomatch stopped.symm.trans faulted), rfl⟩
  obtain ⟨-, -, tells, -⟩ := log_traces_lowering lowerer expression
  exact ⟨result, Run.status_eq_failed.mpr stopped, by decide +kernel, tells lowering result⟩

end Lowerer
end EsilLowering
