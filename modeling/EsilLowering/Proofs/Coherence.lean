import EsilLowering.Proofs.Concatenation
import EsilLowering.Proofs.Pieces

/-! # What a lowering says of itself

The parts of a lowering agree with each other and with the expression. Each diagnostic is the note of
a problem that the token at its position had in the state that the tokens before it left, so positions
increase and kinds fit the errors. The run goes on after all diagnostics but that of an unknown
operator, which is therefore the last one, and status and count tell which of the two it was. -/

namespace EsilLowering

/-- The family of the errors that are noted under a kind. -/
def ProblemKind.family : ProblemKind → FaultFamily
  | stackUnderflow => .stackUnderflow
  | unknownOperator => .unknownOperator
  | unsupportedArity => .unsupportedArity

/-- While a machine reads a token, an operator comes up in some state of it: the operator that the token
is comes up at once, and that of a piece of a composite token when the pieces before it are done. -/
inductive ComesUp (dialect : Dialect) (token : String) (machine : Machine) : Operator → Machine → Prop where
  | alone {operator : Operator} (found : dialect.operators.get? token = some operator) :
      ComesUp dialect token machine operator machine
  | piece {done rest : List String} {piece : String} {operator : Operator} {emitted : List Instruction}
      {reached : Machine} (absent : dialect.operators.get? token = none)
      (mark : Operator.assignmentMark ∈ token.toList) (pieces : compositePieces token = done ++ piece :: rest)
      (completes : Completes dialect done machine emitted reached)
      (found : dialect.operators.get? piece = some operator) :
      ComesUp dialect token machine operator reached

/-! ### Problems -/

theorem Problem.stops_iff {problem : Problem} : problem.stops = true ↔ problem.kind = .unknownOperator := by
  cases problem <;> simp [stops, kind]

theorem Problem.family_kind (problem : Problem) (place : TokenLocation) :
    (Fault.lowering (Diagnostic.ofProblem problem place).error).family =
      (Diagnostic.ofProblem problem place).kind.family := by
  cases problem <;> rfl

section
variable {dialect : Dialect} {machine : Machine} {token symbol : String} {required available : Int}

theorem Operator.operands_low {operator : Operator} {stack : List Value}
    (missing : operator.operands stack = .error (.stackUnderflow symbol required available)) :
    available < required ∧ required = (max operator.arity.toNat 1 : Nat) ∧ (required = 1 ∨ required = 2) ∧
      symbol = operator.symbol ∧ available = stack.length := by
  rcases operands_eq_error.mp missing with ⟨-, h⟩ | ⟨hternary, hdepth, h⟩
  · cases h
  · cases h
    refine ⟨Int.ofNat_lt.mpr hdepth, rfl, ?_, rfl, rfl⟩
    cases arity : operator.arity with
    | ternary => exact absurd arity hternary
    | nullary | unary => exact Or.inl rfl
    | binary => exact Or.inr rfl

/-- The stack is too low for an operator that comes up, not for an assignment of its result. -/
theorem Machine.read_low
    (halted : (machine.read dialect token).halt? = some (.problem (.stackUnderflow symbol required available))) :
    ∃ operator reached, ComesUp dialect token machine operator reached ∧
      operator.operands reached.stack = .error (.stackUnderflow symbol required available) := by
  cases found : dialect.operators.get? token with
  | some operator =>
    rw [read_of_operator found] at halted
    cases taken : operator.operands machine.stack with
    | ok operands => simp [apply_of_ok taken] at halted
    | error problem =>
      obtain rfl : problem = .stackUnderflow symbol required available := by
        simpa [apply_of_error taken, refuse] using halted
      exact ⟨operator, machine, .alone found, taken⟩
  | none =>
    by_cases mark : Operator.assignmentMark ∈ token.toList
    · rw [read_of_composite found mark] at halted
      obtain ⟨done, piece, rest, emitted, reached, problem, last, pieces, hproblem, completes, halts, -⟩ :=
        applyPieces_halts halted
      cases hproblem
      cases halts with
      | @refused operator _ listed missing =>
        exact ⟨operator, _, .piece found mark pieces completes listed, missing⟩
    · rw [read_of_operand found mark] at halted
      exact absurd halted (push_no_problem token)

end

/-! ### Runs -/

theorem Step.noted_lenient (step : Step) (place : TokenLocation) :
    step.noted false place = [] ∨
      ∃ problem, step.halt? = some (.problem problem) ∧ step.noted false place = [.ofProblem problem place] := by
  unfold noted
  split
  · rename_i problem halted
    exact Or.inr ⟨problem, halted, rfl⟩
  · exact Or.inl rfl

theorem Step.mem_noted_lenient {step : Step} {place : TokenLocation} {diagnostic : Diagnostic}
    (h : diagnostic ∈ step.noted false place) :
    ∃ problem, step.halt? = some (.problem problem) ∧ diagnostic = .ofProblem problem place := by
  rcases step.noted_lenient place with hnone | ⟨problem, halted, hnoted⟩
  · rw [hnone] at h
    cases h
  · rw [hnoted] at h
    exact ⟨problem, halted, List.mem_singleton.mp h⟩

section
variable {dialect : Dialect} {machine : Machine} {expression : String} {position : Nat} {tokens : List String}

/-- What a lenient run notes, it notes of a token that it comes to and that has a problem, in the state that
the tokens before it leave. -/
theorem Machine.run_notes {diagnostic : Diagnostic}
    (noted : diagnostic ∈ (machine.run dialect false expression position tokens).diagnostics) :
    ∃ index token problem, tokens[index]? = some token ∧
      diagnostic = .ofProblem problem { expression, position := (position + index : Nat), token } ∧
      (machine.run dialect false expression position (tokens.take index)).ending = .completed ∧
      ((machine.run dialect false expression position (tokens.take index)).machine.read dialect token).halt? =
        some (.problem problem) := by
  induction tokens generalizing position machine with
  | nil => cases noted
  | cons token rest ih =>
    cases ends : (machine.read dialect token).ending? false { expression, position, token } with
    | some ending =>
      rw [run_of_ending ends, Run.diagnostics_after] at noted
      rcases List.mem_append.mp noted with first | nothing
      · obtain ⟨problem, halted, hdiagnostic⟩ := Step.mem_noted_lenient first
        exact ⟨0, token, problem, rfl, hdiagnostic, rfl, halted⟩
      · cases nothing
    | none =>
      rw [run_of_onward ends, Run.diagnostics_after] at noted
      rcases List.mem_append.mp noted with first | later
      · obtain ⟨problem, halted, hdiagnostic⟩ := Step.mem_noted_lenient first
        exact ⟨0, token, problem, rfl, hdiagnostic, rfl, halted⟩
      · obtain ⟨index, found, problem, htoken, hdiagnostic, completed, halted⟩ := ih later
        refine ⟨index + 1, found, problem, htoken, ?_, ?_⟩
        · rw [hdiagnostic, Nat.add_assoc, Nat.add_comm 1]
        · rw [List.take_succ_cons, run_of_onward ends, Run.machine_after, Run.ending_after]
          exact ⟨completed, halted⟩

theorem Machine.le_position {diagnostic : Diagnostic}
    (noted : diagnostic ∈ (machine.run dialect false expression position tokens).diagnostics) :
    (position : Int) ≤ diagnostic.position := by
  obtain ⟨index, token, problem, -, rfl, -⟩ := run_notes noted
  exact Int.ofNat_le.mpr (Nat.le_add_right ..)

theorem Machine.run_positions :
    ((machine.run dialect false expression position tokens).diagnostics.map Diagnostic.position).Pairwise
      (· < ·) := by
  induction tokens generalizing position machine with
  | nil => exact .nil
  | cons token rest ih =>
    have one := (machine.read dialect token).noted_lenient { expression, position, token }
    cases ends : (machine.read dialect token).ending? false { expression, position, token } with
    | some ending =>
      rw [run_of_ending ends, Run.diagnostics_after]
      rcases one with hnone | ⟨problem, -, hnoted⟩
      · rw [hnone]
        exact .nil
      · rw [hnoted]
        exact List.pairwise_singleton ..
    | none =>
      rw [run_of_onward ends, Run.diagnostics_after]
      rcases one with hnone | ⟨problem, -, hnoted⟩
      · rw [hnone]
        exact ih
      · rw [hnoted]
        refine List.pairwise_cons.mpr ⟨fun later hlater => ?_, ih⟩
        obtain ⟨diagnostic, hmem, rfl⟩ := List.mem_map.mp hlater
        exact Int.lt_of_lt_of_le (Int.ofNat_lt.mpr (Nat.lt_succ_self position)) (le_position hmem)

/-- A run notes problems that are no unknown operators, and then the unknown operator at which it stops, if
it does. -/
structure Run.NotesUnknownLast (run : Run) (known : List Diagnostic) (unknown? : Option Diagnostic) : Prop where
  diagnostics : run.diagnostics = known ++ unknown?.toList
  known : ∀ diagnostic ∈ known, diagnostic.kind ≠ .unknownOperator
  unknown : ∀ diagnostic ∈ unknown?, diagnostic.kind = .unknownOperator ∧ diagnostic.position = run.tokensConsumed
  stopped : run.ending = .stopped ↔ unknown?.isSome = true

theorem Machine.run_notesUnknownLast :
    ∃ known unknown?, (machine.run dialect false expression position tokens).NotesUnknownLast known unknown? := by
  induction tokens generalizing position machine with
  | nil => exact ⟨[], none, rfl, by simp, by simp, by simp [run_nil]⟩
  | cons token rest ih =>
    obtain ⟨known, unknown?, onward⟩ : ∃ known unknown?, ((machine.read dialect token).machine.run dialect false
        expression (position + 1) rest).NotesUnknownLast known unknown? := ih
    -- What the rest of the tokens notes last stays last: a token that stops the run has no rest.
    cases halted : (machine.read dialect token).halt? with
    | none =>
      rw [run_of_done halted]
      exact ⟨known, unknown?, onward.diagnostics, onward.known, onward.unknown, onward.stopped⟩
    | some halt =>
      cases halt with
      | tooManyDigits refusal =>
        rw [run_of_tooManyDigits halted]
        exact ⟨[], none, rfl, by simp, by simp, by simp [Run.ended]⟩
      | problem problem =>
        cases stops : problem.stops with
        | true =>
          rw [run_of_stop halted stops]
          refine ⟨[], some (.ofProblem problem { expression, position, token }), rfl, by simp, ?_, by simp [Run.ended]⟩
          rintro diagnostic ⟨⟩
          exact ⟨Problem.stops_iff.mp stops, rfl⟩
        | false =>
          rw [run_of_skip halted stops]
          refine ⟨.ofProblem problem { expression, position, token } :: known, unknown?,
            congrArg (_ :: ·) onward.diagnostics, List.forall_mem_cons.mpr ⟨fun unknown => ?_, onward.known⟩,
            onward.unknown, onward.stopped⟩
          rw [Problem.stops_iff.mpr unknown] at stops
          cases stops

end

section
variable {run : Run} {known : List Diagnostic} {unknown? : Option Diagnostic}

/-- A run fails exactly if the last thing it notes is an unknown operator. -/
theorem Run.NotesUnknownLast.status_eq_failed (h : run.NotesUnknownLast known unknown?) :
    run.status = .failed ↔ ∃ last ∈ run.diagnostics.getLast?, last.kind = .unknownOperator := by
  rw [Run.status_eq_failed, h.stopped, h.diagnostics]
  cases unknown? with
  | none =>
    rw [Option.toList_none, List.append_nil]
    exact ⟨(nomatch ·), fun ⟨last, hlast, hkind⟩ => absurd hkind (h.known last (List.mem_of_getLast? hlast))⟩
  | some unknown => simp [(h.unknown unknown rfl).1]

theorem Run.NotesUnknownLast.mem_dropLast (h : run.NotesUnknownLast known unknown?) {diagnostic : Diagnostic}
    (hmem : diagnostic ∈ run.diagnostics.dropLast) : diagnostic.kind ≠ .unknownOperator := by
  rw [h.diagnostics] at hmem
  cases unknown? with
  | none =>
    rw [Option.toList_none, List.append_nil] at hmem
    exact h.known diagnostic ((List.dropLast_sublist known).subset hmem)
  | some unknown =>
    rw [Option.toList_some, List.dropLast_concat] at hmem
    exact h.known diagnostic hmem

theorem Run.NotesUnknownLast.position_of_failed (h : run.NotesUnknownLast known unknown?)
    (failed : run.status = .failed) :
    ∃ last ∈ run.diagnostics.getLast?, (run.tokensConsumed : Int) = last.position := by
  obtain ⟨unknown, rfl⟩ := Option.isSome_iff_exists.mp (h.stopped.mp (Run.status_eq_failed.mp failed))
  refine ⟨unknown, ?_, (h.unknown unknown rfl).2.symm⟩
  rw [h.diagnostics, Option.toList_some, List.getLast?_concat]
  rfl

theorem Run.NotesUnknownLast.status_eq_success (h : run.NotesUnknownLast known unknown?) :
    run.status = .success ↔ run.diagnostics = [] := by
  by_cases stopped : run.ending = .stopped
  · obtain ⟨unknown, rfl⟩ := Option.isSome_iff_exists.mp (h.stopped.mp stopped)
    simp [status, stopped, h.diagnostics]
  · by_cases clean : run.diagnostics = [] <;> simp [status, stopped, clean]

theorem Run.NotesUnknownLast.status_eq_incomplete (h : run.NotesUnknownLast known unknown?) :
    run.status = .incomplete ↔
      run.diagnostics ≠ [] ∧ ∀ last ∈ run.diagnostics.getLast?, last.kind ≠ .unknownOperator := by
  have unfailed : (∀ last ∈ run.diagnostics.getLast?, last.kind ≠ .unknownOperator) ↔ run.status ≠ .failed := by
    rw [Ne, h.status_eq_failed]
    simp only [not_exists, not_and]
  rw [unfailed, Ne, ← h.status_eq_success]
  cases run.status <;> decide

end

/-! ### Lowerings -/

namespace Lowerer

/-- A diagnostic is about the token at its position. -/
def Placed (expression : String) (diagnostic : Diagnostic) : Prop :=
  ∃ (index : Nat) (token : String), (tokens expression)[index]? = some token ∧
    diagnostic.error.location? = some { expression, position := index, token } ∧
    diagnostic.position = index ∧ diagnostic.token = token

/-- A diagnostic of a stack that is too low names an operator that came up at its token, how many operands that
operator needs, and how many values there were on the stack. -/
def TellsDepth (lowerer : Lowerer) (expression : String) (diagnostic : Diagnostic) : Prop :=
  ∃ symbol required available, diagnostic.error.cause = .found (.stackUnderflow symbol required available) ∧
    available < required ∧ (required = 1 ∨ required = 2) ∧
    ∃ (index : Nat) (operator : Operator) (reached : Machine), diagnostic.position = index ∧
      ComesUp lowerer.dialect diagnostic.token (lowerer.runFirst expression index).machine operator reached ∧
      symbol = operator.symbol ∧ required = (max operator.arity.toNat 1 : Nat) ∧ available = reached.stack.length

/-- What a lowering says of an expression agrees with the expression, with itself and with the lowerer that
it came from. -/
structure Coherent (lowerer : Lowerer) (expression : String) (lowering : Lowering) : Prop where
  /-- Diagnostics are in the order of their tokens, one of each at most. -/
  positions : (lowering.diagnostics.map Diagnostic.position).Pairwise (· < ·)
  places : ∀ diagnostic ∈ lowering.diagnostics, Placed expression diagnostic
  kinds : ∀ diagnostic ∈ lowering.diagnostics, (Fault.lowering diagnostic.error).family = diagnostic.kind.family
  depths : ∀ diagnostic ∈ lowering.diagnostics, diagnostic.kind = .stackUnderflow →
    lowerer.TellsDepth expression diagnostic
  unknown : ∀ diagnostic ∈ lowering.diagnostics.dropLast, diagnostic.kind ≠ .unknownOperator
  success : lowering.status = .success ↔ lowering.diagnostics = []
  failed : lowering.status = .failed ↔ ∃ last ∈ lowering.diagnostics.getLast?, last.kind = .unknownOperator
  incomplete : lowering.status = .incomplete ↔
    lowering.diagnostics ≠ [] ∧ ∀ last ∈ lowering.diagnostics.getLast?, last.kind ≠ .unknownOperator
  consumed : lowering.status ≠ .failed → lowering.tokensConsumed = (tokens expression).length
  stopped : lowering.status = .failed →
    ∃ last ∈ lowering.diagnostics.getLast?, (lowering.tokensConsumed : Int) = last.position
  /-- The instructions come after those that there were. -/
  instructions : (lowerer.lower expression).lowerer.instructions = lowerer.instructions ++ lowering.instructions

variable {lowerer : Lowerer} {expression : String}

theorem run_notes (lenient : lowerer.strict = false) {diagnostic : Diagnostic}
    (noted : diagnostic ∈ (lowerer.run expression).diagnostics) :
    ∃ index token problem, (tokens expression)[index]? = some token ∧
      diagnostic = .ofProblem problem { expression, position := (index : Nat), token } ∧
      (lowerer.runFirst expression index).ending = .completed ∧
      ((lowerer.runFirst expression index).machine.read lowerer.dialect token).halt? = some (.problem problem) := by
  rw [run_of_lenient lenient] at noted
  obtain ⟨index, token, problem, htoken, hdiagnostic, reached⟩ := Machine.run_notes noted
  refine ⟨index, token, problem, htoken, by rw [hdiagnostic, Nat.zero_add], ?_⟩
  rw [runFirst, lenient]
  exact reached

theorem run_notesUnknownLast (lenient : lowerer.strict = false) (expression : String) :
    ∃ known unknown?, (lowerer.run expression).NotesUnknownLast known unknown? := by
  rw [run_of_lenient lenient]
  exact Machine.run_notesUnknownLast

theorem run_positions (lenient : lowerer.strict = false) :
    ((lowerer.run expression).diagnostics.map Diagnostic.position).Pairwise (· < ·) := by
  rw [run_of_lenient lenient]
  exact Machine.run_positions

section
variable {diagnostic : Diagnostic}

theorem placed_of_noted (lenient : lowerer.strict = false)
    (noted : diagnostic ∈ (lowerer.run expression).diagnostics) : Placed expression diagnostic := by
  obtain ⟨index, token, problem, htoken, rfl, -⟩ := run_notes lenient noted
  exact ⟨index, token, htoken, rfl, rfl, rfl⟩

theorem family_of_noted (lenient : lowerer.strict = false)
    (noted : diagnostic ∈ (lowerer.run expression).diagnostics) :
    (Fault.lowering diagnostic.error).family = diagnostic.kind.family := by
  obtain ⟨index, token, problem, -, rfl, -⟩ := run_notes lenient noted
  exact problem.family_kind _

theorem tellsDepth_of_noted (lenient : lowerer.strict = false)
    (noted : diagnostic ∈ (lowerer.run expression).diagnostics) (underflow : diagnostic.kind = .stackUnderflow) :
    lowerer.TellsDepth expression diagnostic := by
  obtain ⟨index, token, problem, -, rfl, -, halted⟩ := run_notes lenient noted
  cases problem with
  | unknownOperator | unsupportedArity => cases underflow
  | stackUnderflow symbol required available =>
    obtain ⟨operator, reached, up, missing⟩ := Machine.read_low halted
    obtain ⟨hlow, harity, hrequired, hsymbol, havailable⟩ := Operator.operands_low missing
    exact ⟨symbol, required, available, rfl, hlow, hrequired, index, operator, reached, rfl, up, hsymbol, harity,
      havailable⟩

end

theorem coherent_of_result (lenient : lowerer.strict = false) {lowering : Lowering}
    (result : (lowerer.lower expression).result = .ok lowering) : lowerer.Coherent expression lowering := by
  obtain ⟨ends, rfl⟩ := result_eq_ok.mp result
  obtain ⟨known, unknown?, last⟩ := run_notesUnknownLast lenient expression
  have consumed (goes : (lowerer.run expression).status ≠ .failed) :
      (lowerer.run expression).tokensConsumed = (tokens expression).length := by
    have completed := Run.completed_of_status ends goes
    exact (Machine.tokensConsumed_of_completed completed).trans (Nat.zero_add _)
  exact
    { positions := run_positions lenient
      places := fun _ => placed_of_noted lenient
      kinds := fun _ => family_of_noted lenient
      depths := fun _ => tellsDepth_of_noted lenient
      unknown := fun _ => last.mem_dropLast
      success := last.status_eq_success
      failed := last.status_eq_failed
      incomplete := last.status_eq_incomplete
      consumed
      stopped := last.position_of_failed
      instructions := congrArg Lowerer.instructions (lower_lowerer lowerer expression) }

/-! ### Histories -/

/-- If each of some expressions gives a lowering, the instructions of the lowerer grow by those of the
lowerings, in order. -/
theorem instructions_lowered {expressions : List String} {lowerings : List Lowering}
    (results : (lowerer.lowerAll expressions).map Answer.result = lowerings.map .ok) :
    (lowerer.lowered expressions).instructions =
      lowerer.instructions ++ lowerings.flatMap Lowering.instructions := by
  induction expressions generalizing lowerer lowerings with
  | nil =>
    obtain rfl : lowerings = [] := by simpa [lowerAll] using results.symm
    exact (List.append_nil _).symm
  | cons expression rest ih =>
    rw [lowerAll, List.map_cons] at results
    obtain ⟨lowering, others, rfl, result, later⟩ := List.map_eq_cons_iff.mp results.symm
    obtain ⟨-, rfl⟩ := result_eq_ok.mp result.symm
    rw [lower_lowerer] at later
    rw [lowered_cons, ih later.symm, reach, List.flatMap_cons, List.append_assoc]
    rfl

/-- Whatever its state, a lenient lowerer says nothing of an expression that does not agree with the expression,
and what it has emitted is what its results list. -/
theorem lower_coherent (lenient : lowerer.strict = false) :
    (∀ expression, Text.joinFields tokenSeparator (tokens expression) = expression ∧
      ∀ lowering, (lowerer.lower expression).result = .ok lowering → lowerer.Coherent expression lowering) ∧
    ∀ (expressions : List String) (lowerings : List Lowering),
      (lowerer.lowerAll expressions).map Answer.result = lowerings.map .ok →
      (lowerer.lowered expressions).instructions = lowerer.instructions ++ lowerings.flatMap Lowering.instructions := by
  refine ⟨fun expression => ⟨Text.joinFields_fields tokenSeparator expression, fun lowering result => ?_⟩,
    fun expressions lowerings results => ?_⟩
  · exact coherent_of_result lenient result
  · exact instructions_lowered results

/-- The stack is too low for the second piece of a composite token, and a later token is unknown. -/
theorem lower_coherent_example :
    let lowerer := fresh Profile.defaultName Profile.builtin.toDialect false
    let expression := "2,rax,+=-=,+,x=,rcx"
    let lowering := summary expression (lowerer.run expression)
    lowerer.strict = false ∧ (lowerer.lower expression).result = .ok lowering ∧
      lowering.diagnostics.map Diagnostic.kind = [.stackUnderflow, .stackUnderflow, .unknownOperator] ∧
      lowering.tokensConsumed = 4 ∧ lowerer.Coherent expression lowering := by
  intro lowerer expression lowering
  have stopped : (lowerer.run expression).ending = .stopped := by decide +kernel
  have result : (lowerer.lower expression).result = .ok lowering :=
    result_eq_ok.mpr ⟨fun fault faulted => (nomatch stopped.symm.trans faulted), rfl⟩
  exact ⟨rfl, result, by decide +kernel, by decide +kernel, ((lower_coherent rfl).1 expression).2 lowering result⟩

end Lowerer
end EsilLowering
