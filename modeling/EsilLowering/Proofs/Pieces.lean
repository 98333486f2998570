import EsilLowering.Proofs.Operation

/-! # The pieces of a composite token

A composite token is worked through piece by piece, and the first piece that cannot do its work ends
it. What the pieces before it did stays. The piece itself leaves no trace, unless the table names an
operator that no instruction expresses for the assignment: then its own instruction has been emitted
by the time the assignment is refused. -/

namespace EsilLowering

/-- Pieces that do their work one after the other: each applies its operator and assigns the result
to the operator's first operand. -/
inductive Completes (dialect : Dialect) : List String → Machine → List Instruction → Machine → Prop where
  | nil (machine : Machine) : Completes dialect [] machine [] machine
  | cons {piece : String} {rest : List String} {operator : Operator} {machine reached : Machine}
      {later : List Instruction} (found : dialect.operators.get? piece = some operator)
      (assigned : (machine.applyAndAssign dialect.assignment operator).halt? = none)
      (onward : Completes dialect rest (machine.applyAndAssign dialect.assignment operator).machine later reached) :
      Completes dialect (piece :: rest) machine
        ((machine.applyAndAssign dialect.assignment operator).instructions ++ later) reached

/-- What a piece comes to that cannot do its work: the problem, and the instructions and the machine
that it leaves. -/
inductive PieceHalts (dialect : Dialect) (composite piece : String) (machine : Machine) :
    Problem → List Instruction → Machine → Prop where
  | unknown (absent : dialect.operators.get? piece = none) :
      PieceHalts dialect composite piece machine (.unknownOperator piece composite) [] machine
  | refused {operator : Operator} {problem : Problem} (found : dialect.operators.get? piece = some operator)
      (missing : operator.operands machine.stack = .error problem) :
      PieceHalts dialect composite piece machine problem [] machine
  | unassigned {operator : Operator} {operands : Operands} (found : dialect.operators.get? piece = some operator)
      (taken : operator.operands machine.stack = .ok operands) (ternary : dialect.assignment.arity = .ternary) :
      PieceHalts dialect composite piece machine (.unsupportedArity dialect.assignment.symbol 3)
        (machine.emitKeeping operator operands).instructions (machine.emitKeeping operator operands).machine

/-- Whatever the table has under the assignment symbol, an instruction expresses it. -/
def Dialect.Assigns (dialect : Dialect) : Prop :=
  ∀ assignment, dialect.operators.get? Operator.assignmentSymbol = some assignment → assignment.arity ≠ .ternary

section
variable {dialect : Dialect} {composite piece : String} {pieces : List String} {machine : Machine}
  {operator : Operator} {problem : Problem}

theorem Dialect.Assigns.arity_ne (h : dialect.Assigns) : dialect.assignment.arity ≠ .ternary := by
  unfold Dialect.assignment
  cases found : dialect.operators.get? Operator.assignmentSymbol with
  | none => simp [Operator.assignment]
  | some assignment => exact h assignment found

theorem PieceHalts.no_trace {last : List Instruction} {left : Machine} (assigns : dialect.Assigns)
    (h : PieceHalts dialect composite piece machine problem last left) : left = machine ∧ last = [] := by
  cases h with
  | unknown absent => exact ⟨rfl, rfl⟩
  | refused found missing => exact ⟨rfl, rfl⟩
  | unassigned found taken ternary => exact absurd ternary assigns.arity_ne

/-- Once the operator of a piece is applied, its result is assigned. -/
theorem Machine.applyAndAssign_done (assigns : dialect.Assigns) (h : (machine.apply operator).halt? = none) :
    (machine.applyAndAssign dialect.assignment operator).halt? = none := by
  cases taken : operator.operands machine.stack with
  | error problem => simp [apply_of_error taken, refuse] at h
  | ok operands =>
    obtain ⟨assigned, back⟩ := exists_assigned assigns.arity_ne machine operator operands
    simp [applyAndAssign_of_assigned taken back]

theorem Machine.applyAndAssign_halts {halt : Halt} (composite : String)
    (found : dialect.operators.get? piece = some operator)
    (h : (machine.applyAndAssign dialect.assignment operator).halt? = some halt) :
    ∃ problem, halt = .problem problem ∧ PieceHalts dialect composite piece machine problem
      (machine.applyAndAssign dialect.assignment operator).instructions
      (machine.applyAndAssign dialect.assignment operator).machine := by
  cases taken : operator.operands machine.stack with
  | error problem =>
    rw [applyAndAssign_of_error taken] at h ⊢
    exact ⟨problem, (Option.some.inj h).symm, .refused found taken⟩
  | ok operands =>
    by_cases ternary : dialect.assignment.arity = .ternary
    · rw [applyAndAssign_of_ternary taken ternary] at h ⊢
      exact ⟨_, (Option.some.inj h).symm, .unassigned found taken ternary⟩
    · obtain ⟨assigned, back⟩ := exists_assigned ternary machine operator operands
      simp [applyAndAssign_of_assigned taken back] at h

theorem Machine.applyPieces_completes (h : (machine.applyPieces dialect composite pieces).halt? = none) :
    Completes dialect pieces machine (machine.applyPieces dialect composite pieces).instructions
      (machine.applyPieces dialect composite pieces).machine := by
  induction pieces generalizing machine with
  | nil => exact .nil machine
  | cons piece rest ih =>
    unfold applyPieces at h ⊢
    split at h
    · simp [refuse] at h
    · rename_i operator found
      cases assigned : (machine.applyAndAssign dialect.assignment operator).halt? with
      | some halt => simp [Step.andThen_of_halt assigned, assigned] at h
      | none =>
        rw [Step.andThen_of_done assigned] at h
        rw [Step.andThen_of_done assigned]
        exact .cons found assigned (ih h)

theorem Machine.applyPieces_halts {halt : Halt} (h : (machine.applyPieces dialect composite pieces).halt? = some halt) :
    ∃ done piece rest emitted reached problem last, pieces = done ++ piece :: rest ∧ halt = .problem problem ∧
      Completes dialect done machine emitted reached ∧
      PieceHalts dialect composite piece reached problem last (machine.applyPieces dialect composite pieces).machine ∧
      (machine.applyPieces dialect composite pieces).instructions = emitted ++ last := by
  induction pieces generalizing machine with
  | nil => simp [applyPieces] at h
  | cons piece rest ih =>
    unfold applyPieces at h ⊢
    split at h
    · rename_i absent
      exact ⟨[], piece, rest, [], machine, _, [], rfl, (Option.some.inj h).symm, .nil machine, .unknown absent, rfl⟩
    · rename_i operator found
      cases assigned : (machine.applyAndAssign dialect.assignment operator).halt? with
      | some other =>
        rw [Step.andThen_of_halt assigned] at h ⊢
        obtain ⟨problem, hproblem, halts⟩ := applyAndAssign_halts composite found h
        exact ⟨[], piece, rest, [], machine, problem, _, rfl, hproblem, .nil machine, halts, rfl⟩
      | none =>
        -- The piece is done, so it joins those before the failing one.
        rw [Step.andThen_of_done assigned] at h ⊢
        obtain ⟨done, failing, after, emitted, reached, problem, last, rfl, hproblem, completes, halts, hlast⟩ := ih h
        refine ⟨piece :: done, failing, after, _, reached, problem, last, rfl, hproblem,
          .cons found assigned completes, halts, ?_⟩
        rw [hlast, List.append_assoc]

/-! ### A token with a problem -/

theorem Machine.apply_halts {halt : Halt} (h : (machine.apply operator).halt? = some halt) :
    (machine.apply operator).machine = machine ∧ (machine.apply operator).instructions = [] := by
  cases taken : operator.operands machine.stack with
  | error problem => rw [apply_of_error taken]; exact ⟨rfl, rfl⟩
  | ok operands => simp [apply_of_ok taken] at h

theorem Machine.read_of_operator {token : String} (found : dialect.operators.get? token = some operator) :
    machine.read dialect token = machine.apply operator := by
  simp [read, found]

theorem Machine.read_of_composite {token : String} (absent : dialect.operators.get? token = none)
    (mark : Operator.assignmentMark ∈ token.toList) :
    machine.read dialect token = machine.applyPieces dialect token (compositePieces token) := by
  simp [read, absent, mark]

theorem Machine.read_of_operand {token : String} (absent : dialect.operators.get? token = none)
    (noMark : Operator.assignmentMark ∉ token.toList) : machine.read dialect token = machine.push dialect token := by
  simp [read, absent, noMark]

/-- A token that is an operand, or an operator of some kind. -/
def Dialect.ReadsOnly (dialect : Dialect) (kind : Operator → Prop) (token : String) : Prop :=
  (∀ operator ∈ dialect.operators.get? token, kind operator) ∧
    (dialect.operators.get? token = none → Operator.assignmentMark ∉ token.toList)

instance (dialect : Dialect) (kind : Operator → Prop) [DecidablePred kind] (token : String) :
    Decidable (dialect.ReadsOnly kind token) :=
  inferInstanceAs (Decidable (_ ∧ _))

/-- An operand token has no problem; the worst it can be is a numeral too long to be read. -/
theorem Machine.push_no_problem (token : String) :
    (machine.push dialect token).halt? ≠ some (.problem problem) := by
  unfold push
  split <;> simp

theorem Machine.push_of_ok {token : String} {value : Value}
    (classified : Value.classify dialect.registers dialect.defaultSize token = .ok value) :
    machine.push dialect token =
      { machine := { machine with stack := value :: machine.stack }, events := [.pushed value] } := by
  simp [push, classified]

theorem Machine.classified_of_done {token : String} (done : (machine.push dialect token).halt? = none) :
    ∃ value, Value.classify dialect.registers dialect.defaultSize token = .ok value := by
  unfold push at done
  cases classified : Value.classify dialect.registers dialect.defaultSize token with
  | error refusal => simp [classified] at done
  | ok value => exact ⟨value, rfl⟩

/-- A token with a problem undoes nothing and leaves nothing half done. An operator token leaves the
machine as it was. A composite token leaves it as the pieces before the failing one did, since the
assignment of a piece does not fail once its operator is applied; only a table whose assignment no
instruction expresses lets the failing piece's own instruction stay. -/
theorem Machine.read_problem_keeps_completed_pieces {token : String}
    (halted : (machine.read dialect token).halt? = some (.problem problem)) :
    let step := machine.read dialect token
    (∀ operator, dialect.operators.get? token = some operator → step.machine = machine ∧ step.instructions = []) ∧
    (dialect.operators.get? token = none → Operator.assignmentMark ∈ token.toList ∧
      ∃ done piece rest emitted reached last, compositePieces token = done ++ piece :: rest ∧
        Completes dialect done machine emitted reached ∧
        PieceHalts dialect token piece reached problem last step.machine ∧ step.instructions = emitted ++ last ∧
        (dialect.Assigns → step.machine = reached ∧ step.instructions = emitted) ∧
        (dialect.Assigns → ∀ only, compositePieces token = [only] → step.machine = machine ∧ step.instructions = [])) ∧
    (dialect.Assigns → ∀ (other : Machine) (operator : Operator), (other.apply operator).halt? = none →
      (other.applyAndAssign dialect.assignment operator).halt? = none) := by
  intro step
  refine ⟨fun operator found => ?_, fun absent => ?_, fun assigns other operator => applyAndAssign_done assigns⟩
  · rw [read_of_operator found] at halted
    simp only [step, read_of_operator found]
    exact apply_halts halted
  · by_cases mark : Operator.assignmentMark ∈ token.toList
    · rw [read_of_composite absent mark] at halted
      simp only [step, read_of_composite absent mark]
      obtain ⟨done, piece, rest, emitted, reached, found, last, hpieces, hproblem, completes, halts, hlast⟩ :=
        applyPieces_halts halted
      cases hproblem
      have whole : dialect.Assigns → (machine.applyPieces dialect token (compositePieces token)).machine = reached ∧
          (machine.applyPieces dialect token (compositePieces token)).instructions = emitted := fun assigns => by
        obtain ⟨hleft, rfl⟩ := halts.no_trace assigns
        exact ⟨hleft, by rw [hlast, List.append_nil]⟩
      refine ⟨mark, done, piece, rest, emitted, reached, last, hpieces, completes, halts, hlast, whole, ?_⟩
      intro assigns only honly
      have alone : done = [] := by
        rw [honly] at hpieces
        cases done with
        | nil => rfl
        | cons first others => simp at hpieces
      subst alone
      cases completes
      exact whole assigns
    · rw [read_of_operand absent mark] at halted
      exact absurd halted (push_no_problem token)

/-- The first piece is done when the second one finds the stack too low. -/
theorem Machine.read_problem_keeps_addition :
    let dialect := Profile.builtin.toDialect
    let machine : Machine := { stack := [.temporary 2, .temporary 1], temporaries := ⟨2⟩ }
    let step := machine.read dialect "+=-="
    step.halt? = some (.problem (.stackUnderflow "-" 2 1)) ∧
      Operator.assignmentMark ∈ "+=-=".toList ∧
      ∃ done piece rest emitted reached last, compositePieces "+=-=" = done ++ piece :: rest ∧
        Completes dialect done machine emitted reached ∧
        PieceHalts dialect "+=-=" piece reached (.stackUnderflow "-" 2 1) last step.machine ∧
        step.instructions = emitted ++ last ∧
        (dialect.Assigns → step.machine = reached ∧ step.instructions = emitted) ∧
        (dialect.Assigns → ∀ only, compositePieces "+=-=" = [only] →
          step.machine = machine ∧ step.instructions = []) := by
  intro dialect machine step
  have halted : step.halt? = some (.problem (.stackUnderflow "-" 2 1)) := by decide +kernel
  have absent : dialect.operators.get? "+=-=" = none := by decide +kernel
  exact ⟨halted, (read_problem_keeps_completed_pieces halted).2.1 absent⟩

end
end EsilLowering
