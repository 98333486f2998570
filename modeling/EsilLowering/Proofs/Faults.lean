import EsilLowering.Proofs.Accesses

/-! # What ends an expression

Only two things end an expression by a fault. One is a numeral that is too long, at a token that is
neither an operator nor a register. The other is a problem in strict mode, which belongs to one of the
three families of problems. No access is a third, since each finds what it reaches for. -/

namespace EsilLowering

/-- A token that cannot be read: a numeral with too many digits that no table has. -/
def Dialect.Unreadable (dialect : Dialect) (token : String) (refusal : Numeral.TooManyDigits) : Prop :=
  dialect.operators.get? token = none ∧ dialect.registers.get? token = none ∧ Numeral.TooLong token refusal.digits

/-! ### Tokens -/

section
variable {dialect : Dialect} {machine : Machine} {token : String} {refusal : Numeral.TooManyDigits}

theorem Numeral.TooLong.noMark {count : Nat} (h : TooLong token count) : Operator.assignmentMark ∉ token.toList := by
  obtain ⟨negative, digits, ⟨sign, hsign, hchars, -, hdigits⟩, -⟩ := h
  intro mark
  rw [hchars] at mark
  rcases List.mem_append.mp mark with mark | mark
  · cases hsign <;> revert mark <;> decide
  · exact absurd (hdigits _ mark) (by decide)

/-- Operators and pieces of composite tokens halt at problems only. -/
theorem Machine.read_tooManyDigits : (machine.read dialect token).halt? = some (.tooManyDigits refusal) ↔
    dialect.Unreadable token refusal := by
  unfold Dialect.Unreadable
  cases found : dialect.operators.get? token with
  | some operator =>
    rw [read_of_operator found]
    refine ⟨fun halted => ?_, (nomatch ·.1)⟩
    cases taken : operator.operands machine.stack with
    | error problem => simp [apply_of_error taken, refuse] at halted
    | ok operands => simp [apply_of_ok taken] at halted
  | none =>
    by_cases mark : Operator.assignmentMark ∈ token.toList
    · rw [read_of_composite found mark]
      refine ⟨fun halted => ?_, fun h => absurd mark h.2.2.noMark⟩
      obtain ⟨-, -, -, -, -, problem, -, -, hproblem, -⟩ := applyPieces_halts halted
      cases hproblem
    · have unreadable : Value.classify dialect.registers dialect.defaultSize token = .error refusal ↔
          dialect.registers.get? token = none ∧ Numeral.TooLong token refusal.digits := Value.classify_eq_error
      rw [read_of_operand found mark, ← unreadable, push]
      cases classified : Value.classify dialect.registers dialect.defaultSize token with
      | error other => simp
      | ok value => simp

theorem Step.ending?_eq_faulted {step : Step} {strict : Bool} {place : TokenLocation} {fault : Fault}
    (h : step.ending? strict place = some (.faulted fault)) :
    (∃ refusal, step.halt? = some (.tooManyDigits refusal) ∧ fault = .refused (.tooManyDigits refusal)) ∨
    (strict = true ∧ ∃ problem, fault = .lowering (Diagnostic.ofProblem problem place).error) := by
  unfold ending? at h
  split at h
  · cases h
  · rename_i refusal halted
    cases h
    exact Or.inl ⟨refusal, halted, rfl⟩
  · rename_i problem halted
    split at h
    · rename_i hstrict
      cases h
      exact Or.inr ⟨hstrict, problem, rfl⟩
    · split at h <;> cases h

/-! ### Runs -/

theorem Machine.run_faulted {strict : Bool} {expression : String} {position : Nat} {tokens : List String}
    {fault : Fault} (faulted : (machine.run dialect strict expression position tokens).ending = .faulted fault) :
    (∃ token ∈ tokens, ∃ refusal, dialect.Unreadable token refusal ∧
      fault = .refused (.tooManyDigits refusal)) ∨
    (strict = true ∧ ∃ problem place, fault = .lowering (Diagnostic.ofProblem problem place).error) := by
  induction tokens generalizing position machine with
  | nil => cases faulted
  | cons token rest ih =>
    cases ends : (machine.read dialect token).ending? strict { expression, position, token } with
    | some ending =>
      rw [run_of_ending ends] at faulted
      obtain rfl : ending = .faulted fault := faulted
      rcases Step.ending?_eq_faulted ends with ⟨refusal, halted, hfault⟩ | ⟨hstrict, problem, hfault⟩
      · exact Or.inl ⟨token, List.mem_cons_self, refusal, read_tooManyDigits.mp halted, hfault⟩
      · exact Or.inr ⟨hstrict, problem, _, hfault⟩
    | none =>
      rw [run_of_onward ends] at faulted
      rcases ih faulted with ⟨later, hmem, unreadable⟩ | problem
      · exact Or.inl ⟨later, List.mem_cons_of_mem _ hmem, unreadable⟩
      · exact Or.inr problem

end

namespace Lowerer

/-- A lenient lowerer comes to a result on every expression without a token that cannot be read. -/
theorem exists_result {lowerer : Lowerer} (lenient : lowerer.strict = false) {expression : String}
    (readable : ∀ token ∈ tokens expression, ∀ refusal, ¬lowerer.dialect.Unreadable token refusal) :
    (lowerer.lower expression).result = .ok (summary expression (lowerer.run expression)) := by
  refine result_eq_ok.mpr ⟨fun fault faulted => ?_, rfl⟩
  rcases Machine.run_faulted faulted with ⟨token, hmem, refusal, unreadable, -⟩ | ⟨strict, -⟩
  · exact readable token hmem refusal unreadable
  · rw [lenient] at strict
    cases strict

/-- Whatever the tables, the state of the lowerer and the expression: written out access by access, where
each can fail, lowering does the same and no access fails. Lowering comes to a result, or to the fault
of a numeral that is too long and no table has, or in strict mode to an error of one of the three
families of problems. -/
theorem faults_expected (lowerer : Lowerer) (expression : String) :
    lowerer.work expression = lowerer.lower expression ∧
    (∀ message, (lowerer.work expression).result ≠ .error (.unexpected message)) ∧
    ∀ fault, (lowerer.lower expression).result = .error fault →
      (∃ token ∈ tokens expression, ∃ refusal, lowerer.dialect.Unreadable token refusal ∧
        fault = .refused (.tooManyDigits refusal)) ∨
      (lowerer.strict = true ∧
        fault.family ∈ [FaultFamily.stackUnderflow, FaultFamily.unknownOperator, FaultFamily.unsupportedArity]) := by
  have expected (fault : Fault) (result : (lowerer.lower expression).result = .error fault) :=
    Machine.run_faulted (result_eq_error.mp result)
  refine ⟨work_eq_lower lowerer expression, fun message missing => ?_, fun fault result => ?_⟩
  · rw [work_eq_lower] at missing
    rcases expected _ missing with ⟨_, _, _, _, hfault⟩ | ⟨_, _, _, hfault⟩ <;> cases hfault
  · rcases expected fault result with unreadable | ⟨strict, problem, place, rfl⟩
    · exact Or.inl unreadable
    · exact Or.inr ⟨strict, by cases problem <;> simp [Fault.family, Diagnostic.ofProblem]⟩

/-- An operator without operands ends a strict lowering. -/
theorem faults_expected_example :
    let lowerer := fresh Profile.defaultName Profile.builtin.toDialect true
    ∃ fault, (lowerer.lower "rax,+,1").result = .error fault ∧ fault.family = .stackUnderflow ∧
      lowerer.work "rax,+,1" = lowerer.lower "rax,+,1" ∧
      ∀ token ∈ tokens "rax,+,1", ∀ refusal, ¬lowerer.dialect.Unreadable token refusal := by
  intro lowerer
  let place : TokenLocation := { expression := "rax,+,1", position := 1, token := "+" }
  have faulted : (lowerer.run "rax,+,1").ending =
      .faulted (.lowering (Diagnostic.ofProblem (.stackUnderflow "+" 2 1) place).error) := by decide +kernel
  have few : ∀ token ∈ tokens "rax,+,1", token.toList.length ≤ Numeral.digitLimit := by decide +kernel
  exact ⟨_, result_eq_error.mpr faulted, rfl, (faults_expected lowerer "rax,+,1").1,
    fun token hmem refusal unreadable => Nat.not_lt.mpr (few token hmem) unreadable.2.2.lt_length⟩

end Lowerer
end EsilLowering
