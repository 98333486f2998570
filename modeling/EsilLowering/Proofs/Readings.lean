import Mathlib.Algebra.Order.BigOperators.Group.List
import Mathlib.Algebra.Order.Group.Nat
import Mathlib.Data.List.Infix
import EsilLowering.Proofs.Classification
import EsilLowering.Proofs.Concatenation
import EsilLowering.Proofs.Pieces

/-! # What a dialect shows

Two dialects by which every token means the same lower every expression alike. The other way round, a
difference between two tables comes to light in some expression, as long as the operators of one of them
can all be expressed: two operands in front of a token are enough to see which operator it is, and what is
left on the stack shows the registers and the default width. Entries whose names hold a comma are never
looked up, nor is a register whose name is an operator or holds the assignment mark. -/

namespace EsilLowering

/-- Every token of an expression means the same in two dialects. -/
structure Dialect.SameReading (dialect other : Dialect) : Prop where
  operators : ∀ token, tokenSeparator ∉ token.toList → other.operators.get? token = dialect.operators.get? token
  registers : ∀ token, tokenSeparator ∉ token.toList → Operator.assignmentMark ∉ token.toList →
    dialect.operators.get? token = none → other.registers.get? token = dialect.registers.get? token
  defaultSize : other.defaultSize = dialect.defaultSize

/-- Every operator of a dialect has an instruction that expresses it. -/
def Dialect.Expressible (dialect : Dialect) : Prop :=
  ∀ token operator, dialect.operators.get? token = some operator → operator.arity ≠ .ternary

/-! ### Equal meaning, equal runs -/

section
variable {dialect other : Dialect} {machine : Machine} {token : String}

theorem mem_of_mem_compositePieces {piece : String} {c : Char} (h : piece ∈ compositePieces token)
    (hc : c ∈ piece.toList) : c ∈ token.toList := by
  have listed : piece ∈ Text.fields Operator.assignmentMark token := by
    unfold compositePieces at h
    simp only at h
    split at h
    · exact List.mem_of_mem_dropLast h
    · exact h
  exact Text.mem_of_mem_fields listed hc

theorem Dialect.SameReading.assignment (same : dialect.SameReading other) : other.assignment = dialect.assignment := by
  unfold Dialect.assignment
  rw [same.operators _ (by decide)]

theorem Machine.applyPieces_sameReading (same : dialect.SameReading other) (composite : String)
    {pieces : List String} (plain : ∀ piece ∈ pieces, tokenSeparator ∉ piece.toList) :
    machine.applyPieces other composite pieces = machine.applyPieces dialect composite pieces := by
  induction pieces generalizing machine with
  | nil => rfl
  | cons piece rest ih =>
    have onward : applyPieces other composite rest = applyPieces dialect composite rest :=
      funext fun machine => ih fun piece h => plain piece (List.mem_cons_of_mem _ h)
    unfold applyPieces
    rw [same.operators piece (plain piece List.mem_cons_self), same.assignment, onward]

theorem Machine.read_sameReading (same : dialect.SameReading other) (plain : tokenSeparator ∉ token.toList) :
    machine.read other token = machine.read dialect token := by
  have found := same.operators token plain
  cases absent : dialect.operators.get? token with
  | some operator => rw [read_of_operator absent, read_of_operator (found.trans absent)]
  | none =>
    by_cases mark : Operator.assignmentMark ∈ token.toList
    · rw [read_of_composite absent mark, read_of_composite (found.trans absent) mark]
      exact applyPieces_sameReading same token fun piece h hc => plain (mem_of_mem_compositePieces h hc)
    · rw [read_of_operand absent mark, read_of_operand (found.trans absent) mark]
      unfold push Value.classify
      rw [same.registers token plain mark absent, same.defaultSize]

theorem Machine.run_sameReading (same : dialect.SameReading other) (strict : Bool) (expression : String)
    (position : Nat) {tokens : List String} (plain : ∀ token ∈ tokens, tokenSeparator ∉ token.toList) :
    machine.run other strict expression position tokens = machine.run dialect strict expression position tokens := by
  induction tokens generalizing position machine with
  | nil => rfl
  | cons token rest ih =>
    have onward (machine : Machine) (position : Nat) :
        machine.run other strict expression position rest = machine.run dialect strict expression position rest :=
      ih position fun token h => plain token (List.mem_cons_of_mem _ h)
    unfold run
    simp only [read_sameReading same (plain token List.mem_cons_self), onward]

end

/-! ### What the last token shows -/

section
variable {dialect other : Dialect} {machine : Machine} {token : String}

/-- The run over one token of a lenient lowerer tells what the token came to. -/
theorem Machine.run_last (dialect : Dialect) (machine : Machine) (expression : String) (position : Nat)
    (token : String) :
    let step := machine.read dialect token
    let run := machine.run dialect false expression position [token]
    run.machine = step.machine ∧ run.instructions = step.instructions ∧
    run.diagnostics = step.noted false { expression, position, token } ∧
    ∀ fault, run.ending = .faulted fault ↔
      ∃ refusal, step.halt? = some (.tooManyDigits refusal) ∧ fault = .refused (.tooManyDigits refusal) := by
  intro step run
  cases halted : step.halt? with
  | none =>
    have : run = _ := run_of_done halted
    simp [this, run_nil, Step.noted, halted, step]
  | some halt =>
    cases halt with
    | tooManyDigits refusal =>
      have : run = _ := run_of_tooManyDigits halted
      simp [this, Run.ended, Step.noted, halted, step, eq_comm]
    | problem problem =>
      cases stops : problem.stops with
      | true =>
        have : run = _ := run_of_stop halted stops
        simp [this, Run.ended, Step.noted, halted, step]
      | false =>
        have : run = _ := run_of_skip halted stops
        simp [this, run_nil, Step.noted, halted, step]

theorem Step.halt?_of_noted {step other : Step} {place : TokenLocation}
    (short : ∀ refusal, step.halt? ≠ some (.tooManyDigits refusal))
    (short' : ∀ refusal, other.halt? ≠ some (.tooManyDigits refusal))
    (noted : other.noted false place = step.noted false place) : other.halt? = step.halt? := by
  unfold Step.noted at noted
  rcases halted : step.halt? with _ | ⟨problem | refusal⟩
  · rcases halted' : other.halt? with _ | ⟨problem' | refusal'⟩
    · rfl
    · simp [halted, halted'] at noted
    · exact absurd halted' (short' refusal')
  · rcases halted' : other.halt? with _ | ⟨problem' | refusal'⟩
    · simp [halted, halted'] at noted
    · simp only [halted, halted', Bool.false_eq_true, ↓reduceIte, List.cons.injEq, and_true] at noted
      have found : Cause.found problem' = Cause.found problem := congrArg (·.error.cause) noted
      rw [Cause.found.inj found]
    · exact absurd halted' (short' refusal')
  · exact absurd halted (short refusal)

end

/-- An expression comes to the same result with two lowerers, and leaves the same stack. -/
def Lowerer.SameOn (lowerer other : Lowerer) (expression : String) : Prop :=
  (other.lower expression).result = (lowerer.lower expression).result ∧
    (other.lower expression).lowerer.machine.stack = (lowerer.lower expression).lowerer.machine.stack

/-- Two tokens, each read last, look the same from outside. A numeral that is too long hides the
instructions before it. -/
structure Step.ShowsAs (step other : Step) : Prop where
  stack : other.machine.stack = step.machine.stack
  halts : other.halt? = step.halt?
  emitted : (∀ refusal, step.halt? ≠ some (.tooManyDigits refusal)) → other.instructions = step.instructions

/-- A token is put on the stack as an operand of a certain value. -/
def Dialect.Pushes (dialect : Dialect) (token : String) (value : Value) : Prop :=
  ∀ machine : Machine, machine.read dialect token =
    { machine := { machine with stack := value :: machine.stack }, events := [.pushed value] }

/-- A token behind an operand that is given twice. -/
def behind (operand token : String) : String := operand ++ "," ++ operand ++ "," ++ token

section
variable {dialect other : Dialect} {token operand : String} {value : Value}

/-- Behind two operands a token is read with these on the stack, and the rest of the run is about it. -/
theorem Lowerer.run_behind (architecture : String) (pushes : dialect.Pushes operand value)
    (plain : tokenSeparator ∉ operand.toList) (plain' : tokenSeparator ∉ token.toList) :
    let step := Machine.read dialect token { stack := [value, value] }
    let run := (fresh architecture dialect false).run (behind operand token)
    run.machine = step.machine ∧ run.instructions = step.instructions ∧
    run.diagnostics = step.noted false { expression := behind operand token, position := 2, token } ∧
    ∀ fault, run.ending = .faulted fault ↔
      ∃ refusal, step.halt? = some (.tooManyDigits refusal) ∧ fault = .refused (.tooManyDigits refusal) := by
  intro step run
  have cut : tokens (behind operand token) = [operand, operand, token] := by
    unfold behind
    rw [tokens_append, tokens_append]
    unfold tokens
    rw [Text.fields_of_notMem plain, Text.fields_of_notMem plain']
    rfl
  have first : (Machine.read dialect operand {}).halt? = none := by rw [pushes]
  have second : (Machine.read dialect operand { stack := [value] }).halt? = none := by rw [pushes]
  have hrun : run = ((Machine.run dialect false (behind operand token) 2 [token] { stack := [value, value] }).after
      (Machine.read dialect operand { stack := [value] }) [] []).after (Machine.read dialect operand {}) [] [] := by
    show Machine.run dialect false (behind operand token) 0 (tokens (behind operand token)) {} = _
    rw [cut, Machine.run_of_done first, pushes, Machine.run_of_done second, pushes]
  rw [hrun, pushes, pushes]
  exact Machine.run_last dialect { stack := [value, value] } (behind operand token) 2 token

/-- An operand by itself is all there is on the stack. -/
theorem Lowerer.stack_single {architecture : String} (plain : tokenSeparator ∉ operand.toList)
    (pushes : dialect.Pushes operand value) :
    ((fresh architecture dialect false).reach ((fresh architecture dialect false).run operand)).machine.stack =
      [value] := by
  have alone : tokens operand = [operand] := Text.fields_of_notMem plain
  show (Machine.run dialect false operand 0 (tokens operand) {}).machine.stack = _
  rw [alone, (Machine.run_last dialect {} operand 0 operand).1, pushes]

/-- An expression shows what its last token does to a stack of two. -/
theorem Lowerer.SameOn.last {architecture architecture' : String}
    (same : SameOn (fresh architecture dialect false) (fresh architecture' other false) (behind operand token))
    (pushes : dialect.Pushes operand value) (pushes' : other.Pushes operand value)
    (plain : tokenSeparator ∉ operand.toList) (plain' : tokenSeparator ∉ token.toList) :
    (Machine.read dialect token { stack := [value, value] }).ShowsAs
      (Machine.read other token { stack := [value, value] }) := by
  obtain ⟨hmachine, hinstructions, hnoted, hfault⟩ := run_behind architecture pushes plain plain'
  obtain ⟨hmachine', hinstructions', hnoted', hfault'⟩ := run_behind architecture' pushes' plain plain'
  obtain ⟨results, left⟩ := same
  rw [lower_lowerer, lower_lowerer] at left
  change (run _ _).machine.stack = (run _ _).machine.stack at left
  rw [hmachine, hmachine'] at left
  cases result : ((fresh architecture dialect false).lower (behind operand token)).result with
  | error fault =>
    obtain ⟨refusal, halted, rfl⟩ := (hfault fault).mp (result_eq_error.mp result)
    obtain ⟨refusal', halted', hsame⟩ := (hfault' _).mp (result_eq_error.mp (results.trans result))
    cases hsame
    exact ⟨left, halted'.trans halted.symm, fun short => absurd halted (short refusal)⟩
  | ok lowering =>
    obtain ⟨ends, hsummary⟩ := result_eq_ok.mp result
    obtain ⟨ends', hsummary'⟩ := result_eq_ok.mp (results.trans result)
    have told := hsummary'.trans hsummary.symm
    have short (refusal : Numeral.TooManyDigits) :
        (Machine.read dialect token { stack := [value, value] }).halt? ≠ some (.tooManyDigits refusal) :=
      fun halted => ends _ ((hfault _).mpr ⟨refusal, halted, rfl⟩)
    have short' (refusal : Numeral.TooManyDigits) :
        (Machine.read other token { stack := [value, value] }).halt? ≠ some (.tooManyDigits refusal) :=
      fun halted => ends' _ ((hfault' _).mpr ⟨refusal, halted, rfl⟩)
    have noted := congrArg Lowering.diagnostics told
    have emitted := congrArg Lowering.instructions told
    simp only [summary, hnoted, hnoted', hinstructions, hinstructions'] at noted emitted
    exact ⟨left, Step.halt?_of_noted short short' noted, fun _ => emitted⟩

end

/-! ### What a step tells of the tables -/

section
variable {dialect : Dialect} {machine : Machine} {token : String} {operator : Operator} {value : Value}

/-- A piece that does its work emits two instructions. -/
theorem Machine.applyAndAssign_two {assignment : Operator}
    (done : (machine.applyAndAssign assignment operator).halt? = none) :
    (machine.applyAndAssign assignment operator).instructions.length = 2 := by
  cases taken : operator.operands machine.stack with
  | error problem => simp [applyAndAssign_of_error taken, refuse] at done
  | ok operands =>
    by_cases ternary : assignment.arity = .ternary
    · simp [applyAndAssign_of_ternary taken ternary] at done
    · obtain ⟨assigned, back⟩ := exists_assigned ternary machine operator operands
      rw [applyAndAssign_of_assigned taken back]
      simp [emitKeeping, emit_eq]

/-- A composite token never emits just one instruction, unless it has a problem. -/
theorem Completes.length_ne_one {pieces : List String} {emitted : List Instruction} {reached : Machine}
    (h : Completes dialect pieces machine emitted reached) : emitted.length ≠ 1 := by
  cases h with
  | nil => simp
  | cons found assigned onward =>
    have two := Machine.applyAndAssign_two assigned
    rw [List.length_append]
    omega

/-- With two operands on the stack, the operator of a token is the one of the only instruction. -/
theorem Machine.read_eq_one : (dialect.operators.get? token = some operator ∧ operator.arity ≠ .ternary) ↔
    ∃ instruction, (Machine.read dialect token { stack := [value, value] }).halt? = none ∧
      (Machine.read dialect token { stack := [value, value] }).instructions = [instruction] ∧
      instruction.opcode = operator := by
  constructor
  · rintro ⟨found, harity⟩
    obtain ⟨operands, taken⟩ := Operator.exists_operands harity value value []
    rw [read_of_operator found, apply_of_ok taken, emit_eq]
    exact ⟨_, rfl, rfl, rfl⟩
  · rintro ⟨instruction, done, emitted, rfl⟩
    cases found : dialect.operators.get? token with
    | some operator =>
      rw [read_of_operator found] at done emitted
      obtain ⟨operands, taken⟩ := operands_of_done done
      rw [apply_of_ok taken, emit_eq] at emitted
      cases emitted
      refine ⟨rfl, fun ternary => ?_⟩
      rw [Operator.operands_of_ternary ternary] at taken
      cases taken
    | none =>
      by_cases mark : Operator.assignmentMark ∈ token.toList
      · rw [read_of_composite found mark] at done emitted
        have lone := (applyPieces_completes done).length_ne_one
        rw [emitted] at lone
        exact absurd rfl lone
      · rw [read_of_operand found mark] at done emitted
        obtain ⟨pushed, classified⟩ := classified_of_done done
        rw [push_of_ok classified] at emitted
        cases emitted

/-- Only a dialect with an operator that no instruction expresses says of one that it is not supported. -/
theorem Machine.read_unsupported (expressible : dialect.Expressible) (symbol : String) (arity : Int) :
    (machine.read dialect token).halt? ≠ some (.problem (.unsupportedArity symbol arity)) := by
  have supported {operator : Operator} {name : String} (found : dialect.operators.get? name = some operator)
      {stack : List Value} : operator.operands stack ≠ .error (.unsupportedArity symbol arity) := by
    intro missing
    rcases Operator.operands_eq_error.mp missing with ⟨ternary, -⟩ | ⟨-, -, hproblem⟩
    · exact expressible name operator found ternary
    · cases hproblem
  have assigns : dialect.Assigns := expressible Operator.assignmentSymbol
  intro halted
  cases found : dialect.operators.get? token with
  | some operator =>
    rw [read_of_operator found] at halted
    cases taken : operator.operands machine.stack with
    | ok operands => simp [apply_of_ok taken] at halted
    | error problem =>
      simp only [apply_of_error taken, refuse, Option.some.injEq, Halt.problem.injEq] at halted
      exact supported found (halted ▸ taken)
  | none =>
    by_cases mark : Operator.assignmentMark ∈ token.toList
    · rw [read_of_composite found mark] at halted
      obtain ⟨-, piece, -, -, reached, problem, last, -, hproblem, -, halts, -⟩ := applyPieces_halts halted
      cases hproblem
      generalize (machine.applyPieces dialect token (compositePieces token)).machine = left at halts
      cases halts with
      | refused listed missing => exact supported listed missing
      | unassigned listed taken ternary => exact assigns.arity_ne ternary
    · rw [read_of_operand found mark] at halted
      exact push_no_problem token halted

end

/-! ### Equal results, equal meaning -/

/-- There is an operand that none of some tables knows. -/
theorem exists_unknown_operand (names : List String) : ∃ operand, operand ∉ names ∧
    tokenSeparator ∉ operand.toList ∧ Operator.assignmentMark ∉ operand.toList ∧
    Numeral.decimal? operand = .ok none := by
  let operand := String.ofList ('q' :: List.replicate (names.map String.length).sum 'q')
  have chars : operand.toList = 'q' :: List.replicate (names.map String.length).sum 'q' := String.toList_ofList
  have only (c : Char) (hc : c ≠ 'q') : c ∉ operand.toList := by
    rw [chars, ← List.replicate_succ]
    exact fun h => hc (List.eq_of_mem_replicate h)
  refine ⟨operand, fun listed => ?_, only _ (by decide), only _ (by decide), ?_⟩
  · -- The operand is longer than each of the names.
    have short : operand.length ≤ (names.map String.length).sum :=
      List.le_sum_of_mem (List.mem_map_of_mem listed)
    rw [← String.length_toList, chars, List.length_cons, List.length_replicate] at short
    omega
  · have parts : Numeral.decimalParts? operand = none := by
      simp [Numeral.decimalParts?, chars, Numeral.splitSign]
    rw [Numeral.decimal?, parts]

section
variable {dialect other : Dialect} {token operand : String}

theorem Dialect.pushes_unknown (absent : dialect.operators.get? operand = none)
    (unlisted : dialect.registers.get? operand = none) (noMark : Operator.assignmentMark ∉ operand.toList)
    (word : Numeral.decimal? operand = .ok none) :
    dialect.Pushes operand { name := operand, size := dialect.defaultSize, location := .unknown } := by
  intro machine
  have classified : Value.classify dialect.registers dialect.defaultSize operand =
      .ok { name := operand, size := dialect.defaultSize, location := .unknown } :=
    Value.classify_eq_ok.mpr (Or.inr (Or.inr ⟨unlisted, word, rfl⟩))
  rw [Machine.read_of_operand absent noMark, Machine.push_of_ok classified]

theorem Value.classify_eq_register {registers : Table Int} {defaultSize width : Int} :
    classify registers defaultSize token = .ok { name := token, size := width, location := .register } ↔
      registers.get? token = some width := by
  constructor
  · intro classified
    rcases classify_eq_ok.mp classified with ⟨found, listed, hvalue⟩ | ⟨_, -, -, hvalue⟩ | ⟨-, -, hvalue⟩ <;>
      cases hvalue
    exact listed
  · exact fun listed => classify_eq_ok.mpr (Or.inl ⟨width, listed, rfl⟩)

variable {value : Value} (shows : (Machine.read dialect token { stack := [value, value] }).ShowsAs
  (Machine.read other token { stack := [value, value] }))
include shows

/-- What an operand is classified as shows. -/
theorem Value.classify_of_showsAs (absent : dialect.operators.get? token = none)
    (absent' : other.operators.get? token = none) (noMark : Operator.assignmentMark ∉ token.toList) :
    classify other.registers other.defaultSize token = classify dialect.registers dialect.defaultSize token := by
  obtain ⟨stack, halts, -⟩ := shows
  rw [Machine.read_of_operand absent noMark, Machine.read_of_operand absent' noMark] at stack halts
  unfold Machine.push at stack halts
  cases one : classify dialect.registers dialect.defaultSize token <;>
    cases two : classify other.registers other.defaultSize token <;>
    simp_all

/-- Which operator a token is shows, if one side can express all its operators. -/
theorem Dialect.operator_of_showsAs (expressible : dialect.Expressible) :
    other.operators.get? token = dialect.operators.get? token := by
  obtain ⟨-, halts, emitted⟩ := shows
  ext operator
  by_cases ternary : operator.arity = .ternary
  · refine ⟨fun found => ?_, fun found => absurd ternary (expressible token operator found)⟩
    rw [Machine.read_of_operator found, Machine.apply_of_error (Operator.operands_of_ternary ternary)] at halts
    exact absurd halts.symm (Machine.read_unsupported expressible operator.symbol 3)
  · constructor
    · intro found
      obtain ⟨instruction, done, sole, hopcode⟩ := Machine.read_eq_one.mp ⟨found, ternary⟩
      rw [halts] at done
      rw [emitted (by simp [done])] at sole
      exact (Machine.read_eq_one.mpr ⟨instruction, done, sole, hopcode⟩).1
    · intro found
      obtain ⟨instruction, done, sole, hopcode⟩ := Machine.read_eq_one.mp ⟨found, ternary⟩
      rw [← emitted (by simp [done])] at sole
      exact (Machine.read_eq_one.mpr ⟨instruction, halts.trans done, sole, hopcode⟩).1

end

/-- If all expressions come to the same for two lenient lowerers that begin, and one of them can express
all its operators, then every token means the same to both. -/
theorem Dialect.sameReading_of_sameOn {dialect other : Dialect} {architecture architecture' : String}
    (expressible : dialect.Expressible)
    (same : ∀ expression, (Lowerer.fresh architecture dialect false).SameOn
      (Lowerer.fresh architecture' other false) expression) :
    dialect.SameReading other := by
  obtain ⟨operand, hnames, plain, noMark, word⟩ := exists_unknown_operand (dialect.operators.names ++
    other.operators.names ++ dialect.registers.names ++ other.registers.names)
  simp only [List.mem_append, not_or, Table.mem_names_iff, Option.not_isSome_iff_eq_none] at hnames
  obtain ⟨⟨⟨absent, absent'⟩, unlisted⟩, unlisted'⟩ := hnames
  have pushes := Dialect.pushes_unknown absent unlisted noMark word
  have pushes' := Dialect.pushes_unknown absent' unlisted' noMark word
  -- The operand alone shows the default width; only then are the two operands below a token the same.
  have width : other.defaultSize = dialect.defaultSize := by
    have left := (same operand).2
    rw [Lowerer.lower_lowerer, Lowerer.lower_lowerer, Lowerer.stack_single plain pushes,
      Lowerer.stack_single plain pushes'] at left
    exact congrArg Value.size (List.cons.inj left).1
  rw [width] at pushes'
  have shows (token : String) (htoken : tokenSeparator ∉ token.toList) :=
    (same (behind operand token)).last pushes pushes' plain htoken
  have operators (token : String) (htoken : tokenSeparator ∉ token.toList) :
      other.operators.get? token = dialect.operators.get? token :=
    operator_of_showsAs (shows token htoken) expressible
  refine ⟨operators, fun token htoken mark absent => ?_, width⟩
  have classified := Value.classify_of_showsAs (shows token htoken) absent
    ((operators token htoken).trans absent) mark
  ext width
  rw [← Value.classify_eq_register, classified, Value.classify_eq_register]

theorem Lowerer.SameOn.symm {lowerer other : Lowerer} {expression : String} (same : lowerer.SameOn other expression) :
    other.SameOn lowerer expression :=
  ⟨same.1.symm, same.2.symm⟩

theorem Lowerer.sameOn_of_run {lowerer other : Lowerer} {expression : String}
    (same : other.run expression = lowerer.run expression) : lowerer.SameOn other expression := by
  constructor
  · cases result : (lowerer.lower expression).result with
    | error fault =>
      rw [result_eq_error] at result ⊢
      rw [same, result]
    | ok lowering =>
      rw [result_eq_ok] at result ⊢
      rw [same]
      exact result
  · rw [lower_lowerer, lower_lowerer]
    exact congrArg (·.machine.stack) same

/-- Dialects by which every token means the same show no difference in any expression, and if one of them
can express all its operators, these are the only ones. -/
theorem Dialect.sameOn_iff {dialect other : Dialect} (expressible : dialect.Expressible)
    (architecture architecture' : String) :
    (∀ expression, (Lowerer.fresh architecture dialect false).SameOn
      (Lowerer.fresh architecture' other false) expression) ↔ dialect.SameReading other :=
  ⟨sameReading_of_sameOn expressible, fun same expression => Lowerer.sameOn_of_run
    (Machine.run_sameReading same false expression 0 fun _ => Text.notMem_of_mem_fields)⟩

end EsilLowering
