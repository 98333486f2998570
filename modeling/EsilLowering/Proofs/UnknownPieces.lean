import EsilLowering.Proofs.Coherence
import Mathlib.Data.List.TakeWhile

/-! # Unknown pieces

The pieces of a composite token are looked up one after the other, each when those before it are done.
So a piece that is no operator stops the lowering of its expression if it is come to, and it is come to
unless a piece before it cannot do its work. Whether the pieces before it do depends on the stack only
by its depth: each takes its operands off, puts its target back, and what it assigns with leaves one
value in place of those it takes. -/

namespace EsilLowering

/-- How many values an operator takes off the stack. -/
def Operator.takes (operator : Operator) : Nat := max operator.arity.toNat 1

/-- Pieces that do their work one after the other on a stack of some depth. -/
def Dialect.Affords (dialect : Dialect) : List String → Nat → Prop
  | [], _ => True
  | piece :: rest, depth =>
    ∃ operator, dialect.operators.get? piece = some operator ∧
      (operator.arity ≠ .ternary ∧ operator.takes ≤ depth) ∧ dialect.assignment.arity ≠ .ternary ∧
      dialect.Affords rest (depth - operator.takes + 3 - dialect.assignment.takes)

/-- The pieces of a composite token before the first one that is no operator. -/
def Dialect.knownPieces (dialect : Dialect) (token : String) : List String :=
  (compositePieces token).takeWhile fun piece => (dialect.operators.get? piece).isSome

/-- A lowerer comes to the token at a place of an expression. -/
def Lowerer.Reaches (lowerer : Lowerer) (expression : String) (index : Nat) (token : String) : Prop :=
  (tokens expression)[index]? = some token ∧ (lowerer.runFirst expression index).ending = .completed

/-! ### The depth of the stack -/

section
variable {operator : Operator} {stack : List Value} {operands : Operands}

theorem Operator.length_of_operands (taken : operator.operands stack = .ok operands) :
    stack.length = operands.below.length + operator.takes := by
  rcases Operator.operands_counted taken with ⟨two, rfl⟩ | ⟨one, -, rfl⟩
  · rw [takes, two]
    rfl
  · rw [takes, one]
    rfl

theorem Operator.exists_operands_iff :
    (∃ operands, operator.operands stack = .ok operands) ↔ operator.arity ≠ .ternary ∧ operator.takes ≤ stack.length := by
  rw [takes, ← operands_isOk]
  cases operator.operands stack <;> simp [Except.isOk, Except.toBool]

end

section
variable {dialect : Dialect} {composite piece : String} {known pieces : List String} {machine : Machine}
  {operator : Operator}

theorem Machine.applyAndAssign_done_iff : (machine.applyAndAssign dialect.assignment operator).halt? = none ↔
    (operator.arity ≠ .ternary ∧ operator.takes ≤ machine.stack.length) ∧ dialect.assignment.arity ≠ .ternary := by
  rw [← Operator.exists_operands_iff]
  cases taken : operator.operands machine.stack with
  | error problem => simp [applyAndAssign_of_error taken, refuse]
  | ok operands =>
    by_cases ternary : dialect.assignment.arity = .ternary
    · simp [applyAndAssign_of_ternary taken ternary, ternary]
    · obtain ⟨assigned, back⟩ := exists_assigned ternary machine operator operands
      simp [applyAndAssign_of_assigned taken back, ternary]

theorem Machine.depth_applyAndAssign (done : (machine.applyAndAssign dialect.assignment operator).halt? = none) :
    (machine.applyAndAssign dialect.assignment operator).machine.stack.length =
      machine.stack.length - operator.takes + 3 - dialect.assignment.takes := by
  obtain ⟨enough, expressed⟩ := applyAndAssign_done_iff.mp done
  obtain ⟨operands, taken⟩ := Operator.exists_operands_iff.mpr enough
  obtain ⟨assigned, back⟩ := exists_assigned expressed machine operator operands
  have before : machine.stack.length = operands.below.length + operator.takes := Operator.length_of_operands taken
  have between : operands.below.length + 2 = assigned.below.length + dialect.assignment.takes := by
    have kept := Operator.length_of_operands back
    rwa [emitKeeping, emit_eq] at kept
  rw [applyAndAssign_of_assigned taken back]
  simp only [emit_eq, List.length_cons]
  omega

theorem Dialect.affords_cons {depth : Nat} {rest : List String} (found : dialect.operators.get? piece = some operator) :
    dialect.Affords (piece :: rest) depth ↔
      ((operator.arity ≠ .ternary ∧ operator.takes ≤ depth) ∧ dialect.assignment.arity ≠ .ternary) ∧
        dialect.Affords rest (depth - operator.takes + 3 - dialect.assignment.takes) := by
  simp [Affords, found, and_assoc]

/-- Pieces do their work exactly on a stack that is high enough for them. -/
theorem Machine.applyPieces_done_iff : (machine.applyPieces dialect composite pieces).halt? = none ↔
    dialect.Affords pieces machine.stack.length := by
  induction pieces generalizing machine with
  | nil => exact ⟨fun _ => trivial, fun _ => rfl⟩
  | cons piece rest ih =>
    cases found : dialect.operators.get? piece with
    | none => simp [applyPieces, Dialect.Affords, found, refuse]
    | some operator =>
      rw [Dialect.affords_cons found, ← applyAndAssign_done_iff]
      cases assigned : (machine.applyAndAssign dialect.assignment operator).halt? with
      | some halt => simp [applyPieces, found, Step.andThen_of_halt assigned, assigned]
      | none =>
        have onward : ((machine.applyAndAssign dialect.assignment operator).machine.applyPieces dialect composite
            rest).halt? = none ↔ dialect.Affords rest _ := ih
        rw [depth_applyAndAssign assigned] at onward
        simp [applyPieces, found, Step.andThen_of_done assigned, onward]

/-- The pieces after some others are come to if the others do their work. -/
theorem Machine.applyPieces_append (machine : Machine) (earlier later : List String) :
    machine.applyPieces dialect composite (earlier ++ later) =
      (machine.applyPieces dialect composite earlier).andThen (applyPieces dialect composite later) := by
  induction earlier generalizing machine with
  | nil => simp [applyPieces, Step.andThen]
  | cons piece rest ih =>
    rw [List.cons_append]
    unfold applyPieces
    cases dialect.operators.get? piece with
    | none => exact (Step.andThen_of_halt rfl).symm
    | some operator =>
      simp only [Step.andThen_assoc]
      exact congrArg _ (funext ih)

/-- The problem of a piece that is an operator does not stop the lowering. -/
theorem PieceHalts.goes {problem : Problem} {last : List Instruction} {left : Machine}
    (halts : PieceHalts dialect composite piece machine problem last left)
    (listed : (dialect.operators.get? piece).isSome) : problem.stops = false := by
  cases halts with
  | unknown absent =>
    rw [absent] at listed
    cases listed
  | refused found missing => exact Operator.operands_goes missing
  | unassigned found taken ternary => rfl

/-- A piece that is no operator stops the lowering if those before it do their work. -/
theorem Machine.applyPieces_unknown (affords : dialect.Affords known machine.stack.length)
    (absent : dialect.operators.get? piece = none) (rest : List String) :
    (machine.applyPieces dialect composite (known ++ piece :: rest)).halt? =
      some (.problem (.unknownOperator piece composite)) := by
  rw [applyPieces_append, Step.andThen_of_done (applyPieces_done_iff.mpr affords)]
  simp [applyPieces, absent, refuse]

/-- If pieces that are operators do not do their work, the lowering goes on, whatever comes after them. -/
theorem Machine.applyPieces_short (short : ¬dialect.Affords known machine.stack.length)
    (listed : ∀ piece ∈ known, (dialect.operators.get? piece).isSome) (rest : List String) :
    ∃ problem, (machine.applyPieces dialect composite (known ++ rest)).halt? = some (.problem problem) ∧
      problem.stops = false := by
  have undone : (machine.applyPieces dialect composite known).halt? ≠ none := mt applyPieces_done_iff.mp short
  obtain ⟨halt, halted⟩ := Option.ne_none_iff_exists'.mp undone
  obtain ⟨done, failing, others, -, reached, problem, last, rfl, rfl, -, halts, -⟩ := applyPieces_halts halted
  refine ⟨problem, ?_, halts.goes (listed failing (by simp))⟩
  rw [applyPieces_append, Step.andThen_of_halt halted, halted]

theorem Dialect.isSome_of_mem_known {token : String} (h : piece ∈ dialect.knownPieces token) :
    (dialect.operators.get? piece).isSome :=
  List.mem_takeWhile_imp (p := fun piece => (dialect.operators.get? piece).isSome) h

theorem Dialect.exists_unknown_piece {token : String}
    (unknown : ∃ piece ∈ compositePieces token, dialect.operators.get? piece = none) :
    ∃ piece rest, compositePieces token = dialect.knownPieces token ++ piece :: rest ∧
      dialect.operators.get? piece = none := by
  obtain ⟨some, hmem, absent⟩ := unknown
  have left : (compositePieces token).dropWhile (fun piece => (dialect.operators.get? piece).isSome) ≠ [] := by
    intro all
    have listed := List.dropWhile_eq_nil_iff.mp all some hmem
    rw [absent] at listed
    cases listed
  obtain ⟨piece, rest, hrest⟩ := List.exists_cons_of_ne_nil left
  refine ⟨piece, rest, ?_, ?_⟩
  · rw [← hrest, knownPieces, List.takeWhile_append_dropWhile]
  · have first := List.head_dropWhile_not (fun piece => (dialect.operators.get? piece).isSome) left
    simpa [hrest] using first

end

/-! ### Lowerings -/

namespace Lowerer
variable {lowerer : Lowerer} {expression token : String} {index : Nat} {problem : Problem}

/-- The run over the tokens before one that is come to goes on at the token. -/
theorem run_reached (lenient : lowerer.strict = false) (reaches : lowerer.Reaches expression index token)
    (rest : List String) :
    lowerer.machine.run lowerer.dialect false expression 0 ((tokens expression).take index ++ token :: rest) =
      (lowerer.runFirst expression index).andThen fun reached =>
        reached.run lowerer.dialect false expression index (token :: rest) := by
  obtain ⟨within, -⟩ := List.getElem?_eq_some_iff.mp reaches.1
  have count : 0 + ((tokens expression).take index).length = index := by
    rw [List.length_take]
    omega
  rw [Machine.run_append, count, runFirst, lenient]

theorem run_eq_andThen (lenient : lowerer.strict = false) (reaches : lowerer.Reaches expression index token) :
    lowerer.run expression = (lowerer.runFirst expression index).andThen fun reached =>
      reached.run lowerer.dialect false expression index (token :: (tokens expression).drop (index + 1)) := by
  have split : tokens expression = (tokens expression).take index ++ token :: (tokens expression).drop (index + 1) := by
    obtain ⟨within, rfl⟩ := List.getElem?_eq_some_iff.mp reaches.1
    rw [← List.drop_eq_getElem_cons within, List.take_append_drop]
  calc lowerer.run expression
    _ = lowerer.machine.run lowerer.dialect false expression 0
          ((tokens expression).take index ++ token :: (tokens expression).drop (index + 1)) := by
      rw [← split, run_of_lenient lenient]
    _ = _ := run_reached lenient reaches _

theorem runFirst_succ (lenient : lowerer.strict = false) (reaches : lowerer.Reaches expression index token) :
    lowerer.runFirst expression (index + 1) = (lowerer.runFirst expression index).andThen fun reached =>
      reached.run lowerer.dialect false expression index [token] := by
  rw [← run_reached lenient reaches, runFirst, lenient, List.take_add_one, reaches.1]
  rfl

/-- A problem that stops the run ends it at its token, whatever the tokens after it are. -/
theorem run_of_stop (lenient : lowerer.strict = false) (reaches : lowerer.Reaches expression index token)
    (halted : ((lowerer.runFirst expression index).machine.read lowerer.dialect token).halt? = some (.problem problem))
    (stops : problem.stops = true) :
    let before := lowerer.runFirst expression index
    let run := lowerer.run expression
    run = lowerer.runFirst expression (index + 1) ∧ run.ending = .stopped ∧ run.tokensConsumed = index ∧
      run.diagnostics = before.diagnostics ++ [.ofProblem problem { expression, position := index, token }] := by
  intro before run
  have whole : run = _ := run_eq_andThen lenient reaches
  have first := runFirst_succ lenient reaches
  rw [Run.andThen_of_completed reaches.2, Machine.run_of_stop halted stops] at whole first
  rw [whole, first]
  exact ⟨rfl, rfl, rfl, rfl⟩

/-- A problem that does not stop the run is noted, and the tokens after its own are come to. -/
theorem runFirst_of_skip (lenient : lowerer.strict = false) (reaches : lowerer.Reaches expression index token)
    (halted : ((lowerer.runFirst expression index).machine.read lowerer.dialect token).halt? = some (.problem problem))
    (goes : problem.stops = false) :
    let before := lowerer.runFirst expression index
    let run := lowerer.runFirst expression (index + 1)
    run.ending = .completed ∧
      run.diagnostics = before.diagnostics ++ [.ofProblem problem { expression, position := index, token }] := by
  intro before run
  have first : run = _ := runFirst_succ lenient reaches
  rw [Run.andThen_of_completed reaches.2, Machine.run_of_skip halted goes] at first
  rw [first]
  exact ⟨rfl, rfl⟩

/-- An unknown piece does not always stop the lowering: the addition before it finds no operands, so the
piece is not looked up, the token is skipped, and the token after it is read. -/
theorem unknown_piece_passed_over :
    let lowerer := fresh Profile.defaultName Profile.builtin.toDialect false
    lowerer.Reaches "+=foo=,rax" 0 "+=foo=" ∧
    lowerer.dialect.operators.get? "+=foo=" = none ∧ Operator.assignmentMark ∈ "+=foo=".toList ∧
    (∃ piece ∈ compositePieces "+=foo=", lowerer.dialect.operators.get? piece = none) ∧
    ∃ lowering, (lowerer.lower "+=foo=,rax").result = .ok lowering ∧ lowering.status ≠ .failed ∧
      lowering.diagnostics.map Diagnostic.kind = [.stackUnderflow] ∧ lowering.tokensConsumed = 2 ∧
      (lowerer.lower "+=foo=,rax").lowerer.machine.stack.map Value.name = ["rax"] := by
  intro lowerer
  have completed : (lowerer.run "+=foo=,rax").ending = .completed := by decide +kernel
  have result : (lowerer.lower "+=foo=,rax").result = .ok (summary _ (lowerer.run "+=foo=,rax")) :=
    result_eq_ok.mpr ⟨fun fault => by rw [completed]; exact (nomatch ·), rfl⟩
  refine ⟨⟨by decide +kernel, rfl⟩, by decide +kernel, by decide +kernel, ⟨"foo", ?_⟩, _, result, ?_⟩
  · decide +kernel
  · decide +kernel

/-- A composite token with a piece that is no operator is never lowered as a whole. Its first unknown piece
stops the lowering if the pieces before it do their work on a stack of that depth, which they do if there
are none; then no later token is read. If they do not, the token is skipped for the problem of one of
them, and the next token is come to. -/
theorem unknown_piece_stops (lenient : lowerer.strict = false) (reaches : lowerer.Reaches expression index token)
    (absent : lowerer.dialect.operators.get? token = none) (mark : Operator.assignmentMark ∈ token.toList)
    (unknown : ∃ piece ∈ compositePieces token, lowerer.dialect.operators.get? piece = none) :
    let before := lowerer.runFirst expression index
    let onward := lowerer.runFirst expression (index + 1)
    let place : TokenLocation := { expression, position := index, token }
    let known := lowerer.dialect.knownPieces token
    ∃ piece rest, compositePieces token = known ++ piece :: rest ∧ lowerer.dialect.operators.get? piece = none ∧
      (lowerer.dialect.Affords known before.machine.stack.length →
        ∃ lowering, (lowerer.lower expression).result = .ok lowering ∧ lowering.status = .failed ∧
          lowering.diagnostics = before.diagnostics ++ [.ofProblem (.unknownOperator piece token) place] ∧
          lowering.tokensConsumed = index ∧ (lowerer.lower expression).lowerer = lowerer.reach onward) ∧
      (¬lowerer.dialect.Affords known before.machine.stack.length →
        onward.ending = .completed ∧ ∃ problem : Problem, problem.kind ≠ .unknownOperator ∧
          onward.diagnostics = before.diagnostics ++ [.ofProblem problem place]) := by
  intro before onward place known
  obtain ⟨piece, rest, hpieces, missing⟩ := Dialect.exists_unknown_piece unknown
  refine ⟨piece, rest, hpieces, missing, fun affords => ?_, fun short => ?_⟩
  · have halted : (before.machine.read lowerer.dialect token).halt? =
        some (.problem (.unknownOperator piece token)) := by
      rw [Machine.read_of_composite absent mark, hpieces]
      exact Machine.applyPieces_unknown affords missing rest
    obtain ⟨same, stopped, consumed, diagnostics⟩ := run_of_stop lenient reaches halted rfl
    refine ⟨summary expression (lowerer.run expression), result_eq_ok.mpr ⟨fun fault => ?_, rfl⟩,
      Run.status_eq_failed.mpr stopped, diagnostics, consumed, ?_⟩
    · rw [stopped]
      exact (nomatch ·)
    · rw [lower_lowerer, same]
  · obtain ⟨problem, halted, goes⟩ : ∃ problem, (before.machine.read lowerer.dialect token).halt? =
        some (.problem problem) ∧ problem.stops = false := by
      rw [Machine.read_of_composite absent mark, hpieces]
      exact Machine.applyPieces_short short (fun other => Dialect.isSome_of_mem_known) (piece :: rest)
    obtain ⟨completed, diagnostics⟩ := runFirst_of_skip lenient reaches halted goes
    refine ⟨completed, problem, fun unknownOperator => ?_, diagnostics⟩
    rw [Problem.stops_iff.mpr unknownOperator] at goes
    cases goes

/-- The addition is done when `foo` is come to. -/
theorem unknown_piece_stops_example :
    let lowerer := fresh Profile.defaultName Profile.builtin.toDialect false
    lowerer.Reaches "rax,rbx,+=foo=,rcx" 2 "+=foo=" ∧
    ∃ lowering, (lowerer.lower "rax,rbx,+=foo=,rcx").result = .ok lowering ∧ lowering.status = .failed ∧
      lowering.tokensConsumed = 2 := by
  intro lowerer
  have reaches : lowerer.Reaches "rax,rbx,+=foo=,rcx" 2 "+=foo=" := ⟨by decide +kernel, by decide +kernel⟩
  have absent : lowerer.dialect.operators.get? "+=foo=" = none := by decide +kernel
  have mark : Operator.assignmentMark ∈ "+=foo=".toList := by decide +kernel
  have unknown : ∃ piece ∈ compositePieces "+=foo=", lowerer.dialect.operators.get? piece = none :=
    ⟨"foo", by decide +kernel, by decide +kernel⟩
  have addition : lowerer.dialect.operators.get? "+" = some ⟨"+", .binary⟩ := by decide +kernel
  have affords : lowerer.dialect.Affords (lowerer.dialect.knownPieces "+=foo=")
      (lowerer.runFirst "rax,rbx,+=foo=,rcx" 2).machine.stack.length := by
    have known : lowerer.dialect.knownPieces "+=foo=" = ["+"] := by decide +kernel
    have depth : (lowerer.runFirst "rax,rbx,+=foo=,rcx" 2).machine.stack.length = 2 := by decide +kernel
    rw [known, depth]
    exact (Dialect.affords_cons addition).mpr ⟨⟨by decide, by decide +kernel⟩, trivial⟩
  obtain ⟨piece, rest, -, -, stops, -⟩ := unknown_piece_stops rfl reaches absent mark unknown
  obtain ⟨lowering, result, failed, -, consumed, -⟩ := stops affords
  exact ⟨reaches, lowering, result, failed, consumed⟩

end Lowerer
end EsilLowering
