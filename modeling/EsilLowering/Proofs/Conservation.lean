import EsilLowering.Proofs.History
import EsilLowering.Proofs.Pieces
import Mathlib.Algebra.Order.Group.Multiset
import Mathlib.Tactic.Abel

/-! # Values are neither lost nor doubled

What instructions take comes off the stack, and what they give goes onto it. Besides, an operand token
brings its value, and a piece of a composite token whose operator is applied puts its target back. So
the values taken and those left are together the values there were, those brought, those given and those
put back. Counting them gives the depth of the stack. -/

namespace EsilLowering

/-- The values that an instruction takes off the stack. -/
def Instruction.taken (instruction : Instruction) : List Value :=
  if instruction.opcode.arity = .binary then [instruction.first, instruction.second] else [instruction.first]

/-- The value that an operand token puts on the stack. A token that is an operator or a composite is no
operand. -/
def Dialect.operand? (dialect : Dialect) (token : String) : Option Value :=
  if dialect.operators.get? token = none ∧ Operator.assignmentMark ∉ token.toList then
    (Value.classify dialect.registers dialect.defaultSize token).toOption
  else none

/-- The targets of those pieces whose operators are applied, in order: the first operand of each. -/
def Machine.pieceTargets (dialect : Dialect) : List String → Machine → List Value
  | [], _ => []
  | piece :: rest, machine =>
    match dialect.operators.get? piece with
    | none => []
    | some operator =>
      match operator.operands machine.stack with
      | .error _ => []
      | .ok operands =>
        let step := machine.applyAndAssign dialect.assignment operator
        operands.first :: if step.halt? = none then step.machine.pieceTargets dialect rest else []

/-- The targets of a token: none, unless it is a composite. -/
def Machine.tokenTargets (dialect : Dialect) (token : String) (machine : Machine) : List Value :=
  if dialect.operators.get? token = none ∧ Operator.assignmentMark ∈ token.toList then
    machine.pieceTargets dialect (compositePieces token)
  else []

/-- The targets of tokens that are read one after the other. -/
def Machine.targets (dialect : Dialect) : List String → Machine → List Value
  | [], _ => []
  | token :: rest, machine =>
    machine.tokenTargets dialect token ++ (machine.read dialect token).machine.targets dialect rest

/-- The values that instructions take and those on the stack after them are the values there were on it,
those that came besides and those that the instructions give. -/
def Balances (before : List Value) (gained : Multiset Value) (instructions : List Instruction)
    (after : List Value) : Prop :=
  (instructions.flatMap Instruction.taken : Multiset Value) + (after : Multiset Value) =
    (before : Multiset Value) + gained + (instructions.map Instruction.destination : Multiset Value)

namespace Balances
variable {before between after : List Value} {gained more : Multiset Value} {earlier later : List Instruction}

theorem refl (stack : List Value) : Balances stack 0 [] stack := by
  simp [Balances]

theorem trans (h₁ : Balances before gained earlier between) (h₂ : Balances between more later after) :
    Balances before (gained + more) (earlier ++ later) after := by
  unfold Balances at *
  rw [List.flatMap_append, List.map_append, ← Multiset.coe_add, ← Multiset.coe_add, add_assoc, h₂]
  calc _ = (earlier.flatMap Instruction.taken : Multiset Value) + (between : Multiset Value) + more +
        (later.map Instruction.destination : Multiset Value) := by abel
    _ = _ := by rw [h₁]; abel

end Balances

/-! ### Tokens -/

section
variable {machine : Machine} {operator : Operator} {operands : Operands} {dialect : Dialect}

/-- What goes back beneath the result is gained. -/
theorem Machine.emit_balances (taken : operator.operands machine.stack = .ok operands) (back : List Value) :
    Balances machine.stack back (machine.emit operator operands (back ++ operands.below)).instructions
      (machine.emit operator operands (back ++ operands.below)).machine.stack := by
  rw [emit_eq]
  rcases Operator.operands_eq_ok.mp taken with ⟨hbinary, htop⟩ | ⟨hsingle, -, htop⟩
  · have both : Instruction.taken ⟨operator, machine.destination operator, operands.first, operands.second⟩ =
        [operands.first, operands.second] := if_pos hbinary
    simp only [Balances, htop, both, List.flatMap_singleton, List.map_singleton, ← Multiset.cons_coe,
      ← Multiset.singleton_add, ← Multiset.coe_add, Multiset.coe_nil]
    abel
  · have one : Instruction.taken ⟨operator, machine.destination operator, operands.first, operands.second⟩ =
        [operands.first] := if_neg (by rcases hsingle with h | h <;> simp [h])
    simp only [Balances, htop, one, List.flatMap_singleton, List.map_singleton, ← Multiset.cons_coe,
      ← Multiset.singleton_add, ← Multiset.coe_add, Multiset.coe_nil]
    abel

theorem Machine.apply_balances (machine : Machine) (operator : Operator) :
    Balances machine.stack 0 (machine.apply operator).instructions (machine.apply operator).machine.stack := by
  cases taken : operator.operands machine.stack with
  | error problem =>
    rw [apply_of_error taken]
    exact .refl _
  | ok operands =>
    rw [apply_of_ok taken]
    exact emit_balances taken []

/-- The target is back on the stack before its piece is assigned to it, so it is gained even if the
assignment is refused. -/
theorem Machine.applyAndAssign_balances (taken : operator.operands machine.stack = .ok operands)
    (assignment : Operator) :
    Balances machine.stack {operands.first} (machine.applyAndAssign assignment operator).instructions
      (machine.applyAndAssign assignment operator).machine.stack := by
  have kept := emit_balances taken [operands.first]
  have assigned := (machine.emitKeeping operator operands).machine.apply_balances assignment
  rw [applyAndAssign_of_ok taken, Step.andThen_of_done emitKeeping_halt?]
  exact add_zero ({operands.first} : Multiset Value) ▸ kept.trans assigned

theorem Machine.applyPieces_balances (composite : String) (pieces : List String) (machine : Machine) :
    Balances machine.stack (machine.pieceTargets dialect pieces)
      (machine.applyPieces dialect composite pieces).instructions
      (machine.applyPieces dialect composite pieces).machine.stack := by
  induction pieces generalizing machine with
  | nil => exact .refl _
  | cons piece rest ih =>
    unfold applyPieces pieceTargets
    cases found : dialect.operators.get? piece with
    | none => exact .refl _
    | some operator =>
      cases taken : operator.operands machine.stack with
      | error problem =>
        have refused : (machine.refuse problem).halt? = some (.problem problem) := rfl
        simp only [taken, applyAndAssign_of_error taken, Step.andThen_of_halt refused]
        exact .refl _
      | ok operands =>
        have first := applyAndAssign_balances taken dialect.assignment
        cases halted : (machine.applyAndAssign dialect.assignment operator).halt? with
        | some halt =>
          simp only [taken, Step.andThen_of_halt halted, halted, reduceCtorEq, if_false]
          exact first
        | none =>
          simp only [taken, Step.andThen_of_done halted, halted, if_true]
          rw [← Multiset.cons_coe, ← Multiset.singleton_add]
          exact first.trans (ih _)

theorem Machine.push_balances (token : String) (machine : Machine) :
    Balances machine.stack (Value.classify dialect.registers dialect.defaultSize token).toOption.toList
      (machine.push dialect token).instructions (machine.push dialect token).machine.stack := by
  unfold push
  cases classified : Value.classify dialect.registers dialect.defaultSize token with
  | error refusal => exact .refl _
  | ok value =>
    simp only [Balances, Except.toOption, Option.toList_some, List.flatMap_nil, List.map_nil, Multiset.coe_nil,
      ← Multiset.cons_coe, ← Multiset.singleton_add]
    abel

theorem Machine.read_balances (dialect : Dialect) (token : String) (machine : Machine) :
    Balances machine.stack ((dialect.operand? token).toList + (machine.tokenTargets dialect token : Multiset Value))
      (machine.read dialect token).instructions (machine.read dialect token).machine.stack := by
  unfold Dialect.operand? tokenTargets
  cases found : dialect.operators.get? token with
  | some operator =>
    rw [read_of_operator found]
    simpa using machine.apply_balances operator
  | none =>
    by_cases mark : Operator.assignmentMark ∈ token.toList
    · rw [read_of_composite found mark]
      simpa [mark] using machine.applyPieces_balances token (compositePieces token)
    · rw [read_of_operand found mark]
      simpa [mark] using machine.push_balances token

/-! ### Runs -/

variable {strict : Bool} {expression : String} {position : Nat} {tokens : List String}

theorem Machine.le_tokensConsumed :
    position ≤ (machine.run dialect strict expression position tokens).tokensConsumed := by
  induction tokens generalizing position machine with
  | nil => exact Nat.le_refl _
  | cons token rest ih =>
    cases ends : (machine.read dialect token).ending? strict { expression, position, token } with
    | some ending =>
      rw [run_of_ending ends]
      exact Nat.le_refl _
    | none =>
      rw [run_of_onward ends]
      exact Nat.le_of_succ_le ih

theorem Machine.filterMap_operand?_cons (token : String) (rest : List String) :
    ((token :: rest).filterMap dialect.operand? : Multiset Value) =
      (dialect.operand? token).toList + rest.filterMap dialect.operand? := by
  cases found : dialect.operand? token <;> simp [found]

/-- A run looks at the tokens it consumes and at the next one, if there is one: the token that ends it. -/
theorem Machine.run_balances {count : Nat}
    (consumed : (machine.run dialect strict expression position tokens).tokensConsumed = position + count) :
    Balances machine.stack
      (((tokens.take (count + 1)).filterMap dialect.operand? : Multiset Value) +
        (machine.targets dialect (tokens.take (count + 1)) : Multiset Value))
      (machine.run dialect strict expression position tokens).instructions
      (machine.run dialect strict expression position tokens).machine.stack := by
  induction tokens generalizing position machine count with
  | nil => exact .refl _
  | cons token rest ih =>
    have first := machine.read_balances dialect token
    rw [List.take_succ_cons, filterMap_operand?_cons, targets, ← Multiset.coe_add]
    cases ends : (machine.read dialect token).ending? strict { expression, position, token } with
    | some ending =>
      rw [run_of_ending ends] at consumed ⊢
      obtain rfl : count = 0 := Nat.add_left_cancel consumed.symm
      simpa [Run.ended, targets] using first
    | none =>
      rw [run_of_onward ends] at consumed ⊢
      have further : position + 1 ≤ position + count := consumed ▸ le_tokensConsumed
      obtain ⟨less, rfl⟩ : ∃ less, count = less + 1 := ⟨count - 1, by omega⟩
      have onward := ih (consumed.trans (by rw [Nat.add_assoc, Nat.add_comm 1]))
      rw [add_add_add_comm]
      exact first.trans onward

end

/-! ### The depth of the stack -/

theorem length_flatMap_taken (instructions : List Instruction) :
    (instructions.flatMap Instruction.taken).length =
      instructions.length + instructions.countP (·.opcode.arity = .binary) := by
  induction instructions with
  | nil => rfl
  | cons instruction rest ih =>
    rw [List.flatMap_cons, List.length_append, ih, List.length_cons]
    by_cases binary : instruction.opcode.arity = .binary
    · rw [List.countP_cons_of_pos (by simpa using binary), Instruction.taken, if_pos binary, List.length_cons,
        List.length_singleton]
      omega
    · rw [List.countP_cons_of_neg (by simpa using binary), Instruction.taken, if_neg binary, List.length_singleton]
      omega

/-- The depth changes by what is gained, less one for each instruction with two operands. -/
theorem Balances.depth {before after : List Value} {gained : Multiset Value} {instructions : List Instruction}
    (h : Balances before gained instructions after) :
    after.length + instructions.countP (·.opcode.arity = .binary) = before.length + gained.card := by
  have counted := congrArg Multiset.card h
  simp only [Multiset.card_add, Multiset.coe_card, List.length_map, length_flatMap_taken] at counted
  omega

section
variable {dialect : Dialect} {machine : Machine} {token : String} {strict : Bool} {place : TokenLocation}

/-- Without composite tokens nothing is put back. -/
theorem Machine.targets_of_readsOnly {kind : Operator → Prop} {tokens : List String}
    (plain : ∀ token ∈ tokens, dialect.ReadsOnly kind token) : machine.targets dialect tokens = [] := by
  induction tokens generalizing machine with
  | nil => rfl
  | cons token rest ih =>
    obtain ⟨first, others⟩ := List.forall_mem_cons.mp plain
    have none : machine.tokenTargets dialect token = [] := if_neg fun composite => first.2 composite.1 composite.2
    rw [targets, none, ih others]
    rfl

/-- An operator of two operands emits its instruction or is noted; an operand does neither. -/
theorem Machine.read_binary (plain : dialect.ReadsOnly (·.arity = .binary) token)
    (going : ∀ fault, (machine.read dialect token).ending? strict place ≠ some (.faulted fault)) :
    (machine.read dialect token).ending? strict place = none ∧
      (∀ instruction ∈ (machine.read dialect token).instructions, instruction.opcode.arity = .binary) ∧
      (machine.read dialect token).instructions.length + ((machine.read dialect token).noted strict place).length =
        if dialect.operators.contains token then 1 else 0 := by
  cases found : dialect.operators.get? token with
  | some operator =>
    have operates : dialect.operators.contains token = true := by simp [Table.contains, found]
    rw [read_of_operator found] at going ⊢
    rw [if_pos operates]
    cases taken : operator.operands machine.stack with
    | ok operands =>
      rw [apply_of_ok taken, emit_eq]
      exact ⟨rfl, by simpa using plain.1 operator found, rfl⟩
    | error problem =>
      have goes := Operator.operands_goes taken
      rw [apply_of_error taken] at going ⊢
      cases strict with
      | true => exact absurd rfl (going _)
      | false => exact ⟨by simp [Step.ending?, refuse, goes], by simp [refuse], rfl⟩
  | none =>
    have operand : dialect.operators.contains token = false := by simp [Table.contains, found]
    rw [read_of_operand found (plain.2 found)] at going ⊢
    rw [operand]
    unfold push at going ⊢
    cases classified : Value.classify dialect.registers dialect.defaultSize token with
    | ok value => exact ⟨rfl, by simp, rfl⟩
    | error refusal =>
      rw [classified] at going
      exact absurd rfl (going _)

/-- Over operands and operators with two operands a run goes to its end. Every operator emits its
instruction or is noted. -/
theorem Machine.run_binary {expression : String} {position : Nat} {tokens : List String}
    (plain : ∀ token ∈ tokens, dialect.ReadsOnly (·.arity = .binary) token)
    (going : ∀ fault, (machine.run dialect strict expression position tokens).ending ≠ .faulted fault) :
    let run := machine.run dialect strict expression position tokens
    (∀ instruction ∈ run.instructions, instruction.opcode.arity = .binary) ∧
      run.instructions.length + run.diagnostics.length = tokens.countP dialect.operators.contains := by
  induction tokens generalizing position machine with
  | nil => simp [run_nil]
  | cons token rest ih =>
    obtain ⟨first, others⟩ := List.forall_mem_cons.mp plain
    have quiet : ∀ fault, (machine.read dialect token).ending? strict { expression, position, token } ≠
        some (.faulted fault) := fun fault faulted => by
      rw [run_of_ending faulted] at going
      exact going fault rfl
    obtain ⟨continues, binary, counted⟩ := read_binary first quiet
    rw [run_of_onward continues] at going ⊢
    obtain ⟨binaries, count⟩ := ih others going
    refine ⟨fun instruction h => (List.mem_append.mp h).elim (binary instruction) (binaries instruction), ?_⟩
    rw [Run.instructions_after, Run.diagnostics_after, List.length_append, List.length_append, List.countP_cons]
    omega

end

/-- Whatever an expression comes to that is not ended by a fault: the values its instructions take and the
values left on the stack are, each as often, the values there were on it, those of the operands looked
at, those the instructions give and the targets of the composite pieces whose operators are applied. So
the depth of the stack grows by one with every operand and every such piece, and falls by one with every
instruction of two operands. -/
theorem Lowerer.lower_conserves_values (lowerer : Lowerer) (expression : String) {lowering : Lowering}
    (result : (lowerer.lower expression).result = .ok lowering) :
    let before := lowerer.machine
    let after := (lowerer.lower expression).lowerer.machine
    let looked := (tokens expression).take (lowering.tokensConsumed + 1)
    let operands := looked.filterMap lowerer.dialect.operand?
    let targets := before.targets lowerer.dialect looked
    (lowering.instructions.flatMap Instruction.taken + after.stack : Multiset Value) =
      before.stack + operands + lowering.instructions.map Instruction.destination + targets ∧
    after.stack.length + lowering.instructions.countP (·.opcode.arity = .binary) =
      before.stack.length + operands.length + targets.length ∧
    ((∀ token ∈ tokens expression, lowerer.dialect.ReadsOnly (·.arity = .binary) token) →
      after.stack.length + lowering.instructions.length = before.stack.length + operands.length ∧
      lowering.instructions.length + lowering.diagnostics.length =
        (tokens expression).countP lowerer.dialect.operators.contains) := by
  intro before after looked operands targets
  obtain ⟨ends, rfl⟩ := result_eq_ok.mp result
  have reached : after = (lowerer.run expression).machine := congrArg Lowerer.machine (lower_lowerer ..)
  have balances : Balances before.stack ((operands : Multiset Value) + (targets : Multiset Value))
      (lowerer.run expression).instructions after.stack := by
    rw [reached]
    exact Machine.run_balances (Nat.zero_add _).symm
  have depth := balances.depth
  rw [Multiset.card_add, Multiset.coe_card, Multiset.coe_card, ← Nat.add_assoc] at depth
  refine ⟨?_, depth, fun plain => ?_⟩
  · unfold Balances at balances
    have emitted : (summary expression (lowerer.run expression)).instructions =
        (lowerer.run expression).instructions := rfl
    rw [emitted, balances]
    abel
  · have noTargets : targets = [] := Machine.targets_of_readsOnly fun token h => plain token (List.mem_of_mem_take h)
    obtain ⟨binary, counted⟩ := Machine.run_binary plain ends
    have all : (lowerer.run expression).instructions.countP (·.opcode.arity = .binary) =
        (lowerer.run expression).instructions.length :=
      List.countP_eq_length.mpr fun instruction h => decide_eq_true (binary instruction h)
    refine ⟨?_, counted⟩
    rw [noTargets, List.length_nil, Nat.add_zero, all] at depth
    exact depth

/-- One piece of a composite token is done before the stack is too low for the next one, and a later
composite ends the expression. -/
theorem Lowerer.lower_conserves_values_example :
    let lowerer := fresh Profile.defaultName Profile.builtin.toDialect false
    let expression := "2,rax,+=-=,!,+,x=,rcx"
    let lowering := summary expression (lowerer.run expression)
    let after := (lowerer.lower expression).lowerer.machine
    let looked := (tokens expression).take (lowering.tokensConsumed + 1)
    let operands := looked.filterMap lowerer.dialect.operand?
    let targets := lowerer.machine.targets lowerer.dialect looked
    (lowerer.lower expression).result = .ok lowering ∧ lowering.status = .failed ∧
      operands.length = 2 ∧ targets = operands.take 1 ∧
      (lowering.instructions.flatMap Instruction.taken + after.stack : Multiset Value) =
        lowerer.machine.stack + operands + lowering.instructions.map Instruction.destination + targets := by
  intro lowerer expression lowering after looked operands targets
  have result : (lowerer.lower expression).result = .ok lowering := by decide +kernel
  exact ⟨result, by decide +kernel, by decide +kernel, by decide +kernel,
    (lower_conserves_values lowerer expression result).1⟩

end EsilLowering
