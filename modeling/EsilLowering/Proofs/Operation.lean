import EsilLowering.Machine

/-! # What an operator does to the machine

Taking operands, emitting an instruction, assigning a result: each is told once, by what it leaves. -/

namespace EsilLowering

/-! ### Operands -/

section
variable {operator : Operator} {stack : List Value} {operands : Operands}

theorem Operator.operands_eq_ok : operator.operands stack = .ok operands ↔
    (operator.arity = .binary ∧ stack = operands.second :: operands.first :: operands.below) ∨
      ((operator.arity = .nullary ∨ operator.arity = .unary) ∧ operands.second = .null ∧
        stack = operands.first :: operands.below) := by
  obtain ⟨symbol, arity⟩ := operator
  obtain ⟨first, second, below⟩ := operands
  cases arity with
  | ternary => simp [Operator.operands]
  | binary => rcases stack with _ | ⟨a, _ | ⟨b, rest⟩⟩ <;> grind [Operator.operands]
  | nullary => rcases stack with _ | ⟨a, rest⟩ <;> grind [Operator.operands]
  | unary => rcases stack with _ | ⟨a, rest⟩ <;> grind [Operator.operands]

/-- Operands by their number: two, or one with nothing for a second. -/
theorem Operator.operands_counted (h : operator.operands stack = .ok operands) :
    (max operator.arity.toNat 1 = 2 ∧ stack = operands.second :: operands.first :: operands.below) ∨
      (max operator.arity.toNat 1 = 1 ∧ operands.second = .null ∧ stack = operands.first :: operands.below) := by
  rcases operands_eq_ok.mp h with ⟨hbinary, hstack⟩ | ⟨hnullary | hunary, hnull, hstack⟩
  · exact Or.inl ⟨by rw [hbinary]; rfl, hstack⟩
  · exact Or.inr ⟨by rw [hnullary]; rfl, hnull, hstack⟩
  · exact Or.inr ⟨by rw [hunary]; rfl, hnull, hstack⟩

/-- Operands are missing if no instruction expresses the operator, and else if the stack is too low. -/
theorem Operator.operands_eq_error {problem : Problem} : operator.operands stack = .error problem ↔
    (operator.arity = .ternary ∧ problem = .unsupportedArity operator.symbol 3) ∨
      (operator.arity ≠ .ternary ∧ stack.length < max operator.arity.toNat 1 ∧
        problem = .stackUnderflow operator.symbol (max operator.arity.toNat 1 : Nat) stack.length) := by
  obtain ⟨symbol, arity⟩ := operator
  cases arity with
  | ternary => simp [Operator.operands, eq_comm]
  | binary => rcases stack with _ | ⟨a, _ | ⟨b, rest⟩⟩ <;> grind [Operator.operands, Arity.toNat]
  | nullary | unary => rcases stack with _ | ⟨a, rest⟩ <;> simp [Operator.operands, Arity.toNat, eq_comm]

/-- The expression goes on after missing operands. -/
theorem Operator.operands_goes {problem : Problem} (missing : operator.operands stack = .error problem) :
    problem.stops = false := by
  unfold operands at missing
  split at missing <;> cases missing <;> rfl

/-- The first operand and what stays below are part of the stack, in its order. -/
theorem Operator.operands_sublist (h : operator.operands stack = .ok operands) :
    (operands.first :: operands.below).Sublist stack := by
  rcases Operator.operands_eq_ok.mp h with ⟨-, rfl⟩ | ⟨-, -, rfl⟩
  · exact List.sublist_cons_self _ _
  · exact List.Sublist.refl _

theorem Operator.second_mem_or_null (h : operator.operands stack = .ok operands) :
    operands.second ∈ stack ∨ operands.second = .null := by
  rcases Operator.operands_eq_ok.mp h with ⟨-, rfl⟩ | ⟨-, hnull, -⟩
  · exact Or.inl (List.mem_cons_self ..)
  · exact Or.inr hnull

theorem Operator.second_eq_null (h : operator.operands stack = .ok operands) (harity : operator.arity ≠ .binary) :
    operands.second = .null := by
  rcases Operator.operands_eq_ok.mp h with ⟨hbinary, -⟩ | ⟨-, hnull, -⟩
  · exact absurd hbinary harity
  · exact hnull

/-- An operator that some instruction expresses finds its operands among two values. -/
theorem Operator.exists_operands (harity : operator.arity ≠ .ternary) (top next : Value) (rest : List Value) :
    ∃ operands, operator.operands (top :: next :: rest) = .ok operands := by
  obtain ⟨symbol, arity⟩ := operator
  cases arity with
  | ternary => exact absurd rfl harity
  | nullary | unary | binary => exact ⟨_, rfl⟩

theorem Operator.operands_of_ternary (harity : operator.arity = .ternary) :
    operator.operands stack = .error (.unsupportedArity operator.symbol 3) := by
  simp [Operator.operands, harity]

end

namespace Machine
variable {machine : Machine} {operator assignment : Operator} {operands : Operands} {problem : Problem}

/-! ### Emitting -/

/-- Where an operator's instruction puts its result. -/
def destination (machine : Machine) (operator : Operator) : Value :=
  if operator.isAssignment then .null else .temporary ((machine.temporaries.last + 1 : Nat) : Int)

/-- The temporaries handed out once an operator's instruction is emitted. -/
def handed (machine : Machine) (operator : Operator) : Temporaries :=
  if operator.isAssignment then machine.temporaries else ⟨machine.temporaries.last + 1⟩

theorem emit_eq (machine : Machine) (operator : Operator) (operands : Operands) (below : List Value) :
    machine.emit operator operands below =
      { machine := { stack := machine.destination operator :: below, temporaries := machine.handed operator }
        instructions := [⟨operator, machine.destination operator, operands.first, operands.second⟩]
        events := [.emitted ⟨operator, machine.destination operator, operands.first, operands.second⟩] } := by
  cases assigns : operator.isAssignment <;> simp [emit, destination, handed, assigns, Temporaries.next]

/-- The step of an operator whose first operand goes back beneath the result. -/
def emitKeeping (machine : Machine) (operator : Operator) (operands : Operands) : Step :=
  machine.emit operator operands (operands.first :: operands.below)

theorem emitKeeping_halt? : (machine.emitKeeping operator operands).halt? = none :=
  emit_halt? ..

/-! ### Applying -/

theorem apply_of_ok (taken : operator.operands machine.stack = .ok operands) :
    machine.apply operator = machine.emit operator operands operands.below := by
  simp [apply, taken]

theorem apply_of_error (h : operator.operands machine.stack = .error problem) :
    machine.apply operator = machine.refuse problem := by
  simp [apply, h]

theorem operands_of_done (done : (machine.apply operator).halt? = none) :
    ∃ operands, operator.operands machine.stack = .ok operands := by
  cases taken : operator.operands machine.stack with
  | error problem => simp [apply_of_error taken, refuse] at done
  | ok operands => exact ⟨operands, rfl⟩

theorem applyAndAssign_of_ok (taken : operator.operands machine.stack = .ok operands) :
    machine.applyAndAssign assignment operator =
      (machine.emitKeeping operator operands).andThen (apply assignment) := by
  simp [applyAndAssign, taken, emitKeeping]

theorem applyAndAssign_of_error (h : operator.operands machine.stack = .error problem) :
    machine.applyAndAssign assignment operator = machine.refuse problem := by
  simp [applyAndAssign, h]

/-- The value put back and the result above it are enough for any assignment but a ternary one. -/
theorem exists_assigned (harity : assignment.arity ≠ .ternary) (machine : Machine) (operator : Operator)
    (operands : Operands) :
    ∃ assigned, assignment.operands (machine.emitKeeping operator operands).machine.stack = .ok assigned := by
  rw [emitKeeping, emit_eq]
  exact Operator.exists_operands harity _ _ _

theorem applyAndAssign_of_assigned {assigned : Operands} (taken : operator.operands machine.stack = .ok operands)
    (back : assignment.operands (machine.emitKeeping operator operands).machine.stack = .ok assigned) :
    let kept := machine.emitKeeping operator operands
    let last := kept.machine.emit assignment assigned assigned.below
    machine.applyAndAssign assignment operator =
      { last with instructions := kept.instructions ++ last.instructions, events := kept.events ++ last.events } := by
  rw [applyAndAssign_of_ok taken, Step.andThen_of_done emitKeeping_halt?, apply_of_ok back]

theorem applyAndAssign_of_ternary (taken : operator.operands machine.stack = .ok operands)
    (harity : assignment.arity = .ternary) :
    machine.applyAndAssign assignment operator =
      { machine.emitKeeping operator operands with
        halt? := some (.problem (.unsupportedArity assignment.symbol 3)) } := by
  rw [applyAndAssign_of_ok taken, Step.andThen_of_done emitKeeping_halt?,
    apply_of_error (Operator.operands_of_ternary harity)]
  simp [refuse]

end Machine
end EsilLowering
