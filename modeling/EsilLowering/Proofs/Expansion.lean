import EsilLowering.Proofs.UnknownPieces
import Mathlib.Data.List.Forall2

/-! # The expansion of a composite token

The pieces of a composite token become two instructions each: that of the piece's operator, the same as if
the operator stood alone, and the assignment of its result to its first operand. Of the values that the
operator took, a single null is left, which is the last operand of the next piece. So the height of the
stack before each piece is known beforehand, and with it whether the token can be worked through. -/

namespace EsilLowering

/-- Composite tokens assign plainly: the table has nothing else under the symbol of assignment. -/
def Dialect.KeepsAssignment (dialect : Dialect) : Prop :=
  ∀ operator ∈ dialect.operators.get? Operator.assignmentSymbol, operator = .assignment

/-- Pieces name operators of the table that some instruction expresses. -/
def Dialect.Names (dialect : Dialect) : List String → List Operator → Prop :=
  List.Forall₂ fun piece operator => dialect.operators.get? piece = some operator ∧ operator.arity ≠ .ternary

/-- How much lower the stack is once the first of some pieces are done: each leaves one value for those
that its operator takes. -/
def spent : List Operator → Nat → Nat
  | _, 0 => 0
  | [], _ + 1 => 0
  | operator :: rest, count + 1 => (operator.takes - 1) + spent rest count

/-- The machine once the first pieces of a composite token are done. -/
def Machine.afterPieces (dialect : Dialect) (composite : String) (pieces : List String) (count : Nat)
    (machine : Machine) : Machine :=
  (machine.applyPieces dialect composite (pieces.take count)).machine

/-- The operand that was on top of the stack. -/
def Instruction.lastOperand (instruction : Instruction) : Value :=
  if instruction.opcode.arity = .binary then instruction.second else instruction.first

/-- What a piece does: `applied` is the instruction of its operator alone, `assigned` writes the result of
that to its first operand, and a null stands in place of the operands. -/
structure PieceExpands (operator : Operator) (before after : Machine) (applied assigned : Instruction) : Prop where
  alone : (before.apply operator).instructions = [applied]
  opcode : applied.opcode = operator
  taken : operator.operands before.stack = .ok ⟨applied.first, applied.second, before.stack.drop operator.takes⟩
  assigns : assigned = ⟨.assignment, .null, applied.first, applied.destination⟩
  stack : after.stack = .null :: before.stack.drop operator.takes
  temporaries : after.temporaries = (before.apply operator).machine.temporaries

section
variable {dialect : Dialect} {composite piece token : String} {pieces : List String} {machine : Machine}
  {operator : Operator} {operators : List Operator} {operands : Operands}

/-! ### One piece -/

theorem Dialect.KeepsAssignment.assignment_eq (plain : dialect.KeepsAssignment) : dialect.assignment = .assignment := by
  unfold Dialect.assignment
  cases found : dialect.operators.get? Operator.assignmentSymbol with
  | none => rfl
  | some operator => exact plain operator found

theorem Operator.below_of_operands (taken : operator.operands machine.stack = .ok operands) :
    operands.below = machine.stack.drop operator.takes := by
  rcases Operator.operands_counted taken with ⟨two, hstack⟩ | ⟨one, -, hstack⟩
  · rw [hstack, takes, two]
    rfl
  · rw [hstack, takes, one]
    rfl

theorem Machine.applyAndAssign_expands (plain : dialect.KeepsAssignment)
    (taken : operator.operands machine.stack = .ok operands) :
    ∃ applied assigned, (machine.applyAndAssign dialect.assignment operator).instructions = [applied, assigned] ∧
      PieceExpands operator machine (machine.applyAndAssign dialect.assignment operator).machine applied assigned := by
  have back : dialect.assignment.operands (machine.emitKeeping operator operands).machine.stack =
      .ok ⟨operands.first, machine.destination operator, operands.below⟩ := by
    rw [plain.assignment_eq, emitKeeping, emit_eq]
    rfl
  have below := Operator.below_of_operands taken
  refine ⟨⟨operator, machine.destination operator, operands.first, operands.second⟩,
    ⟨.assignment, .null, operands.first, machine.destination operator⟩, ?_, ?_, rfl, ?_, rfl, ?_, ?_⟩
  · rw [applyAndAssign_of_assigned taken back, plain.assignment_eq, emitKeeping, emit_eq, emit_eq]
    rfl
  · rw [apply_of_ok taken, emit_eq]
  · rw [taken, ← below]
  · rw [applyAndAssign_of_assigned taken back, plain.assignment_eq, emitKeeping, emit_eq, emit_eq, ← below]
    rfl
  · rw [applyAndAssign_of_assigned taken back, plain.assignment_eq, apply_of_ok taken, emitKeeping, emit_eq, emit_eq,
      emit_eq]
    rfl

/-! ### All pieces -/

theorem Machine.afterPieces_succ {rest : List String} (found : dialect.operators.get? piece = some operator)
    (done : (machine.applyAndAssign dialect.assignment operator).halt? = none) (count : Nat) :
    machine.afterPieces dialect composite (piece :: rest) (count + 1) =
      (machine.applyAndAssign dialect.assignment operator).machine.afterPieces dialect composite rest count := by
  rw [afterPieces, List.take_succ_cons, applyPieces, found]
  simp only
  rw [Step.andThen_of_done done]
  rfl

theorem Machine.afterPieces_length (machine : Machine) (pieces : List String) :
    machine.afterPieces dialect composite pieces pieces.length = (machine.applyPieces dialect composite pieces).machine := by
  rw [afterPieces, List.take_length]

/-- The pieces of a composite token are expanded one after the other, two instructions for each. -/
theorem Machine.applyPieces_expands (plain : dialect.KeepsAssignment) (names : dialect.Names pieces operators)
    (done : (machine.applyPieces dialect composite pieces).halt? = none) :
    (machine.applyPieces dialect composite pieces).instructions.length = 2 * operators.length ∧
    ∀ k operator, operators[k]? = some operator → ∃ applied assigned,
      (machine.applyPieces dialect composite pieces).instructions[2 * k]? = some applied ∧
      (machine.applyPieces dialect composite pieces).instructions[2 * k + 1]? = some assigned ∧
      PieceExpands operator (machine.afterPieces dialect composite pieces k)
        (machine.afterPieces dialect composite pieces (k + 1)) applied assigned := by
  induction names generalizing machine with
  | nil => exact ⟨rfl, fun k operator found => by simp at found⟩
  | @cons piece first rest others named names ih =>
    obtain ⟨found, -⟩ := named
    have afforded := (Dialect.affords_cons found).mp (applyPieces_done_iff.mp done)
    have assigned := applyAndAssign_done_iff.mpr afforded.1
    obtain ⟨operands, taken⟩ := Operator.exists_operands_iff.mpr afforded.1.1
    obtain ⟨applied, back, instructions, expands⟩ := applyAndAssign_expands plain taken
    have whole : machine.applyPieces dialect composite (piece :: rest) =
        (machine.applyAndAssign dialect.assignment first).andThen (applyPieces dialect composite rest) := by
      rw [applyPieces, found]
    rw [whole, Step.andThen_of_done assigned] at done
    obtain ⟨length, onward⟩ := ih done
    rw [whole, Step.andThen_of_done assigned, instructions]
    refine ⟨?_, fun k operator listed => ?_⟩
    · rw [List.length_append, length, List.length_cons, List.length_cons, List.length_cons, List.length_nil]
      omega
    · cases k with
      | zero =>
        obtain rfl : first = operator := Option.some.inj listed
        refine ⟨applied, back, rfl, rfl, ?_⟩
        rw [afterPieces_succ found assigned]
        exact expands
      | succ k =>
        obtain ⟨applied, back, atFirst, atSecond, expands⟩ := onward k operator listed
        refine ⟨applied, back, atFirst, atSecond, ?_⟩
        rw [afterPieces_succ found assigned, afterPieces_succ found assigned]
        exact expands

/-! ### The stack before a piece -/

theorem spent_cons (first : Operator) (rest : List Operator) (count : Nat) :
    spent (first :: rest) (count + 1) = (first.takes - 1) + spent rest count := rfl

theorem spent_succ {k : Nat} {operator : Operator} (listed : operators[k]? = some operator) :
    spent operators (k + 1) = spent operators k + (operator.takes - 1) := by
  induction operators generalizing k with
  | nil => simp at listed
  | cons first rest ih =>
    cases k with
    | zero =>
      cases listed
      simp [spent]
    | succ k =>
      rw [spent_cons, spent_cons, ih listed]
      omega

theorem Operator.takes_pos (operator : Operator) : 0 < operator.takes :=
  Nat.le_max_right _ _

/-- Pieces do their work exactly if none of them finds too few values on the stack. -/
theorem Dialect.affords_iff (plain : dialect.KeepsAssignment) (names : dialect.Names pieces operators) {depth : Nat} :
    dialect.Affords pieces depth ↔
      ∀ k operator, operators[k]? = some operator → operator.takes ≤ depth - spent operators k := by
  induction names generalizing depth with
  | nil => exact ⟨fun _ k operator listed => by simp at listed, fun _ => trivial⟩
  | @cons piece first rest others named names ih =>
    obtain ⟨found, expressed⟩ := named
    have two : dialect.assignment.takes = 2 := by rw [plain.assignment_eq]; rfl
    have binary : dialect.assignment.arity ≠ .ternary := by rw [plain.assignment_eq]; decide
    have one := first.takes_pos
    rw [affords_cons found, ih, two]
    constructor
    · rintro ⟨⟨⟨-, enough⟩, -⟩, later⟩ k operator listed
      cases k with
      | zero =>
        obtain rfl : first = operator := Option.some.inj listed
        exact enough
      | succ k =>
        have next := later k operator listed
        rw [spent_cons]
        omega
    · intro all
      have enough : first.takes ≤ depth := all 0 first rfl
      refine ⟨⟨⟨expressed, enough⟩, binary⟩, fun k operator listed => ?_⟩
      have next := all (k + 1) operator listed
      rw [spent_cons] at next
      omega

/-- A piece leaves one value in place of those that its operator takes. -/
theorem PieceExpands.depth {before after : Machine} {applied assigned : Instruction}
    (expands : PieceExpands operator before after applied assigned) :
    operator.takes ≤ before.stack.length ∧ after.stack.length = before.stack.length - operator.takes + 1 := by
  constructor
  · exact (Operator.exists_operands_iff.mp ⟨_, expands.taken⟩).2
  · rw [expands.stack, List.length_cons, List.length_drop]

/-- A piece hands out a temporary unless its operator assigns. -/
theorem PieceExpands.handed {before after : Machine} {applied assigned : Instruction}
    (expands : PieceExpands operator before after applied assigned) :
    after.temporaries.last = before.temporaries.last + [operator].countP (!·.isAssignment) := by
  rw [expands.temporaries, Machine.apply_of_ok expands.taken, Machine.emit_eq]
  cases assigns : operator.isAssignment <;> simp [Machine.handed, assigns]

/-- The operator of a piece finds on top what the piece before it left. -/
theorem PieceExpands.lastOperand {before after : Machine} {applied assigned : Instruction} {top : Value}
    {below : List Value} (expands : PieceExpands operator before after applied assigned)
    (stack : before.stack = top :: below) : applied.lastOperand = top := by
  have taken := Operator.operands_eq_ok.mp expands.taken
  rw [stack] at taken
  rw [Instruction.lastOperand, expands.opcode]
  rcases taken with ⟨binary, htop⟩ | ⟨single, -, htop⟩
  · rw [if_pos binary]
    exact (List.cons.inj htop).1.symm
  · have other : operator.arity ≠ .binary := by rcases single with h | h <;> simp [h]
    rw [if_neg other]
    exact (List.cons.inj htop).1.symm

/-- Along expanded pieces the stack and the temporaries are as the operators done so far make them. -/
theorem counts_of_expands (machines : Nat → Machine)
    (expands : ∀ k operator, operators[k]? = some operator →
      ∃ applied assigned, PieceExpands operator (machines k) (machines (k + 1)) applied assigned) :
    ∀ k ≤ operators.length,
      (machines k).stack.length = (machines 0).stack.length - spent operators k ∧
      (machines k).temporaries.last = (machines 0).temporaries.last + (operators.take k).countP (!·.isAssignment) := by
  intro k within
  induction k with
  | zero => simp [spent]
  | succ k ih =>
    obtain ⟨depth, last⟩ := ih (Nat.le_of_succ_le within)
    obtain ⟨operator, listed⟩ : ∃ operator, operators[k]? = some operator := ⟨_, List.getElem?_eq_getElem within⟩
    obtain ⟨applied, assigned, expands⟩ := expands k operator listed
    obtain ⟨enough, after⟩ := expands.depth
    have one := operator.takes_pos
    have more := spent_succ listed
    constructor
    · rw [after, more]
      omega
    · rw [expands.handed, last, List.take_add_one, listed, List.countP_append]
      exact Nat.add_assoc _ _ _

/-! ### The token -/

/-- A composite token is its pieces with an assignment mark between each two, and often one at its end. -/
theorem joinFields_compositePieces (mark : Operator.assignmentMark ∈ token.toList) :
    token = Text.joinFields Operator.assignmentMark (compositePieces token) ∨
      token = Text.joinFields Operator.assignmentMark (compositePieces token) ++ Operator.assignmentSymbol := by
  have whole := Text.joinFields_fields Operator.assignmentMark token
  unfold compositePieces
  by_cases empty : (Text.fields Operator.assignmentMark token).getLast? = some ""
  · right
    simp only [if_pos empty]
    have split : Text.fields Operator.assignmentMark token =
        (Text.fields Operator.assignmentMark token).dropLast ++ [""] :=
      (List.dropLast_append_getLast? "" empty).symm
    have some : (Text.fields Operator.assignmentMark token).dropLast ≠ [] := by
      intro none
      rw [split, none, List.nil_append, Text.joinFields, String.intercalate_singleton] at whole
      rw [← whole] at mark
      exact List.not_mem_nil mark
    calc token
      _ = Text.joinFields Operator.assignmentMark ((Text.fields Operator.assignmentMark token).dropLast ++ [""]) := by
        rw [← split, whole]
      _ = _ := by
        rw [Text.joinFields, String.intercalate_append_of_ne_nil some (by simp), String.intercalate_singleton,
          String.append_empty]
        rfl
  · left
    simp only [if_neg empty, whole]

/-- A composite token whose pieces name operators is worked through unless one of them finds fewer values
than it takes, on a stack that each piece before it has lowered by all but one of those it took. If it is
worked through, it becomes two instructions for each piece: that of the piece's operator as if it stood
alone, and the assignment of the result to the first operand. A null is left in place of the operands, and
the next piece has it for its last operand. Temporaries are handed out for the operators that do not
assign. -/
theorem Machine.composite_expands_exactly (plain : dialect.KeepsAssignment)
    (absent : dialect.operators.get? token = none) (mark : Operator.assignmentMark ∈ token.toList)
    (names : dialect.Names (compositePieces token) operators) (machine : Machine) :
    let pieces := compositePieces token
    let step := machine.read dialect token
    let before := fun k => machine.afterPieces dialect token pieces k
    (token = Text.joinFields Operator.assignmentMark pieces ∨
      token = Text.joinFields Operator.assignmentMark pieces ++ Operator.assignmentSymbol) ∧
    (step.halt? ≠ none ↔ ∃ k operator, operators[k]? = some operator ∧
      machine.stack.length - spent operators k < operator.takes) ∧
    (step.halt? = none →
      step.instructions.length = 2 * operators.length ∧
      before 0 = machine ∧ before operators.length = step.machine ∧
      step.machine.temporaries.last = machine.temporaries.last + operators.countP (!·.isAssignment) ∧
      ∀ k operator, operators[k]? = some operator →
        (before k).stack.length = machine.stack.length - spent operators k ∧
        ∃ applied assigned, step.instructions[2 * k]? = some applied ∧ step.instructions[2 * k + 1]? = some assigned ∧
          PieceExpands operator (before k) (before (k + 1)) applied assigned ∧
          (0 < k → applied.lastOperand = .null)) := by
  intro pieces step before
  have whole : step = machine.applyPieces dialect token pieces := read_of_composite absent mark
  refine ⟨joinFields_compositePieces mark, ?_, fun done => ?_⟩
  · rw [whole, ne_eq, applyPieces_done_iff, Dialect.affords_iff plain names]
    push Not
    rfl
  · rw [whole] at done
    obtain ⟨length, expands⟩ := applyPieces_expands plain names done
    rw [← whole] at length expands
    have counts := counts_of_expands before fun k operator listed =>
      let ⟨applied, assigned, _, _, expands⟩ := expands k operator listed
      ⟨applied, assigned, expands⟩
    have last : before operators.length = step.machine := by
      rw [whole, ← names.length_eq]
      exact afterPieces_length machine pieces
    refine ⟨length, rfl, last, ?_, fun k operator listed => ?_⟩
    · have all := (counts operators.length (Nat.le_refl _)).2
      rwa [last, List.take_length] at all
    · obtain ⟨within, -⟩ := List.getElem?_eq_some_iff.mp listed
      obtain ⟨applied, assigned, atFirst, atSecond, expanded⟩ := expands k operator listed
      refine ⟨(counts k (Nat.le_of_lt within)).1, applied, assigned, atFirst, atSecond, expanded, fun later => ?_⟩
      obtain ⟨j, rfl⟩ := Nat.exists_eq_succ_of_ne_zero (Nat.ne_of_gt later)
      obtain ⟨_, _, -, -, earlier⟩ := expands j _ (List.getElem?_eq_getElem (Nat.lt_of_succ_lt within))
      exact expanded.lastOperand earlier.stack

/-- The second piece takes the null that the first one left. -/
theorem Machine.composite_expands_exactly_example :
    let dialect := Profile.builtin.toDialect
    let machine : Machine := { stack := [.temporary 3, .temporary 2, .temporary 1], temporaries := ⟨3⟩ }
    let step := machine.read dialect "+=-="
    dialect.KeepsAssignment ∧ dialect.operators.get? "+=-=" = none ∧
      dialect.Names (compositePieces "+=-=") [⟨"+", .binary⟩, ⟨"-", .binary⟩] ∧
      step.halt? = none ∧ step.instructions.length = 4 ∧ step.machine.temporaries.last = 5 ∧
      ∃ applied assigned, step.instructions[2]? = some applied ∧ step.instructions[3]? = some assigned ∧
        applied.opcode = ⟨"-", .binary⟩ ∧ applied.lastOperand = .null ∧
        assigned = ⟨.assignment, .null, applied.first, applied.destination⟩ := by
  intro dialect machine step
  have plain : dialect.KeepsAssignment := by
    unfold Dialect.KeepsAssignment
    decide +kernel
  have absent : dialect.operators.get? "+=-=" = none := by decide +kernel
  have names : dialect.Names (compositePieces "+=-=") [⟨"+", .binary⟩, ⟨"-", .binary⟩] := by
    have pieces : compositePieces "+=-=" = ["+", "-"] := by decide +kernel
    rw [pieces]
    exact .cons ⟨by decide +kernel, by decide⟩ (.cons ⟨by decide +kernel, by decide⟩ .nil)
  obtain ⟨-, -, expansion⟩ := composite_expands_exactly plain absent (by decide) names machine
  have done : step.halt? = none := by decide +kernel
  obtain ⟨length, -, -, last, pieces⟩ := expansion done
  obtain ⟨-, applied, assigned, atFirst, atSecond, expands, null⟩ := pieces 1 ⟨"-", .binary⟩ rfl
  exact ⟨plain, absent, names, done, length, last, applied, assigned, atFirst, atSecond, expands.opcode,
    null Nat.one_pos, expands.assigns⟩

end
end EsilLowering
