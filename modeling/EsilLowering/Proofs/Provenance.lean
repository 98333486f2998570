import EsilLowering.Proofs.Classification
import EsilLowering.Proofs.TemporaryOrder

/-! # Where values come from

Every value that a lowerer holds or has written into an instruction is a register of its table, a
constant, a name that is neither, a temporary that it has handed out, or nothing. Which of these it is
can be told by its place, and its other fields are as they were when it was made: a move only pushes
what an operand token gives, carries values from the stack to an instruction and back, or hands out the
next temporary. -/

namespace EsilLowering

/-- A name that can be an operand token: it could not be cut or assigned with, and it is no operator. -/
structure Dialect.OperandName (dialect : Dialect) (name : String) : Prop where
  noSeparator : tokenSeparator ∉ name.toList
  noMark : Operator.assignmentMark ∉ name.toList
  noOperator : dialect.operators.get? name = none

/-- What a value is if it came about as values do, `last` temporaries having been handed out. -/
def Value.Traced (dialect : Dialect) (last : Nat) (value : Value) : Prop :=
  value.typeset = 0 ∧
  match value.location with
  | .memory => False
  | .register =>
    dialect.OperandName value.name ∧ dialect.registers.get? value.name = some value.size ∧ value.literal = 0
  | .constant =>
    dialect.OperandName value.name ∧ dialect.registers.get? value.name = none ∧
      Numeral.decimal? value.name = .ok (some value.literal) ∧
      -2 ^ 63 ≤ value.literal ∧ value.literal ≤ 2 ^ 63 - 1 ∧ value.size = dialect.defaultSize
  | .unknown =>
    dialect.OperandName value.name ∧ dialect.registers.get? value.name = none ∧
      Numeral.decimal? value.name = .ok none ∧ value.size = dialect.defaultSize ∧ value.literal = 0
  | .temporary =>
    ∃ index : Nat, 1 ≤ index ∧ index ≤ last ∧ value.name = Value.temporaryStem ++ Numeral.hexadecimal index ∧
      value.size = 0 ∧ value.literal = 0
  | .null => value.name = "" ∧ value.size = 0 ∧ value.literal = 0

/-- The values of an instruction: its destination and its operands. -/
def Instruction.values (instruction : Instruction) : List Value :=
  [instruction.destination, instruction.first, instruction.second]

/-- The values on the stack and in the instructions so far came about as values do. -/
structure ValuesTraced (dialect : Dialect) (instructions : List Instruction) (machine : Machine) : Prop where
  stack : ∀ value ∈ machine.stack, value.Traced dialect machine.temporaries.last
  instructions : ∀ instruction ∈ instructions, ∀ value ∈ instruction.values,
    value.Traced dialect machine.temporaries.last

/-! ### Values -/

section
variable {dialect : Dialect} {last : Nat} {value : Value}

theorem Value.traced_null : Value.null.Traced dialect last :=
  ⟨rfl, rfl, rfl, rfl⟩

theorem Value.traced_temporary {index : Nat} (hpos : 1 ≤ index) (hle : index ≤ last) :
    (Value.temporary (index : Int)).Traced dialect last :=
  ⟨rfl, index, hpos, hle, rfl, rfl, rfl⟩

/-- Only what is said of temporaries depends on how many there are. -/
theorem Value.Traced.mono (h : value.Traced dialect last) {more : Nat} (hle : last ≤ more) :
    value.Traced dialect more := by
  obtain ⟨htypeset, h⟩ := h
  refine ⟨htypeset, ?_⟩
  cases hlocation : value.location with
  | temporary =>
    rw [hlocation] at h
    obtain ⟨index, hpos, hindex, fields⟩ := h
    exact ⟨index, hpos, Nat.le_trans hindex hle, fields⟩
  | memory | register | constant | unknown | null =>
    rw [hlocation] at h
    exact h

theorem Value.classify_traced {token : String} (operand : dialect.OperandName token)
    (classified : classify dialect.registers dialect.defaultSize token = .ok value) : value.Traced dialect last := by
  rcases classify_eq_ok.mp classified with ⟨width, found, rfl⟩ | ⟨number, absent, numeral, rfl⟩ |
    ⟨absent, noNumeral, rfl⟩
  · exact ⟨rfl, operand, found, rfl⟩
  · obtain ⟨hmin, hmax⟩ := Numeral.fitsWord_iff.mp (Numeral.decimal?_fits numeral)
    exact ⟨rfl, operand, absent, numeral, hmin, hmax, rfl⟩
  · exact ⟨rfl, operand, absent, noNumeral, rfl, rfl⟩

end

/-! ### Moves -/

section
variable {dialect : Dialect} {before new : List Instruction} {machine after : Machine}

theorem Machine.last_le_handed (machine : Machine) (operator : Operator) :
    machine.temporaries.last ≤ (machine.handed operator).last := by
  unfold handed
  split
  · exact Nat.le_refl _
  · exact Nat.le_succ _

theorem Machine.destination_traced (machine : Machine) (operator : Operator) :
    (machine.destination operator).Traced dialect (machine.handed operator).last := by
  unfold destination handed
  split
  · exact Value.traced_null
  · exact Value.traced_temporary (Nat.succ_pos _) (Nat.le_refl _)

/-- What an instruction holds is its result, or was on the stack, or is null for want of a second operand. -/
theorem Operator.values_of_operands {operator : Operator} {operands : Operands} {stack : List Value}
    (taken : operator.operands stack = .ok operands) {destination value : Value}
    (hvalue : value ∈ Instruction.values ⟨operator, destination, operands.first, operands.second⟩) :
    value = destination ∨ value ∈ stack ∨ value = .null := by
  simp only [Instruction.values, List.mem_cons, List.not_mem_nil, or_false] at hvalue
  rcases hvalue with rfl | rfl | rfl
  · exact Or.inl rfl
  · exact Or.inr (Or.inl ((operands_sublist taken).subset List.mem_cons_self))
  · exact Or.inr (second_mem_or_null taken)

namespace ValuesTraced

theorem push (h : ValuesTraced dialect before machine) {value : Value}
    (traced : value.Traced dialect machine.temporaries.last) :
    ValuesTraced dialect before { machine with stack := value :: machine.stack } where
  stack := List.forall_mem_cons.mpr ⟨traced, h.stack⟩
  instructions := h.instructions

/-- An instruction takes its operands from the stack, and leaves its result on a part of it. -/
theorem emit (h : ValuesTraced dialect before machine) {operator : Operator} {operands : Operands} {below : List Value}
    (taken : operator.operands machine.stack = .ok operands) (hbelow : below ⊆ machine.stack) :
    ValuesTraced dialect (before ++ (machine.emit operator operands below).instructions)
      (machine.emit operator operands below).machine := by
  have grown (value : Value) (traced : value.Traced dialect machine.temporaries.last) :
      value.Traced dialect (machine.handed operator).last := traced.mono (machine.last_le_handed operator)
  have destination : (machine.destination operator).Traced dialect (machine.handed operator).last :=
    machine.destination_traced operator
  rw [Machine.emit_eq]
  refine ⟨List.forall_mem_cons.mpr ⟨destination, fun value hmem => grown _ (h.stack _ (hbelow hmem))⟩,
    fun instruction hmem value hvalue => ?_⟩
  rcases List.mem_append.mp hmem with hold | hnew
  · exact grown _ (h.instructions _ hold _ hvalue)
  · rw [List.mem_singleton.mp hnew] at hvalue
    rcases Operator.values_of_operands taken hvalue with rfl | hstack | rfl
    · exact destination
    · exact grown _ (h.stack _ hstack)
    · exact Value.traced_null

end ValuesTraced

theorem Move.keeps_traced (move : Move dialect (tokenSeparator ∉ ·.toList) machine new after)
    (h : ValuesTraced dialect before machine) : ValuesTraced dialect (before ++ new) after := by
  rcases move.push_or_emit with ⟨token, value, given, noOperator, noMark, classified, rfl, rfl⟩ |
    ⟨operator, operands, below, taken, hbelow, rfl, rfl⟩
  · rw [List.append_nil]
    exact h.push (Value.classify_traced ⟨given, noMark, noOperator⟩ classified)
  · exact h.emit taken hbelow.subset

end

/-- In every history, whatever the tables and however the expressions came out, each value on the stack and
in the instructions is what its place says: a register has the width of the table, a constant the number
of its name, which no register has and which fits a word, an unknown name is no register and no numeral,
and a temporary has an index among those handed out. No value is in memory or has a type set, and the
name of one that was an operand token holds neither comma nor assignment mark and is no operator. -/
theorem Lowerer.values_traced (architecture : String) (dialect : Dialect) (strict : Bool) (expressions : List String) :
    let lowerer := (fresh architecture dialect strict).lowered expressions
    ValuesTraced dialect lowerer.instructions lowerer.machine := by
  have start : ValuesTraced dialect [] {} := ⟨by simp, by simp⟩
  have given : ∀ expression ∈ expressions, ∀ token ∈ tokens expression, tokenSeparator ∉ token.toList :=
    fun expression _ token hmem => Text.notMem_of_mem_fields hmem
  exact lowered_keeps (fresh architecture dialect strict) Move.keeps_traced given start

end EsilLowering
