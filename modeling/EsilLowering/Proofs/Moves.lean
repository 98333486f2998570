import EsilLowering.Proofs.History
import EsilLowering.Proofs.Operation

/-! # Moves

Whatever a machine does is a chain of moves. An operand token goes onto the stack, or an operator
takes its operands and leaves its result; within a composite token the first operand is put back
beneath the result. A token that halts stops the chain after the moves it has made, so a property that
every move keeps holds in every history, whichever tokens halted in it. -/

namespace EsilLowering

/-- An operator that the machine can come to apply: one of the table, or what composite tokens assign
with. -/
def Dialect.Applies (dialect : Dialect) (operator : Operator) : Prop :=
  operator = dialect.assignment ∨ ∃ token, dialect.operators.get? token = some operator

/-- One move of a machine, with the instructions it emits. The operand tokens it can push are those of
`source`. -/
inductive Move (dialect : Dialect) (source : String → Prop) : Machine → List Instruction → Machine → Prop where
  | push {machine : Machine} {token : String} {value : Value} (given : source token)
      (noOperator : dialect.operators.get? token = none) (noMark : Operator.assignmentMark ∉ token.toList)
      (classified : Value.classify dialect.registers dialect.defaultSize token = .ok value) :
      Move dialect source machine [] { machine with stack := value :: machine.stack }
  | apply {machine : Machine} {operator : Operator} {operands : Operands} (applies : dialect.Applies operator)
      (taken : operator.operands machine.stack = .ok operands) :
      Move dialect source machine (machine.emit operator operands operands.below).instructions
        (machine.emit operator operands operands.below).machine
  | applyKeeping {machine : Machine} {operator : Operator} {operands : Operands}
      (applies : dialect.Applies operator) (taken : operator.operands machine.stack = .ok operands) :
      Move dialect source machine (machine.emitKeeping operator operands).instructions
        (machine.emitKeeping operator operands).machine

/-- A move pushes the value of an operand token, or it emits an instruction and leaves its result on a part
of the stack. -/
theorem Move.push_or_emit {dialect : Dialect} {source : String → Prop} {machine after : Machine}
    {new : List Instruction} (move : Move dialect source machine new after) :
    (∃ token value, source token ∧ dialect.operators.get? token = none ∧
        Operator.assignmentMark ∉ token.toList ∧
        Value.classify dialect.registers dialect.defaultSize token = .ok value ∧
        new = [] ∧ after = { machine with stack := value :: machine.stack }) ∨
      ∃ operator operands below, operator.operands machine.stack = .ok operands ∧ below.Sublist machine.stack ∧
        new = (machine.emit operator operands below).instructions ∧
        after = (machine.emit operator operands below).machine := by
  cases move with
  | push given noOperator noMark classified =>
    exact Or.inl ⟨_, _, given, noOperator, noMark, classified, rfl, rfl⟩
  | apply applies taken =>
    have rest := (List.sublist_cons_self _ _).trans (Operator.operands_sublist taken)
    exact Or.inr ⟨_, _, _, taken, rest, rfl, rfl⟩
  | applyKeeping applies taken =>
    exact Or.inr ⟨_, _, _, taken, Operator.operands_sublist taken, rfl, rfl⟩

/-- A chain of moves, with the instructions it emits in order. -/
inductive Moves (dialect : Dialect) (source : String → Prop) : Machine → List Instruction → Machine → Prop where
  | refl (machine : Machine) : Moves dialect source machine [] machine
  | snoc {a b c : Machine} {earlier later : List Instruction} :
      Moves dialect source a earlier b → Move dialect source b later c → Moves dialect source a (earlier ++ later) c

namespace Moves
variable {dialect : Dialect} {source : String → Prop} {a b c : Machine} {earlier later : List Instruction}

theorem single (h : Move dialect source a later b) : Moves dialect source a later b :=
  .snoc (.refl a) h

theorem trans (h₁ : Moves dialect source a earlier b) (h₂ : Moves dialect source b later c) :
    Moves dialect source a (earlier ++ later) c := by
  induction h₂ with
  | refl => rw [List.append_nil]; exact h₁
  | snoc _ move ih => rw [← List.append_assoc]; exact .snoc ih move

/-- What every move keeps of the instructions so far and the machine, every chain of moves keeps. -/
theorem keeps {P : List Instruction → Machine → Prop}
    (keep : ∀ {before new m m'}, Move dialect source m new m' → P before m → P (before ++ new) m')
    (h : Moves dialect source a later b) {before : List Instruction} (hP : P before a) : P (before ++ later) b := by
  induction h with
  | refl => rw [List.append_nil]; exact hP
  | snoc _ move ih => rw [← List.append_assoc]; exact keep move ih

end Moves

/-- An instruction among some and a new one is one of them, with the same ones before it, or the new one,
with all of them before it. -/
theorem Instruction.old_or_new {before : List Instruction} {new found : Instruction} {index : Nat}
    (hfound : (before ++ [new])[index]? = some found) :
    (before[index]? = some found ∧ (before ++ [new]).take index = before.take index) ∨
      (found = new ∧ index = before.length ∧ (before ++ [new]).take index = before) := by
  rcases Nat.lt_or_ge index before.length with hlt | hge
  · rw [List.getElem?_append_left hlt] at hfound
    exact Or.inl ⟨hfound, List.take_append_of_le_length (Nat.le_of_lt hlt)⟩
  · rw [List.getElem?_append_right hge] at hfound
    obtain ⟨hindex, rfl⟩ : index - before.length = 0 ∧ new = found := by
      simpa [List.getElem?_singleton] using hfound
    have last : index = before.length := by omega
    exact Or.inr ⟨rfl, last, by rw [last, List.take_left' rfl]⟩

/-! ### Tokens, runs and histories are chains of moves -/

section
variable {dialect : Dialect} {source : String → Prop}

/-- Some work of the machine is a chain of moves. -/
def Step.IsMoves (dialect : Dialect) (source : String → Prop) (machine : Machine) (step : Step) : Prop :=
  Moves dialect source machine step.instructions step.machine

theorem Step.IsMoves.andThen {machine : Machine} {step : Step} {next : Machine → Step}
    (h : step.IsMoves dialect source machine) (hnext : (next step.machine).IsMoves dialect source step.machine) :
    (step.andThen next).IsMoves dialect source machine := by
  cases halted : step.halt? with
  | some halt => rw [Step.andThen_of_halt halted]; exact h
  | none => rw [Step.andThen_of_done halted]; exact h.trans hnext

namespace Machine

theorem apply_isMoves {operator : Operator} (applies : dialect.Applies operator) (machine : Machine) :
    (machine.apply operator).IsMoves dialect source machine := by
  cases taken : operator.operands machine.stack with
  | error problem => rw [apply_of_error taken]; exact .refl machine
  | ok operands => rw [apply_of_ok taken]; exact .single (.apply applies taken)

theorem applyAndAssign_isMoves {operator : Operator} (applies : dialect.Applies operator) (machine : Machine) :
    (machine.applyAndAssign dialect.assignment operator).IsMoves dialect source machine := by
  cases taken : operator.operands machine.stack with
  | error problem => rw [applyAndAssign_of_error taken]; exact .refl machine
  | ok operands =>
    rw [applyAndAssign_of_ok taken]
    exact Step.IsMoves.andThen (.single (.applyKeeping applies taken)) (apply_isMoves (Or.inl rfl) _)

theorem applyPieces_isMoves (composite : String) (pieces : List String) (machine : Machine) :
    (machine.applyPieces dialect composite pieces).IsMoves dialect source machine := by
  induction pieces generalizing machine with
  | nil => exact .refl machine
  | cons piece rest ih =>
    unfold applyPieces
    split
    · exact .refl machine
    · rename_i operator found
      exact (applyAndAssign_isMoves (Or.inr ⟨piece, found⟩) machine).andThen (ih _)

theorem read_isMoves {token : String} (given : source token) (machine : Machine) :
    (machine.read dialect token).IsMoves dialect source machine := by
  unfold read
  split
  · rename_i operator found
    exact apply_isMoves (Or.inr ⟨token, found⟩) machine
  · rename_i noOperator
    split
    · exact applyPieces_isMoves token _ machine
    · rename_i noMark
      unfold push
      split
      · exact .refl machine
      · rename_i value classified
        exact .single (.push given noOperator noMark classified)

/-- A run goes on after a token or ends with it; either way it begins with what the token did. -/
theorem run_cons (dialect : Dialect) (strict : Bool) (expression : String) (position : Nat) (token : String)
    (rest : List String) (machine : Machine) :
    let step := machine.read dialect token
    let run := machine.run dialect strict expression position (token :: rest)
    let onward := step.machine.run dialect strict expression (position + 1) rest
    (run.machine = step.machine ∧ run.instructions = step.instructions) ∨
      (run.machine = onward.machine ∧ run.instructions = step.instructions ++ onward.instructions) := by
  intro step run onward
  cases halted : (machine.read dialect token).halt? with
  | none => exact Or.inr (by simp [run, step, onward, run_of_done halted])
  | some halt =>
    cases halt with
    | tooManyDigits refusal => exact Or.inl (by simp [run, step, run_of_tooManyDigits halted, Run.ended])
    | problem problem =>
      cases strict with
      | true => exact Or.inl (by simp [run, step, run_of_strict halted, Run.ended])
      | false =>
        cases stops : problem.stops with
        | true => exact Or.inl (by simp [run, step, run_of_stop halted stops, Run.ended])
        | false => exact Or.inr (by simp [run, step, onward, run_of_skip halted stops])

theorem run_moves (strict : Bool) (expression : String) (position : Nat) {tokens : List String}
    (given : ∀ token ∈ tokens, source token) (machine : Machine) :
    Moves dialect source machine (machine.run dialect strict expression position tokens).instructions
      (machine.run dialect strict expression position tokens).machine := by
  induction tokens generalizing position machine with
  | nil => exact .refl machine
  | cons token rest ih =>
    have first : (machine.read dialect token).IsMoves dialect source machine :=
      read_isMoves (given token List.mem_cons_self) machine
    rcases run_cons dialect strict expression position token rest machine with ⟨hm, hi⟩ | ⟨hm, hi⟩
    · rw [hm, hi]; exact first
    · rw [hm, hi]
      exact first.trans (ih (position + 1) (fun t ht => given t (List.mem_cons_of_mem _ ht)) _)

end Machine

/-- What every move keeps holds after every history of expressions, if it held before. -/
theorem Lowerer.lowered_keeps (lowerer : Lowerer) {P : List Instruction → Machine → Prop}
    (keep : ∀ {before new m m'}, Move lowerer.dialect source m new m' → P before m → P (before ++ new) m')
    {expressions : List String} (given : ∀ expression ∈ expressions, ∀ token ∈ tokens expression, source token)
    (hP : P lowerer.instructions lowerer.machine) :
    P (lowerer.lowered expressions).instructions (lowerer.lowered expressions).machine := by
  induction expressions generalizing lowerer with
  | nil => exact hP
  | cons expression rest ih =>
    rw [lowered_cons]
    apply ih (lowerer.reach (lowerer.run expression)) keep fun e he => given e (List.mem_cons_of_mem _ he)
    exact (Machine.run_moves _ _ _ (given expression List.mem_cons_self) _).keeps keep hP

end
end EsilLowering
