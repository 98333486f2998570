import EsilLowering.Proofs.Faults
import Mathlib.Data.List.Forall2

/-! # Registers and widths do not show

Two lowerers with the same operators go the same way over an expression whenever the values on their
stacks have the same names. What a register is, how wide it is and what a constant stands for never
decides what is done, what is noted or how an instruction reads; it only comes to stand in the operands.

The two are compared by a relation between values that implies the same name and that operand tokens
keep. Every step keeps it between the two stacks, place by place. -/

namespace EsilLowering

/-! ### Values that read alike -/

/-- A relation between values that read alike: those of the same name, or fewer, but at least each value
to itself and the values of one operand token, whatever its classification goes by. -/
structure Value.ReadAlike (alike : Value → Value → Prop) : Prop where
  refl : ∀ value, alike value value
  name : ∀ {value other}, alike value other → other.name = value.name
  classified : ∀ {registers registers' : Table Int} {size size' : Int} {token : String} {value other : Value},
    classify registers size token = .ok value → classify registers' size' token = .ok other → alike value other

/-- All but the width, the place and the number of the values is the same. -/
structure Value.SameText (value other : Value) : Prop where
  name : other.name = value.name
  typeset : other.typeset = value.typeset

theorem Value.readAlike_name : ReadAlike fun value other => other.name = value.name where
  refl _ := rfl
  name h := h
  classified h h' := (classify_name h').trans (classify_name h).symm

theorem Value.readAlike_sameText : ReadAlike SameText where
  refl _ := ⟨rfl, rfl⟩
  name h := h.name
  classified h h' := ⟨readAlike_name.classified h h', (classify_typeset h').trans (classify_typeset h).symm⟩

/-- Instructions of one operator with the same destination and operands that read alike. -/
structure Instruction.Alike (alike : Value → Value → Prop) (instruction other : Instruction) : Prop where
  opcode : other.opcode = instruction.opcode
  destination : other.destination = instruction.destination
  first : alike instruction.first other.first
  second : alike instruction.second other.second

/-- Machines that have handed out as many temporaries, with stacks that read alike. -/
structure Machine.Alike (alike : Value → Value → Prop) (machine other : Machine) : Prop where
  temporaries : other.temporaries = machine.temporaries
  stack : List.Forall₂ alike machine.stack other.stack

/-- Steps that were cut short by the same, or not at all, and otherwise read alike. -/
structure Step.Alike (alike : Value → Value → Prop) (step other : Step) : Prop where
  halt? : other.halt? = step.halt?
  machine : step.machine.Alike alike other.machine
  instructions : List.Forall₂ (Instruction.Alike alike) step.instructions other.instructions

/-- Runs that ended in the same way at the same token and noted the same, and otherwise read alike. -/
structure Run.Alike (alike : Value → Value → Prop) (run other : Run) : Prop where
  ending : other.ending = run.ending
  tokensConsumed : other.tokensConsumed = run.tokensConsumed
  diagnostics : other.diagnostics = run.diagnostics
  machine : run.machine.Alike alike other.machine
  instructions : List.Forall₂ (Instruction.Alike alike) run.instructions other.instructions

section
variable {alike : Value → Value → Prop}

theorem Instruction.Alike.text (reads : Value.ReadAlike alike) {instruction other : Instruction}
    (h : instruction.Alike alike other) : other.text = instruction.text := by
  simp only [Instruction.text, h.opcode, h.destination, reads.name h.first, reads.name h.second]

theorem Step.Alike.andThen {step other : Step} {next next' : Machine → Step} (h : step.Alike alike other)
    (hnext : step.machine.Alike alike other.machine → (next step.machine).Alike alike (next' other.machine)) :
    (step.andThen next).Alike alike (other.andThen next') := by
  cases halted : step.halt? with
  | some halt =>
    rw [Step.andThen_of_halt halted, Step.andThen_of_halt (h.halt?.trans halted)]
    exact h
  | none =>
    rw [Step.andThen_of_done halted, Step.andThen_of_done (h.halt?.trans halted)]
    have onward := hnext h.machine
    exact ⟨onward.halt?, onward.machine, List.rel_append h.instructions onward.instructions⟩

/-! ### Tokens -/

section
variable {machine other : Machine} {operator assignment : Operator}

/-- The depth of the stack decides whether operands are missing, and both stacks have the same. -/
theorem Operator.operands_alike (reads : Value.ReadAlike alike) {stack stack' : List Value}
    (h : List.Forall₂ alike stack stack') (operator : Operator) :
    (∃ problem, operator.operands stack = .error problem ∧ operator.operands stack' = .error problem) ∨
    ∃ operands operands', operator.operands stack = .ok operands ∧ operator.operands stack' = .ok operands' ∧
      alike operands.first operands'.first ∧ alike operands.second operands'.second ∧
      List.Forall₂ alike operands.below operands'.below := by
  cases taken : operator.operands stack with
  | error problem =>
    refine Or.inl ⟨problem, rfl, ?_⟩
    rw [operands_eq_error] at taken ⊢
    rwa [← h.length_eq]
  | ok operands =>
    refine Or.inr ⟨operands, ?_⟩
    rcases operands_eq_ok.mp taken with ⟨hbinary, rfl⟩ | ⟨hsingle, hnull, rfl⟩
    · obtain ⟨second, _, hsecond, hrest, rfl⟩ := List.forall₂_cons_left_iff.mp h
      obtain ⟨first, below, hfirst, hbelow, rfl⟩ := List.forall₂_cons_left_iff.mp hrest
      exact ⟨⟨first, second, below⟩, rfl, operands_eq_ok.mpr (Or.inl ⟨hbinary, rfl⟩), hfirst, hsecond, hbelow⟩
    · obtain ⟨first, below, hfirst, hbelow, rfl⟩ := List.forall₂_cons_left_iff.mp h
      exact ⟨⟨first, .null, below⟩, rfl, operands_eq_ok.mpr (Or.inr ⟨hsingle, rfl, rfl⟩), hfirst,
        hnull ▸ reads.refl _, hbelow⟩

theorem Machine.refuse_alike (h : machine.Alike alike other) (problem : Problem) :
    (machine.refuse problem).Alike alike (other.refuse problem) :=
  ⟨rfl, h, .nil⟩

theorem Machine.emit_alike (reads : Value.ReadAlike alike) (h : machine.Alike alike other) (operator : Operator)
    {operands operands' : Operands} {below below' : List Value} (hfirst : alike operands.first operands'.first)
    (hsecond : alike operands.second operands'.second) (hbelow : List.Forall₂ alike below below') :
    (machine.emit operator operands below).Alike alike (other.emit operator operands' below') := by
  have destination : other.destination operator = machine.destination operator := by
    rw [Machine.destination, h.temporaries]
    rfl
  have handed : other.handed operator = machine.handed operator := by
    rw [Machine.handed, h.temporaries]
    rfl
  rw [emit_eq, emit_eq, destination, handed]
  exact ⟨rfl, ⟨rfl, .cons (reads.refl _) hbelow⟩, .cons ⟨rfl, rfl, hfirst, hsecond⟩ .nil⟩

theorem Machine.apply_alike (reads : Value.ReadAlike alike) (h : machine.Alike alike other) (operator : Operator) :
    (machine.apply operator).Alike alike (other.apply operator) := by
  rcases operator.operands_alike reads h.stack with ⟨problem, missing, missing'⟩ |
    ⟨operands, operands', taken, taken', hfirst, hsecond, hbelow⟩
  · rw [apply_of_error missing, apply_of_error missing']
    exact refuse_alike h problem
  · rw [apply_of_ok taken, apply_of_ok taken']
    exact emit_alike reads h operator hfirst hsecond hbelow

theorem Machine.applyAndAssign_alike (reads : Value.ReadAlike alike) (h : machine.Alike alike other)
    (assignment operator : Operator) :
    (machine.applyAndAssign assignment operator).Alike alike (other.applyAndAssign assignment operator) := by
  rcases operator.operands_alike reads h.stack with ⟨problem, missing, missing'⟩ |
    ⟨operands, operands', taken, taken', hfirst, hsecond, hbelow⟩
  · rw [applyAndAssign_of_error missing, applyAndAssign_of_error missing']
    exact refuse_alike h problem
  · rw [applyAndAssign_of_ok taken, applyAndAssign_of_ok taken']
    exact (emit_alike reads h operator hfirst hsecond (.cons hfirst hbelow)).andThen
      fun kept => apply_alike reads kept assignment

end

section
variable {dialect dialect' : Dialect} {machine other : Machine}

theorem Dialect.assignment_congr (operators : dialect'.operators = dialect.operators) :
    dialect'.assignment = dialect.assignment := by
  rw [assignment, assignment, operators]

theorem Machine.applyPieces_alike (reads : Value.ReadAlike alike) (operators : dialect'.operators = dialect.operators)
    (h : machine.Alike alike other) (composite : String) (pieces : List String) :
    (machine.applyPieces dialect composite pieces).Alike alike (other.applyPieces dialect' composite pieces) := by
  induction pieces generalizing machine other with
  | nil => exact ⟨rfl, h, .nil⟩
  | cons piece rest ih =>
    unfold applyPieces
    rw [operators, Dialect.assignment_congr operators]
    cases dialect.operators.get? piece with
    | none => exact refuse_alike h _
    | some operator => exact (applyAndAssign_alike reads h dialect.assignment operator).andThen ih

theorem Machine.push_alike (reads : Value.ReadAlike alike) (h : machine.Alike alike other) {token : String}
    (short : ∀ count, ¬Numeral.TooLong token count) :
    (machine.push dialect token).Alike alike (other.push dialect' token) := by
  obtain ⟨value, classified⟩ := Value.exists_classify dialect.registers dialect.defaultSize short
  obtain ⟨value', classified'⟩ := Value.exists_classify dialect'.registers dialect'.defaultSize short
  rw [push_of_ok classified, push_of_ok classified']
  exact ⟨rfl, ⟨h.temporaries, .cons (reads.classified classified classified') h.stack⟩, .nil⟩

theorem Machine.read_alike (reads : Value.ReadAlike alike) (operators : dialect'.operators = dialect.operators)
    (h : machine.Alike alike other) {token : String} (short : ∀ count, ¬Numeral.TooLong token count) :
    (machine.read dialect token).Alike alike (other.read dialect' token) := by
  cases found : dialect.operators.get? token with
  | some operator =>
    rw [read_of_operator found, read_of_operator (operators ▸ found)]
    exact apply_alike reads h operator
  | none =>
    by_cases mark : Operator.assignmentMark ∈ token.toList
    · rw [read_of_composite found mark, read_of_composite (operators ▸ found) mark]
      exact applyPieces_alike reads operators h token (compositePieces token)
    · rw [read_of_operand found mark, read_of_operand (operators ▸ found) mark]
      exact push_alike reads h short

/-! ### Runs -/

theorem Run.Alike.after {run run' : Run} {step step' : Step} (h : run.Alike alike run') (hstep : step.Alike alike step')
    (noted : List Diagnostic) (events events' : List Event) :
    (run.after step noted events).Alike alike (run'.after step' noted events') where
  ending := h.ending
  tokensConsumed := h.tokensConsumed
  diagnostics := congrArg (noted ++ ·) h.diagnostics
  machine := h.machine
  instructions := List.rel_append hstep.instructions h.instructions

theorem Machine.run_alike (reads : Value.ReadAlike alike) (operators : dialect'.operators = dialect.operators)
    (h : machine.Alike alike other) {strict : Bool} {expression : String} {position : Nat} {tokens : List String}
    (short : ∀ token ∈ tokens, ∀ count, ¬Numeral.TooLong token count) :
    (machine.run dialect strict expression position tokens).Alike alike
      (other.run dialect' strict expression position tokens) := by
  induction tokens generalizing position machine other with
  | nil => exact ⟨rfl, rfl, rfl, h, .nil⟩
  | cons token rest ih =>
    obtain ⟨hshort, others⟩ := List.forall_mem_cons.mp short
    have first : (machine.read dialect token).Alike alike (other.read dialect' token) :=
      read_alike reads operators h hshort
    -- How a token ends a run and what is noted of it depend on its halt alone, which is the same in both.
    have same : (other.read dialect' token).ending? strict { expression, position, token } =
        (machine.read dialect token).ending? strict { expression, position, token } := by
      simp only [Step.ending?, first.halt?]
    have noted : (other.read dialect' token).noted strict { expression, position, token } =
        (machine.read dialect token).noted strict { expression, position, token } := by
      simp only [Step.noted, first.halt?]
    cases ends : (machine.read dialect token).ending? strict { expression, position, token } with
    | some ending =>
      rw [run_of_ending ends, run_of_ending (same.trans ends), noted]
      have ended : (Run.ended (machine.read dialect token) position ending).Alike alike
          (Run.ended (other.read dialect' token) position ending) := ⟨rfl, rfl, rfl, first.machine, .nil⟩
      exact ended.after first _ _ _
    | none =>
      rw [run_of_onward ends, run_of_onward (same.trans ends), noted]
      exact (ih first.machine others).after first _ _ _

end
end

/-! ### Lowering an expression -/

theorem Run.Alike.status {alike : Value → Value → Prop} {run other : Run} (h : run.Alike alike other) :
    other.status = run.status := by
  rw [Run.status, Run.status, h.ending, h.diagnostics]

/-- Lists of the same images, place by place. -/
theorem forall₂_iff_map_eq {α β : Type} {f : α → β} {one two : List α} :
    List.Forall₂ (fun a b => f b = f a) one two ↔ two.map f = one.map f := by
  have places : List.Forall₂ (fun a b => f a = f b) one two ↔ one.map f = two.map f := by
    rw [← List.forall₂_map_right_iff, ← List.forall₂_map_left_iff, List.forall₂_eq_eq_eq]
  rw [eq_comm, ← places]
  exact ⟨fun h => h.imp fun _ _ => Eq.symm, fun h => h.imp fun _ _ => Eq.symm⟩

theorem Value.sameText_of_map {one two : List Value} (names : two.map name = one.map name)
    (typesets : two.map typeset = one.map typeset) : List.Forall₂ SameText one two := by
  have both : two.map (fun value => (value.name, value.typeset)) = one.map fun value => (value.name, value.typeset) := by
    rw [← List.zip_map', ← List.zip_map', names, typesets]
  exact (forall₂_iff_map_eq.mpr both).imp fun _ _ h => ⟨congrArg Prod.fst h, congrArg Prod.snd h⟩

namespace Lowerer
variable {lowerer other : Lowerer} {expression : String}

theorem run_alike {alike : Value → Value → Prop} (reads : Value.ReadAlike alike)
    (operators : other.dialect.operators = lowerer.dialect.operators)
    (temporaries : other.machine.temporaries = lowerer.machine.temporaries)
    (stack : List.Forall₂ alike lowerer.machine.stack other.machine.stack)
    (short : ∀ token ∈ tokens expression, ∀ count, ¬Numeral.TooLong token count) :
    ({ lowerer with strict := false }.run expression).Alike alike ({ other with strict := false }.run expression) :=
  Machine.run_alike reads operators ⟨temporaries, stack⟩ short

/-- Let two lenient lowerers have the same operators, as many temporaries handed out and values of the same
names on their stacks, and let no token of an expression be a numeral that is too long. Whatever else
differs in their tables, widths and values, both lower the expression to the same status, the same
diagnostics and instructions that read the same, with the same operators and destinations, and leave
values of the same names. Only in the width, the place and the number of its operands an instruction of
the one can differ from that of the other. -/
theorem registers_and_widths_hidden (lowerer other : Lowerer) (expression : String)
    (operators : other.dialect.operators = lowerer.dialect.operators)
    (temporaries : other.machine.temporaries = lowerer.machine.temporaries)
    (names : other.machine.stack.map Value.name = lowerer.machine.stack.map Value.name)
    (short : ∀ token ∈ tokens expression, ∀ count, ¬Numeral.TooLong token count) :
    let one := { lowerer with strict := false }.lower expression
    let two := { other with strict := false }.lower expression
    ∃ lowering told : Lowering, one.result = .ok lowering ∧ two.result = .ok told ∧
      told.status = lowering.status ∧ told.tokensConsumed = lowering.tokensConsumed ∧
      told.diagnostics = lowering.diagnostics ∧
      told.instructions.map Instruction.text = lowering.instructions.map Instruction.text ∧
      List.Forall₂ (Instruction.Alike fun value value' => value'.name = value.name) lowering.instructions
        told.instructions ∧
      two.lowerer.machine.temporaries = one.lowerer.machine.temporaries ∧
      two.lowerer.machine.stack.map Value.name = one.lowerer.machine.stack.map Value.name ∧
      (other.machine.stack.map Value.typeset = lowerer.machine.stack.map Value.typeset →
        List.Forall₂ (Instruction.Alike Value.SameText) lowering.instructions told.instructions ∧
        List.Forall₂ Value.SameText one.lowerer.machine.stack two.lowerer.machine.stack) := by
  intro one two
  have alike := run_alike Value.readAlike_name operators temporaries (forall₂_iff_map_eq.mpr names) short
  have oneReached : one.lowerer = _ := lower_lowerer _ _
  have twoReached : two.lowerer = _ := lower_lowerer _ _
  have readable (lowerer : Lowerer) : ∀ token ∈ tokens expression, ∀ refusal,
      ¬lowerer.dialect.Unreadable token refusal := fun token hmem refusal h => short token hmem _ h.2.2
  rw [oneReached, twoReached]
  refine ⟨_, _, exists_result rfl (readable _), exists_result rfl (readable _), alike.status, alike.tokensConsumed,
    alike.diagnostics, ?_, alike.instructions, alike.machine.temporaries, forall₂_iff_map_eq.mp alike.machine.stack,
    fun typesets => ?_⟩
  · exact forall₂_iff_map_eq.mp (alike.instructions.imp fun _ _ h => h.text Value.readAlike_name)
  · have same := run_alike Value.readAlike_sameText operators temporaries (Value.sameText_of_map names typesets) short
    exact ⟨same.instructions, same.machine.stack⟩

/-- What is a register for the one is a constant or unknown for the other. -/
theorem registers_and_widths_hidden_example :
    let lowerer : Lowerer :=
      { architecture := Profile.defaultName
        dialect := Profile.builtin.toDialect
        machine := ⟨[{ name := "rax", size := 64, location := .register }], ⟨3⟩⟩ }
    let other : Lowerer :=
      { architecture := "toy"
        dialect := { registers := .ofList [("5", 8), ("x", 16)], defaultSize := -1 }
        machine := ⟨[{ name := "rax", size := 0, location := .unknown, literal := 9 }], ⟨3⟩⟩ }
    let expression := "5,+=,*,x,==,y=,rbx"
    let one := { lowerer with strict := false }.lower expression
    let two := { other with strict := false }.lower expression
    other.dialect.operators = lowerer.dialect.operators ∧
      other.machine.temporaries = lowerer.machine.temporaries ∧
      other.machine.stack.map Value.name = lowerer.machine.stack.map Value.name ∧
      (∀ token ∈ tokens expression, ∀ count, ¬Numeral.TooLong token count) ∧
      (one.result.toOption.map fun lowering => lowering.instructions) ≠
        (two.result.toOption.map fun lowering => lowering.instructions) ∧
      ∃ lowering told : Lowering, one.result = .ok lowering ∧ two.result = .ok told ∧
        told.status = lowering.status ∧ told.tokensConsumed = lowering.tokensConsumed ∧
        told.diagnostics = lowering.diagnostics ∧
        told.instructions.map Instruction.text = lowering.instructions.map Instruction.text := by
  intro lowerer other expression one two
  have short : ∀ token ∈ tokens expression, ∀ count, ¬Numeral.TooLong token count := by
    have few : ∀ token ∈ tokens expression, token.toList.length ≤ Numeral.digitLimit := by decide +kernel
    exact fun token hmem count h => Nat.not_lt.mpr (few token hmem) h.lt_length
  obtain ⟨lowering, told, hone, htwo, hstatus, hconsumed, hdiagnostics, htext, -⟩ :=
    registers_and_widths_hidden lowerer other expression rfl rfl rfl short
  exact ⟨rfl, rfl, rfl, short, by decide +kernel, lowering, told, hone, htwo, hstatus, hconsumed, hdiagnostics, htext⟩

end Lowerer
end EsilLowering
