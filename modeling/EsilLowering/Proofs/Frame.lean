import EsilLowering.Proofs.Preservation

/-! # What lies deeper does not matter

Work that comes to its end on a stack comes to the same end on a higher one, whatever lies beneath, and
after any number of temporaries more. The temporaries that it hands out are then the later ones. An
operand that only has the name of a temporary keeps it, and so does a temporary from before. -/

namespace EsilLowering

/-- The value with its index raised by `offset`, if it is a temporary with an index above `known`. -/
def Value.renumbered (known offset : Nat) (value : Value) : Value :=
  match value.index? with
  | some index => if known < index then .temporary ((index + offset : Nat) : Int) else value
  | none => value

/-- The instruction with its values renumbered. -/
def Instruction.renumbered (known offset : Nat) (instruction : Instruction) : Instruction :=
  { instruction with
    destination := instruction.destination.renumbered known offset
    first := instruction.first.renumbered known offset
    second := instruction.second.renumbered known offset }

/-- The operands renumbered, with more beneath. -/
def Operands.framed (known offset : Nat) (below : List Value) (operands : Operands) : Operands :=
  { first := operands.first.renumbered known offset
    second := operands.second.renumbered known offset
    below := operands.below.map (.renumbered known offset) ++ below }

/-- The machine renumbered, with more beneath. -/
def Machine.framed (known offset : Nat) (below : List Value) (machine : Machine) : Machine :=
  { stack := machine.stack.map (.renumbered known offset) ++ below
    temporaries := ⟨machine.temporaries.last + offset⟩ }

section
variable {known offset : Nat} {below : List Value}

/-! ### Values -/

theorem Value.renumbered_of_known {value : Value}
    (h : ∀ index : Nat, value = .temporary (index : Int) → index ≤ known) : value.renumbered known offset = value := by
  unfold renumbered
  split
  · rename_i index hindex
    exact if_neg (Nat.not_lt.mpr (h index (index?_eq_some.mp hindex)))
  · rfl

theorem Value.renumbered_of_lasting {value : Value} (h : value.location ≠ .temporary) :
    value.renumbered known offset = value :=
  renumbered_of_known fun _ heq => absurd (congrArg Value.location heq) h

theorem Value.renumbered_null : Value.null.renumbered known offset = .null :=
  renumbered_of_lasting (by decide)

theorem Value.renumbered_of_new {index : Nat} (h : known < index) :
    (temporary (index : Int)).renumbered known offset = .temporary ((index + offset : Nat) : Int) := by
  simp only [renumbered, index?_eq_some.mpr rfl, if_pos h]

/-! ### One instruction -/

section
variable {machine : Machine} {operator assignment : Operator} {operands : Operands} {stack : List Value}

theorem Operator.operands_framed (taken : operator.operands stack = .ok operands) :
    operator.operands (stack.map (.renumbered known offset) ++ below) = .ok (operands.framed known offset below) := by
  rcases Operator.operands_eq_ok.mp taken with ⟨hbinary, rfl⟩ | ⟨hsingle, hnull, rfl⟩
  · exact Operator.operands_eq_ok.mpr (Or.inl ⟨hbinary, rfl⟩)
  · refine Operator.operands_eq_ok.mpr (Or.inr ⟨hsingle, ?_, rfl⟩)
    rw [Operands.framed, hnull, Value.renumbered_null]

theorem Machine.destination_framed (h : known ≤ machine.temporaries.last) (operator : Operator) :
    (machine.framed known offset below).destination operator =
      (machine.destination operator).renumbered known offset := by
  unfold destination
  cases operator.isAssignment with
  | true => exact Value.renumbered_null.symm
  | false =>
    have new : (Value.temporary ((machine.temporaries.last + 1 : Nat) : Int)).renumbered known offset =
        .temporary ((machine.temporaries.last + 1 + offset : Nat) : Int) :=
      Value.renumbered_of_new (Nat.lt_succ_of_le h)
    rw [if_neg Bool.false_ne_true, if_neg Bool.false_ne_true, new, Nat.add_right_comm]
    rfl

theorem Machine.handed_framed (machine : Machine) (operator : Operator) :
    (machine.framed known offset below).handed operator = ⟨(machine.handed operator).last + offset⟩ := by
  unfold handed
  cases operator.isAssignment with
  | true => rfl
  | false => simp [framed, Nat.add_right_comm]

/-! ### Work that is framed -/

/-- Work that is done on the higher stack as on the other, with what it gives renumbered. -/
structure Step.Frames (known offset : Nat) (below : List Value) (step higher : Step) : Prop where
  done : higher.halt? = none
  machine : higher.machine = step.machine.framed known offset below
  instructions : higher.instructions = step.instructions.map (.renumbered known offset)
  /-- The temporaries handed out by the work are not among those known before it. -/
  known_le : known ≤ step.machine.temporaries.last

theorem Step.Frames.andThen {step higher : Step} {next : Machine → Step} (h : step.Frames known offset below higher)
    (done : step.halt? = none)
    (hnext : (next step.machine).Frames known offset below (next (step.machine.framed known offset below))) :
    (step.andThen next).Frames known offset below (higher.andThen next) := by
  rw [Step.andThen_of_done done, Step.andThen_of_done h.done, h.machine, h.instructions]
  exact ⟨hnext.done, hnext.machine, by simp [hnext.instructions], hnext.known_le⟩

theorem Machine.emit_frames (h : known ≤ machine.temporaries.last) (operator : Operator) (operands : Operands)
    (beneath : List Value) :
    (machine.emit operator operands beneath).Frames known offset below
      ((machine.framed known offset below).emit operator (operands.framed known offset below)
        (beneath.map (.renumbered known offset) ++ below)) := by
  rw [emit_eq, emit_eq, destination_framed h, handed_framed]
  refine ⟨rfl, rfl, rfl, ?_⟩
  unfold handed
  split
  · exact h
  · exact Nat.le_succ_of_le h

theorem Machine.apply_frames (h : known ≤ machine.temporaries.last) (done : (machine.apply operator).halt? = none) :
    (machine.apply operator).Frames known offset below ((machine.framed known offset below).apply operator) := by
  obtain ⟨operands, taken⟩ := operands_of_done done
  rw [apply_of_ok taken, apply_of_ok (Operator.operands_framed taken)]
  exact emit_frames h operator operands operands.below

theorem Machine.applyAndAssign_frames (h : known ≤ machine.temporaries.last)
    (done : (machine.applyAndAssign assignment operator).halt? = none) :
    (machine.applyAndAssign assignment operator).Frames known offset below
      ((machine.framed known offset below).applyAndAssign assignment operator) := by
  cases taken : operator.operands machine.stack with
  | error problem => simp [applyAndAssign_of_error taken, refuse] at done
  | ok operands =>
    rw [applyAndAssign_of_ok taken, Step.andThen_of_done emitKeeping_halt?] at done
    rw [applyAndAssign_of_ok taken, applyAndAssign_of_ok (Operator.operands_framed taken)]
    have kept : (machine.emitKeeping operator operands).Frames known offset below
        ((machine.framed known offset below).emitKeeping operator (operands.framed known offset below)) :=
      emit_frames h operator operands (operands.first :: operands.below)
    exact kept.andThen emitKeeping_halt? (apply_frames kept.known_le done)

end

/-! ### Tokens -/

section
variable {dialect : Dialect} {machine : Machine}

theorem Machine.applyPieces_frames {composite : String} {pieces : List String}
    (h : known ≤ machine.temporaries.last) (done : (machine.applyPieces dialect composite pieces).halt? = none) :
    (machine.applyPieces dialect composite pieces).Frames known offset below
      ((machine.framed known offset below).applyPieces dialect composite pieces) := by
  induction pieces generalizing machine with
  | nil => exact ⟨rfl, rfl, rfl, h⟩
  | cons piece rest ih =>
    unfold applyPieces at done ⊢
    cases found : dialect.operators.get? piece with
    | none => simp [found, refuse] at done
    | some operator =>
      simp only [found] at done ⊢
      cases assigned : (machine.applyAndAssign dialect.assignment operator).halt? with
      | some halt => simp [Step.andThen_of_halt assigned, assigned] at done
      | none =>
        rw [Step.andThen_of_done assigned] at done
        have first : (machine.applyAndAssign dialect.assignment operator).Frames known offset below
            ((machine.framed known offset below).applyAndAssign dialect.assignment operator) :=
          applyAndAssign_frames h assigned
        exact first.andThen assigned (ih first.known_le done)

/-- What an operand token puts on the stack is no temporary, so it is not renumbered. -/
theorem Machine.push_frames {token : String} (h : known ≤ machine.temporaries.last)
    (done : (machine.push dialect token).halt? = none) :
    (machine.push dialect token).Frames known offset below
      ((machine.framed known offset below).push dialect token) := by
  obtain ⟨value, classified⟩ := classified_of_done done
  have same : value.renumbered known offset = value :=
    Value.renumbered_of_lasting (Value.classify_location classified)
  rw [push_of_ok classified, push_of_ok classified]
  exact ⟨rfl, by simp [framed, same], rfl, h⟩

theorem Machine.read_frames {token : String} (h : known ≤ machine.temporaries.last)
    (done : (machine.read dialect token).halt? = none) :
    (machine.read dialect token).Frames known offset below
      ((machine.framed known offset below).read dialect token) := by
  cases found : dialect.operators.get? token with
  | some operator =>
    rw [read_of_operator found] at done
    rw [read_of_operator found, read_of_operator found]
    exact apply_frames h done
  | none =>
    by_cases mark : Operator.assignmentMark ∈ token.toList
    · rw [read_of_composite found mark] at done
      rw [read_of_composite found mark, read_of_composite found mark]
      exact applyPieces_frames h done
    · rw [read_of_operand found mark] at done
      rw [read_of_operand found mark, read_of_operand found mark]
      exact push_frames h done

end

/-! ### Runs -/

/-- A run without problems that reads its tokens on the higher stack as on the other. -/
structure Run.Frames (known offset : Nat) (below : List Value) (run higher : Run) : Prop where
  completed : higher.ending = .completed
  clean : higher.diagnostics = []
  machine : higher.machine = run.machine.framed known offset below
  instructions : higher.instructions = run.instructions.map (.renumbered known offset)
  tokensConsumed : higher.tokensConsumed = run.tokensConsumed

theorem Machine.run_frames {dialect : Dialect} {strict : Bool} (higherStrict : Bool) {expression : String}
    {position : Nat} {tokens : List String} {machine : Machine} (h : known ≤ machine.temporaries.last)
    (completed : (machine.run dialect strict expression position tokens).ending = .completed)
    (clean : (machine.run dialect strict expression position tokens).diagnostics = []) :
    (machine.run dialect strict expression position tokens).Frames known offset below
      ((machine.framed known offset below).run dialect higherStrict expression position tokens) := by
  induction tokens generalizing position machine with
  | nil => exact ⟨rfl, rfl, rfl, rfl, rfl⟩
  | cons token rest ih =>
    have done := Machine.run_cons_completed completed clean
    have first : (machine.read dialect token).Frames known offset below
        ((machine.framed known offset below).read dialect token) := read_frames h done
    rw [run_of_done done] at completed clean
    have onward := ih first.known_le completed clean
    rw [run_of_done done, run_of_done first.done, first.machine]
    refine ⟨onward.completed, onward.clean, onward.machine, ?_, onward.tokensConsumed⟩
    rw [Run.instructions_after, Run.instructions_after, first.instructions, onward.instructions, List.map_append]

end

namespace Lowerer

/-- Let a lowerer lower an expression without any problem, and no temporary on its stack be later than those
it has handed out. Another one with the same dialect, more beneath its stack and `offset` more temporaries
handed out then lowers the expression in the same way, also if it is strict and the first is not. Its
instructions and its stack are those of the first, except that each temporary which the first has handed
out for them has an index greater by `offset`, and that what was beneath the stack still is. -/
theorem lower_framed {lowerer higher : Lowerer} {offset : Nat} {below : List Value} {expression : String}
    (dialect : higher.dialect = lowerer.dialect)
    (known : ∀ index : Nat, .temporary (index : Int) ∈ lowerer.machine.stack →
      index ≤ lowerer.machine.temporaries.last)
    (stack : higher.machine.stack = lowerer.machine.stack ++ below)
    (handed : higher.machine.temporaries.last = lowerer.machine.temporaries.last + offset)
    (succeeded : (lowerer.lower expression).succeeded = true) :
    let last := lowerer.machine.temporaries.last
    ∃ lowering, (lowerer.lower expression).result = .ok lowering ∧ lowering.status = .success ∧
      (higher.lower expression).result =
        .ok { lowering with instructions := lowering.instructions.map (.renumbered last offset) } ∧
      (higher.lower expression).lowerer.machine.stack =
        (lowerer.lower expression).lowerer.machine.stack.map (.renumbered last offset) ++ below ∧
      (higher.lower expression).lowerer.machine.temporaries.last =
        (lowerer.lower expression).lowerer.machine.temporaries.last + offset := by
  intro last
  obtain ⟨completed, clean⟩ := run_of_succeeded succeeded
  have status : (lowerer.run expression).status = .success := by simp [Run.status, completed, clean]
  have start : higher.machine = lowerer.machine.framed last offset below := by
    have same : lowerer.machine.stack.map (.renumbered last offset) = lowerer.machine.stack :=
      (List.map_congr_left fun value hmem =>
        Value.renumbered_of_known fun index heq => known index (heq ▸ hmem)).trans (List.map_id _)
    rw [Machine.framed, same, ← stack, ← handed]
  have frames : (lowerer.run expression).Frames last offset below (higher.run expression) := by
    unfold run
    rw [dialect, start]
    exact Machine.run_frames higher.strict (Nat.le_refl last) completed clean
  have ends : ∀ fault, (lowerer.run expression).ending ≠ .faulted fault := by simp [completed]
  have higherEnds : ∀ fault, (higher.run expression).ending ≠ .faulted fault := by simp [frames.completed]
  rw [lower_of_ended ends, lower_of_ended higherEnds]
  refine ⟨summary expression (lowerer.run expression), rfl, status, ?_, ?_, ?_⟩
  · have higherStatus : (higher.run expression).status = .success := by
      simp [Run.status, frames.completed, frames.clean]
    simp only [summary, status, higherStatus, clean, frames.clean, frames.instructions, frames.tokensConsumed]
  · exact congrArg Machine.stack frames.machine
  · exact congrArg (fun machine => machine.temporaries.last) frames.machine

/-- The first temporary and an operand that looks like the second keep their names. -/
theorem lower_framed_example :
    let dialect := Profile.builtin.toDialect
    let lowerer : Lowerer :=
      { architecture := Profile.defaultName, dialect, machine := ⟨[.temporary 1], ⟨1⟩⟩ }
    let below : List Value := [.temporary 3, .null]
    let higher : Lowerer :=
      { architecture := Profile.defaultName, dialect, strict := true,
        machine := ⟨[.temporary 1, .temporary 3, .null], ⟨5⟩⟩ }
    let expression := "tmp_2,+,rax,+=,tmp_3,!"
    higher.dialect = lowerer.dialect ∧
      (∀ index : Nat, .temporary (index : Int) ∈ lowerer.machine.stack → index ≤ lowerer.machine.temporaries.last) ∧
      higher.machine.stack = lowerer.machine.stack ++ below ∧
      higher.machine.temporaries.last = lowerer.machine.temporaries.last + 4 ∧
      (lowerer.lower expression).succeeded = true ∧
      (lowerer.lower expression).lowerer.machine.stack.map Value.name = ["tmp_4", ""] ∧
      (higher.lower expression).lowerer.machine.stack.map Value.name = ["tmp_8", "", "tmp_3", ""] ∧
      ((higher.lower expression).result.toOption.map fun lowering => lowering.instructions.map Instruction.text) =
        some ["tmp_6 = tmp_1 + tmp_2", "tmp_7 = tmp_6 + rax", "tmp_6 = tmp_7", "tmp_8 = tmp_3 ! "] ∧
      ∃ lowering, (lowerer.lower expression).result = .ok lowering ∧ lowering.status = .success ∧
        (higher.lower expression).result =
          .ok { lowering with instructions := lowering.instructions.map (.renumbered 1 4) } ∧
        (higher.lower expression).lowerer.machine.stack =
          (lowerer.lower expression).lowerer.machine.stack.map (.renumbered 1 4) ++ below ∧
        (higher.lower expression).lowerer.machine.temporaries.last =
          (lowerer.lower expression).lowerer.machine.temporaries.last + 4 := by
  intro dialect lowerer below higher expression
  have known (index : Nat) (hmem : .temporary (index : Int) ∈ lowerer.machine.stack) :
      index ≤ lowerer.machine.temporaries.last :=
    Nat.le_of_eq (Value.temporary_inj (List.mem_singleton.mp hmem))
  have succeeded : (lowerer.lower expression).succeeded = true := by decide +kernel
  exact ⟨rfl, known, rfl, rfl, succeeded, by decide +kernel, by decide +kernel, by decide +kernel,
    lower_framed rfl known rfl rfl succeeded⟩

end Lowerer
end EsilLowering
