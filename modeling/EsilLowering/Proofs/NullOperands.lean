import EsilLowering.Proofs.Classification
import EsilLowering.Proofs.Conservation
import EsilLowering.Proofs.Expansion
import EsilLowering.Proofs.Moves

/-! # Null operands

An assignment has no result, and like any other result it is left on the stack: as null, which a later
operator may take for an operand. Nothing else brings null onto the stack, and no operand is filled in for
one that the stack does not hold. So an operand of two is null exactly if an assignment has put it on the
stack.

What has put a value on the stack is told beside the stack: each value has a source, which is kept as long as
the value stays and is noted by the instruction that takes it. -/

namespace EsilLowering

/-- What puts a value on the stack: an operand token, or the instruction at an index, whose result it is. -/
inductive Source where
  | token (token : String)
  | result (index : Nat)

namespace Source

/-- A source puts a value on the stack, the instructions so far being these. -/
def Gives (dialect : Dialect) (instructions : List Instruction) : Source → Value → Prop
  | .token name, value => Value.classify dialect.registers dialect.defaultSize name = .ok value
  | .result index, value => ∃ instruction, instructions[index]? = some instruction ∧ value = instruction.destination

/-- A source is an instruction that assigns. -/
def IsAssignment (instructions : List Instruction) (source : Source) : Prop :=
  ∃ index assignment, source = .result index ∧ instructions[index]? = some assignment ∧
    assignment.isAssignment = true

end Source

/-- A machine goes from move to move, and beside it the sources of the values on its stack, the top first.
Each instruction notes the sources of what it takes, in the order of its operands. -/
inductive Sourced (dialect : Dialect) : List Instruction → Machine → List Source → List (List Source) → Prop where
  | start : Sourced dialect [] {} [] []
  | push {instructions : List Instruction} {machine : Machine} {sources : List Source} {takings : List (List Source)}
      {token : String} {value : Value} (sourced : Sourced dialect instructions machine sources takings)
      (classified : Value.classify dialect.registers dialect.defaultSize token = .ok value) :
      Sourced dialect instructions { machine with stack := value :: machine.stack } (.token token :: sources) takings
  | apply {instructions : List Instruction} {machine : Machine} {sources : List Source} {takings : List (List Source)}
      {operator : Operator} {operands : Operands} (sourced : Sourced dialect instructions machine sources takings)
      (taken : operator.operands machine.stack = .ok operands) :
      Sourced dialect (instructions ++ (machine.emit operator operands operands.below).instructions)
        (machine.emit operator operands operands.below).machine
        (.result instructions.length :: sources.drop operator.takes)
        (takings ++ [(sources.take operator.takes).reverse])
  | applyKeeping {instructions : List Instruction} {machine : Machine} {sources : List Source}
      {takings : List (List Source)} {operator : Operator} {operands : Operands}
      (sourced : Sourced dialect instructions machine sources takings)
      (taken : operator.operands machine.stack = .ok operands) :
      Sourced dialect (instructions ++ (machine.emitKeeping operator operands).instructions)
        (machine.emitKeeping operator operands).machine
        (.result instructions.length :: sources.drop (operator.takes - 1))
        (takings ++ [(sources.take operator.takes).reverse])

/-- Values are what their sources give, those on the stack and those that the instructions took. Instructions
that assign, and no others, have null for a result. -/
structure SourcesGive (dialect : Dialect) (instructions : List Instruction) (machine : Machine)
    (sources : List Source) (takings : List (List Source)) : Prop where
  stack : List.Forall₂ (Source.Gives dialect instructions) sources machine.stack
  length : takings.length = instructions.length
  taken : ∀ index instruction, instructions[index]? = some instruction → ∃ taking, takings[index]? = some taking ∧
    List.Forall₂ (Source.Gives dialect (instructions.take index)) taking instruction.taken
  results : ∀ instruction ∈ instructions, instruction.destination.isNull = instruction.isAssignment

/-! ### What sources give -/

section
variable {dialect : Dialect} {instructions more : List Instruction} {value : Value} {source : Source}

theorem Source.Gives.mono (gives : source.Gives dialect instructions value) :
    source.Gives dialect (instructions ++ more) value := by
  cases source with
  | token token => exact gives
  | result index =>
    obtain ⟨instruction, found, rfl⟩ := gives
    exact ⟨instruction, List.getElem?_append_left (List.getElem?_eq_some_iff.mp found).1 ▸ found, rfl⟩

/-- A value is null exactly if it is the result of an assignment. -/
theorem Source.Gives.isNull_iff (gives : source.Gives dialect instructions value)
    (results : ∀ instruction ∈ instructions, instruction.destination.isNull = instruction.isAssignment) :
    value.isNull = true ↔ source.IsAssignment instructions := by
  cases source with
  | token token =>
    have notNull : ¬value.isNull = true := Bool.eq_false_iff.mp (Value.classify_isNull gives)
    exact iff_of_false notNull fun ⟨_, _, same, _⟩ => nomatch same
  | result index =>
    obtain ⟨instruction, found, rfl⟩ := gives
    rw [results instruction (List.mem_of_getElem? found)]
    constructor
    · exact fun assigns => ⟨index, instruction, rfl, found, assigns⟩
    · rintro ⟨_, assignment, ⟨⟩, found', assigns⟩
      cases found.symm.trans found'
      exact assigns

end

/-! ### What a move keeps -/

section
variable {dialect : Dialect} {instructions : List Instruction} {machine : Machine} {operator : Operator}
  {operands : Operands} {sources : List Source} {takings : List (List Source)}

/-- Only an assignment has null for a result. -/
theorem Machine.destination_isNull (machine : Machine) (operator : Operator) :
    (machine.destination operator).isNull = operator.isAssignment := by
  unfold destination
  cases operator.isAssignment <;> rfl

/-- An instruction takes the top of the stack, the last operand first. -/
theorem Instruction.taken_of_operands (taken : operator.operands machine.stack = .ok operands) (destination : Value) :
    Instruction.taken ⟨operator, destination, operands.first, operands.second⟩ =
      (machine.stack.take operator.takes).reverse := by
  rcases Operator.operands_eq_ok.mp taken with ⟨binary, hstack⟩ | ⟨single | single, -, hstack⟩ <;>
    simp [Instruction.taken, Operator.takes, Arity.toNat, *]

theorem Operator.kept_of_operands (taken : operator.operands machine.stack = .ok operands) :
    operands.first :: operands.below = machine.stack.drop (operator.takes - 1) := by
  rcases Operator.operands_counted taken with ⟨two, hstack⟩ | ⟨one, -, hstack⟩
  · rw [hstack, takes, two]
    rfl
  · rw [hstack, takes, one]
    rfl

namespace SourcesGive

/-- A new instruction with what it takes comes behind the old ones with what they took. -/
theorem taken_concat (h : SourcesGive dialect instructions machine sources takings) {new : Instruction}
    {taking : List Source} (gives : List.Forall₂ (Source.Gives dialect instructions) taking new.taken) {index : Nat}
    {found : Instruction} (hfound : (instructions ++ [new])[index]? = some found) :
    ∃ noted, (takings ++ [taking])[index]? = some noted ∧
      List.Forall₂ (Source.Gives dialect ((instructions ++ [new]).take index)) noted found.taken := by
  rcases Instruction.old_or_new hfound with ⟨hold, htake⟩ | ⟨rfl, rfl, htake⟩
  · obtain ⟨noted, old, gave⟩ := h.taken index found hold
    rw [htake, List.getElem?_append_left (List.getElem?_eq_some_iff.mp old).1]
    exact ⟨noted, old, gave⟩
  · rw [htake, ← h.length]
    exact ⟨taking, List.getElem?_concat_length, gives⟩

theorem emit (h : SourcesGive dialect instructions machine sources takings)
    (taken : operator.operands machine.stack = .ok operands) {kept : List Source} {below : List Value}
    (gives : List.Forall₂ (Source.Gives dialect instructions) kept below) :
    SourcesGive dialect (instructions ++ (machine.emit operator operands below).instructions)
      (machine.emit operator operands below).machine (.result instructions.length :: kept)
      (takings ++ [(sources.take operator.takes).reverse]) := by
  rw [Machine.emit_eq]
  let new : Instruction := ⟨operator, machine.destination operator, operands.first, operands.second⟩
  have last : List.Forall₂ (Source.Gives dialect instructions) (sources.take operator.takes).reverse new.taken := by
    rw [Instruction.taken_of_operands taken]
    exact List.forall₂_reverse_iff.mpr (List.forall₂_take _ h.stack)
  have result : (Source.result instructions.length).Gives dialect (instructions ++ [new]) new.destination :=
    ⟨new, List.getElem?_concat_length, rfl⟩
  refine ⟨.cons result (gives.imp fun _ _ => Source.Gives.mono), ?_, fun _ _ => h.taken_concat last, ?_⟩
  · simp [h.length]
  · intro found member
    rcases List.mem_append.mp member with hold | hnew
    · exact h.results found hold
    · rw [List.mem_singleton.mp hnew]
      exact machine.destination_isNull operator

end SourcesGive

theorem Sourced.gives (sourced : Sourced dialect instructions machine sources takings) :
    SourcesGive dialect instructions machine sources takings := by
  induction sourced with
  | start => exact ⟨.nil, rfl, fun index found hfound => (nomatch hfound), List.forall_mem_nil _⟩
  | push sourced classified ih => exact { ih with stack := .cons classified ih.stack }
  | apply sourced taken ih =>
    refine ih.emit taken ?_
    rw [Operator.below_of_operands taken]
    exact List.forall₂_drop _ ih.stack
  | applyKeeping sourced taken ih =>
    refine ih.emit taken ?_
    rw [Operator.kept_of_operands taken]
    exact List.forall₂_drop _ ih.stack

theorem Move.keeps_sourced {source : String → Prop} {new : List Instruction} {after : Machine}
    (move : Move dialect source machine new after)
    (h : ∃ sources takings, Sourced dialect instructions machine sources takings) :
    ∃ sources takings, Sourced dialect (instructions ++ new) after sources takings := by
  obtain ⟨sources, takings, sourced⟩ := h
  cases move with
  | push given noOperator noMark classified =>
    rw [List.append_nil]
    exact ⟨_, _, sourced.push classified⟩
  | apply applies taken => exact ⟨_, _, sourced.apply taken⟩
  | applyKeeping applies taken => exact ⟨_, _, sourced.applyKeeping taken⟩

end

namespace Lowerer

/-- A binary instruction may have null for an operand: what an assignment left on the stack. -/
theorem null_operand_taken :
    let lowerer := (fresh Profile.defaultName Profile.builtin.toDialect false).lowered ["rax,rbx,=,rcx,+"]
    ∃ instruction ∈ lowerer.instructions, instruction.opcode.arity = .binary ∧ instruction.first.isNull = true ∧
      lowerer.instructions.map Instruction.text = ["rax = rbx", "tmp_1 =  + rcx"] := by
  decide +kernel

/-- In every history, whatever the tables, each value on the stack comes from an operand token or from an
instruction, whose result it is, and so do the two operands of a binary instruction, from an instruction before
it. Such a value is null exactly if it comes from an assignment. -/
theorem null_operands_are_results (architecture : String) (dialect : Dialect) (strict : Bool)
    (expressions : List String) :
    let lowerer := (fresh architecture dialect strict).lowered expressions
    ∃ sources takings, Sourced dialect lowerer.instructions lowerer.machine sources takings ∧
      List.Forall₂ (fun source value => source.Gives dialect lowerer.instructions value ∧
        (value.isNull = true ↔ source.IsAssignment lowerer.instructions)) sources lowerer.machine.stack ∧
      ∀ index instruction, lowerer.instructions[index]? = some instruction → instruction.opcode.arity = .binary →
        let earlier := lowerer.instructions.take index
        ∃ first second, takings[index]? = some [first, second] ∧
          first.Gives dialect earlier instruction.first ∧ second.Gives dialect earlier instruction.second ∧
          (instruction.first.isNull = true ↔ first.IsAssignment earlier) ∧
          (instruction.second.isNull = true ↔ second.IsAssignment earlier) := by
  intro lowerer
  have anywhere : ∀ expression ∈ expressions, ∀ token ∈ tokens expression, True := fun _ _ _ _ => trivial
  have kept : ∃ sources takings, Sourced dialect lowerer.instructions lowerer.machine sources takings :=
    lowered_keeps (fresh architecture dialect strict)
      (P := fun instructions machine => ∃ sources takings, Sourced dialect instructions machine sources takings)
      Move.keeps_sourced anywhere ⟨[], [], .start⟩
  obtain ⟨sources, takings, sourced⟩ := kept
  have gives := sourced.gives
  refine ⟨sources, takings, sourced, gives.stack.imp fun source value gave => ⟨gave, gave.isNull_iff gives.results⟩, ?_⟩
  intro index instruction found binary earlier
  have results : ∀ instruction ∈ earlier, instruction.destination.isNull = instruction.isAssignment :=
    fun instruction member => gives.results instruction (List.mem_of_mem_take member)
  obtain ⟨taking, noted, gave⟩ := gives.taken index instruction found
  rw [Instruction.taken, if_pos binary] at gave
  obtain _ | ⟨first, _ | ⟨second, ⟨⟩⟩⟩ := gave
  exact ⟨_, _, noted, first, second, first.isNull_iff results, second.isNull_iff results⟩

end Lowerer
end EsilLowering
