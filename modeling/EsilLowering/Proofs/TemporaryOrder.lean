import EsilLowering.Proofs.Classification
import EsilLowering.Proofs.Moves
import EsilLowering.Proofs.TemporaryNames

/-! # The order of temporaries

Each temporary is the result of one instruction, is read only by later ones, and the temporaries on
the stack stand in the order they were handed out. An operator takes its operands off the top, and what
stays below them, with or without the first operand put back, is a part of the stack in its old order;
so the newest temporary may go on top. -/

namespace EsilLowering

/-- The temporaries handed out so far, in order. -/
def Temporaries.values (temporaries : Temporaries) : List Value :=
  (List.range temporaries.last).map fun index => .temporary ((index + 1 : Nat) : Int)

/-- What the instructions that are no assignments give, in order. -/
def resultsOf (instructions : List Instruction) : List Value :=
  (instructions.filter fun instruction => !instruction.isAssignment).map Instruction.destination

/-- From the top of a stack down, the temporaries on it have falling indices, from `last` to one. -/
def TemporariesFall (last : Nat) (stack : List Value) : Prop :=
  ∃ indices : List Nat, stack.filter (·.location == .temporary) = indices.map (fun index => .temporary (index : Int)) ∧
    indices.Pairwise (· > ·) ∧ ∀ index ∈ indices, 1 ≤ index ∧ index ≤ last

/-- Every temporary that an instruction reads is the destination of an earlier one. -/
def DefinedBeforeUse (instructions : List Instruction) : Prop :=
  ∀ index instruction, instructions[index]? = some instruction →
    ∀ value, value = instruction.first ∨ value = instruction.second → value.location = .temporary →
      ∃ earlier ∈ instructions.take index, earlier.destination = value

/-- How the instructions so far and the machine use temporaries. -/
structure TemporariesOrdered (instructions : List Instruction) (machine : Machine) : Prop where
  /-- The results are the temporaries handed out, one each and in order. -/
  results : resultsOf instructions = machine.temporaries.values
  assignments : ∀ instruction ∈ instructions, instruction.isAssignment = true → instruction.destination = .null
  seconds : ∀ instruction ∈ instructions, instruction.opcode.arity ≠ .binary → instruction.second = .null
  uses : DefinedBeforeUse instructions
  stack : TemporariesFall machine.temporaries.last machine.stack

/-! ### The stack -/

section
variable {last : Nat} {stack below : List Value} {value : Value}

theorem TemporariesFall.of_sublist (h : TemporariesFall last stack) (hsub : below.Sublist stack) :
    TemporariesFall last below := by
  obtain ⟨indices, hfilter, hfall, hbound⟩ := h
  have part := hsub.filter (·.location == .temporary)
  rw [hfilter] at part
  obtain ⟨fewer, hfewer, hmap⟩ := List.sublist_map_iff.mp part
  exact ⟨fewer, hmap, hfall.sublist hfewer, fun index hi => hbound index (hfewer.subset hi)⟩

theorem TemporariesFall.push_other (h : TemporariesFall last stack) (hvalue : value.location ≠ .temporary) :
    TemporariesFall last (value :: stack) := by
  obtain ⟨indices, hfilter, hfall, hbound⟩ := h
  exact ⟨indices, by rw [List.filter_cons_of_neg (by simpa using hvalue), hfilter], hfall, hbound⟩

theorem TemporariesFall.push_next (h : TemporariesFall last stack) :
    TemporariesFall (last + 1) (.temporary ((last + 1 : Nat) : Int) :: stack) := by
  obtain ⟨indices, hfilter, hfall, hbound⟩ := h
  refine ⟨(last + 1) :: indices, ?_, List.pairwise_cons.mpr ⟨fun index hi => ?_, hfall⟩, fun index hi => ?_⟩
  · rw [List.filter_cons_of_pos rfl, hfilter, List.map_cons]
  · have := (hbound index hi).2
    omega
  · rcases List.mem_cons.mp hi with rfl | hi
    · omega
    · have := hbound index hi
      omega

/-- Falling indices differ, and temporaries with different indices have different names. -/
theorem TemporariesFall.nodup (h : TemporariesFall last stack) : (stack.filter (·.location == .temporary)).Nodup := by
  obtain ⟨indices, hfilter, hfall, -⟩ := h
  rw [hfilter]
  exact List.pairwise_map.mpr (hfall.imp fun hgt heq => Nat.ne_of_gt hgt (Value.temporary_inj heq))

/-- An instruction may leave its result on any part of the stack. -/
theorem TemporariesFall.emit {machine : Machine} (h : TemporariesFall machine.temporaries.last machine.stack)
    (operator : Operator) (operands : Operands) (hbelow : below.Sublist machine.stack) :
    TemporariesFall (machine.emit operator operands below).machine.temporaries.last
      (machine.emit operator operands below).machine.stack := by
  rw [Machine.emit_eq]
  cases assigns : operator.isAssignment with
  | true =>
    simp only [Machine.destination, Machine.handed, assigns, if_true]
    exact (h.of_sublist hbelow).push_other (by simp [Value.null])
  | false =>
    simp only [Machine.destination, Machine.handed, assigns, Bool.false_eq_true, if_false]
    exact (h.of_sublist hbelow).push_next

theorem Temporaries.mem_values {temporaries : Temporaries} :
    value ∈ temporaries.values ↔
      ∃ index : Nat, 1 ≤ index ∧ index ≤ temporaries.last ∧ value = .temporary (index : Int) := by
  simp only [Temporaries.values, List.mem_map, List.mem_range]
  constructor
  · rintro ⟨index, hlt, rfl⟩
    exact ⟨index + 1, by omega, by omega, rfl⟩
  · rintro ⟨index, hpos, hle, rfl⟩
    exact ⟨index - 1, by omega, by rw [Nat.sub_add_cancel hpos]⟩

theorem Temporaries.values_next (last : Nat) :
    Temporaries.values ⟨last + 1⟩ = Temporaries.values ⟨last⟩ ++ [.temporary ((last + 1 : Nat) : Int)] := by
  simp [Temporaries.values, List.range_succ]

theorem Temporaries.values_nodup (temporaries : Temporaries) : temporaries.values.Nodup :=
  List.pairwise_map.mpr (List.nodup_range.imp fun hne heq => hne (Nat.succ.inj (Value.temporary_inj heq)))

theorem TemporariesFall.mem_values {temporaries : Temporaries} (h : TemporariesFall temporaries.last stack)
    (hmem : value ∈ stack) (hvalue : value.location = .temporary) : value ∈ temporaries.values := by
  obtain ⟨indices, hfilter, -, hbound⟩ := h
  have hfiltered : value ∈ stack.filter (·.location == .temporary) := List.mem_filter.mpr ⟨hmem, by simp [hvalue]⟩
  rw [hfilter] at hfiltered
  obtain ⟨index, hi, rfl⟩ := List.mem_map.mp hfiltered
  exact Temporaries.mem_values.mpr ⟨index, (hbound index hi).1, (hbound index hi).2, rfl⟩

end

/-! ### The instructions -/

theorem resultsOf_concat (before : List Instruction) (instruction : Instruction) :
    resultsOf (before ++ [instruction]) =
      resultsOf before ++ if instruction.isAssignment then [] else [instruction.destination] := by
  cases assigns : instruction.isAssignment <;> simp [resultsOf, assigns]

theorem DefinedBeforeUse.append {before : List Instruction} {instruction : Instruction} (h : DefinedBeforeUse before)
    (hnew : ∀ value, value = instruction.first ∨ value = instruction.second → value.location = .temporary →
      ∃ earlier ∈ before, earlier.destination = value) :
    DefinedBeforeUse (before ++ [instruction]) := by
  intro index found hfound value hmem hvalue
  rcases Instruction.old_or_new hfound with ⟨hold, htake⟩ | ⟨rfl, -, htake⟩
  · rw [htake]
    exact h index found hold value hmem hvalue
  · rw [htake]
    exact hnew value hmem hvalue

namespace TemporariesOrdered
variable {before : List Instruction} {machine : Machine}

/-- A temporary on the stack is the destination of an instruction. -/
theorem defined (h : TemporariesOrdered before machine) {value : Value} (hmem : value ∈ machine.stack)
    (hvalue : value.location = .temporary) : ∃ earlier ∈ before, earlier.destination = value := by
  have handed := h.stack.mem_values hmem hvalue
  rw [← h.results] at handed
  obtain ⟨earlier, hearlier, hdestination⟩ := List.mem_map.mp handed
  exact ⟨earlier, (List.mem_filter.mp hearlier).1, hdestination⟩

theorem operands_defined (h : TemporariesOrdered before machine) {operator : Operator} {operands : Operands}
    (taken : operator.operands machine.stack = .ok operands) (value : Value)
    (hoperand : value = operands.first ∨ value = operands.second) (hvalue : value.location = .temporary) :
    ∃ earlier ∈ before, earlier.destination = value := by
  rcases hoperand with rfl | rfl
  · exact h.defined ((Operator.operands_sublist taken).subset List.mem_cons_self) hvalue
  · rcases Operator.second_mem_or_null taken with hstack | hnull
    · exact h.defined hstack hvalue
    · rw [hnull] at hvalue
      cases hvalue

theorem push (h : TemporariesOrdered before machine) {value : Value} (hvalue : value.location ≠ .temporary) :
    TemporariesOrdered before { machine with stack := value :: machine.stack } where
  results := h.results
  assignments := h.assignments
  seconds := h.seconds
  uses := h.uses
  stack := h.stack.push_other hvalue

theorem emit (h : TemporariesOrdered before machine) {operator : Operator} {operands : Operands} {below : List Value}
    (taken : operator.operands machine.stack = .ok operands) (hbelow : below.Sublist machine.stack) :
    TemporariesOrdered (before ++ (machine.emit operator operands below).instructions)
      (machine.emit operator operands below).machine where
  results := by
    rw [Machine.emit_eq, resultsOf_concat, h.results]
    cases assigns : operator.isAssignment <;>
      simp [Instruction.isAssignment, Machine.destination, Machine.handed, assigns, Temporaries.values_next]
  assignments instruction hmem hassign := by
    rw [Machine.emit_eq] at hmem
    rcases List.mem_append.mp hmem with hold | hnew
    · exact h.assignments instruction hold hassign
    · rw [List.mem_singleton.mp hnew] at hassign ⊢
      exact if_pos hassign
  seconds instruction hmem harity := by
    rw [Machine.emit_eq] at hmem
    rcases List.mem_append.mp hmem with hold | hnew
    · exact h.seconds instruction hold harity
    · rw [List.mem_singleton.mp hnew] at harity ⊢
      exact Operator.second_eq_null taken harity
  uses := by
    rw [Machine.emit_eq]
    exact h.uses.append (h.operands_defined taken)
  stack := h.stack.emit operator operands hbelow

end TemporariesOrdered

theorem TemporariesOrdered.start : TemporariesOrdered [] {} where
  results := rfl
  assignments := by simp
  seconds := by simp
  uses := by simp [DefinedBeforeUse]
  stack := ⟨[], rfl, .nil, by simp⟩

theorem Move.keeps_order {dialect : Dialect} {source : String → Prop} {before new : List Instruction}
    {machine after : Machine} (move : Move dialect source machine new after)
    (h : TemporariesOrdered before machine) : TemporariesOrdered (before ++ new) after := by
  rcases move.push_or_emit with ⟨token, value, -, -, -, classified, rfl, rfl⟩ |
    ⟨operator, operands, below, taken, hbelow, rfl, rfl⟩
  · rw [List.append_nil]
    exact h.push (Value.classify_location classified)
  · exact h.emit taken hbelow

theorem Lowerer.lowered_ordered (architecture : String) (dialect : Dialect) (strict : Bool)
    (expressions : List String) :
    let lowerer := (fresh architecture dialect strict).lowered expressions
    TemporariesOrdered lowerer.instructions lowerer.machine := by
  have anywhere : ∀ expression ∈ expressions, ∀ token ∈ tokens expression, True := fun _ _ _ _ => trivial
  exact lowered_keeps (fresh architecture dialect strict) Move.keeps_order anywhere .start

/-- In every history, whatever the tables and however the expressions came out, the results of the
instructions are the temporaries handed out, in order and each once; what an instruction reads from a
temporary was written before; and the temporaries left on the stack fall from its top down, so each
stands there once. -/
theorem Lowerer.temporaries_ordered (architecture : String) (dialect : Dialect) (strict : Bool)
    (expressions : List String) :
    let lowerer := (fresh architecture dialect strict).lowered expressions
    TemporariesOrdered lowerer.instructions lowerer.machine ∧
      (lowerer.instructions.filter fun instruction => !instruction.isAssignment).length =
        lowerer.machine.temporaries.last ∧
      (resultsOf lowerer.instructions).Nodup ∧
      (lowerer.machine.stack.filter (·.location == .temporary)).Nodup := by
  have ordered : TemporariesOrdered _ _ := lowered_ordered architecture dialect strict expressions
  have count := congrArg List.length ordered.results
  rw [resultsOf, List.length_map, Temporaries.values, List.length_map, List.length_range] at count
  refine ⟨ordered, count, ?_, ordered.stack.nodup⟩
  rw [ordered.results]
  exact Temporaries.values_nodup _

end EsilLowering
