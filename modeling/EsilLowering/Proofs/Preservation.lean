import EsilLowering.Proofs.Evaluation
import EsilLowering.Proofs.Pieces
import EsilLowering.Proofs.TemporaryOrder

/-! # Lowering preserves meaning

Executing the instructions of a lowerer leaves the store that a calculator leaves on the tokens, and
each value on the lowerer's stack stands for the item on the calculator's. The invariant beside this
is that temporaries fall from the top of the stack: the result of an instruction is then new to the
stack, and a temporary that is assigned to is not on it any more, so no value that can still be read is
overwritten. -/

namespace EsilLowering
universe u

section
variable {last : Nat} {stack : List Value} {value : Value}

theorem TemporariesFall.top_once (h : TemporariesFall last (value :: stack)) (hvalue : value.location = .temporary) :
    value ∉ stack := by
  have once := h.nodup
  rw [List.filter_cons_of_pos (by simp [hvalue])] at once
  intro hmem
  exact (List.nodup_cons.mp once).1 (List.mem_filter.mpr ⟨hmem, by simp [hvalue]⟩)

theorem TemporariesFall.next_notMem (h : TemporariesFall last stack) :
    .temporary ((last + 1 : Nat) : Int) ∉ stack :=
  h.push_next.top_once rfl

end

/-- Assignment is the same whichever way it is written: what the table has under its symbol assigns, and
an operator that assigns takes two operands. -/
structure Dialect.AssignsPlainly (dialect : Dialect) : Prop where
  pairs : ∀ entry ∈ dialect.operators.entries, entry.2.isAssignment = true → entry.2.arity = .binary
  plain : ∀ operator ∈ dialect.operators.get? Operator.assignmentSymbol, operator.isAssignment = true

namespace Dialect.AssignsPlainly
variable {dialect : Dialect}

theorem binary (h : dialect.AssignsPlainly) {token : String} {operator : Operator}
    (found : dialect.operators.get? token = some operator) (assigns : operator.isAssignment = true) :
    operator.arity = .binary :=
  h.pairs _ (Table.mem_entries_of_get? found) assigns

theorem assignment (h : dialect.AssignsPlainly) :
    dialect.assignment.isAssignment = true ∧ dialect.assignment.arity = .binary := by
  unfold Dialect.assignment
  cases found : dialect.operators.get? Operator.assignmentSymbol with
  | none => exact ⟨rfl, rfl⟩
  | some operator => exact ⟨h.plain operator found, h.binary found (h.plain operator found)⟩

end Dialect.AssignsPlainly

theorem Profile.builtin_assignsPlainly : builtin.toDialect.AssignsPlainly where
  pairs := by decide +kernel
  plain := by decide +kernel

/-! ### One instruction -/

/-- A machine and the memory its instructions were executed over agree with a calculator. -/
structure Agrees {α : Type u} (machine : Machine) (memory : Memory α) (calculator : Calculator α) : Prop where
  store : memory.store = calculator.store
  stack : List.Forall₂ memory.Denotes machine.stack calculator.stack
  fall : TemporariesFall machine.temporaries.last machine.stack

section
variable {α : Type u} {I : Interpretation α} {memory : Memory α} {machine : Machine} {calculator : Calculator α}

theorem denotes_below {below : List Value} {items : List (Item α)} (h : List.Forall₂ memory.Denotes below items)
    {place : Value} (untouched : place.location = .temporary → place ∉ below) (content : α) :
    List.Forall₂ (memory.write place content).Denotes below items := by
  induction h with
  | nil => exact .nil
  | cons head _ ih =>
    exact .cons
      (head.write (fun hplace heq => untouched hplace (heq ▸ List.mem_cons_self)) content)
      (ih fun hplace hmem => untouched hplace (List.mem_cons_of_mem _ hmem))

theorem execute_result {operator : Operator} (noAssignment : operator.isAssignment = false) {first second : Value}
    {content : α} (computed : ∀ destination, memory.compute? I ⟨operator, destination, first, second⟩ = some content)
    (fall : TemporariesFall machine.temporaries.last machine.stack) {below : List Value} {items : List (Item α)}
    (hbelow : List.Forall₂ memory.Denotes below items) (hsub : below.Sublist machine.stack) :
    ∃ after, memory.execute I ⟨operator, machine.destination operator, first, second⟩ = some after ∧
      after.store = memory.store ∧ after.Denotes (machine.destination operator) (.result content) ∧
      List.Forall₂ after.Denotes below items := by
  have new : machine.destination operator = .temporary ((machine.temporaries.last + 1 : Nat) : Int) := by
    simp [Machine.destination, noAssignment]
  refine ⟨memory.write (machine.destination operator) content, ?_, ?_, ?_, denotes_below hbelow (fun _ hmem => ?_) _⟩
  · simp [Memory.execute, Instruction.isAssignment, noAssignment, computed]
  · rw [new, memory.write_temporary rfl]
  · rw [new, memory.write_temporary rfl]
    exact ⟨rfl, Function.update_self ..⟩
  · rw [new] at hmem
    exact fall.next_notMem (hsub.subset hmem)

theorem execute_assignment {operator : Operator} (assigns : operator.isAssignment = true) {first second : Value}
    {target source : Item α} (hfirst : first.Places target) (hsecond : memory.Denotes second source)
    (fall : TemporariesFall machine.temporaries.last machine.stack) {below : List Value} {items : List (Item α)}
    (hbelow : List.Forall₂ memory.Denotes below items) (hsub : (first :: below).Sublist machine.stack) :
    ∃ after, memory.execute I ⟨operator, machine.destination operator, first, second⟩ = some after ∧
      after.store = target.assign (source.content memory.store) memory.store ∧
      after.Denotes (machine.destination operator) (.cell .null) ∧ List.Forall₂ after.Denotes below items := by
  have null : machine.destination operator = .null := if_pos assigns
  -- The first operand came off the stack, so if it is a temporary, no value below is overwritten with it.
  refine ⟨memory.write first (source.content memory.store), ?_, hfirst.write_store memory _, null,
    denotes_below hbelow (fun htemporary => (fall.of_sublist hsub).top_once htemporary) _⟩
  simp [Memory.execute, Instruction.isAssignment, assigns, hsecond.read]

/-- The instruction of an operator does to the memory what evaluating the operator does to the
calculator. -/
theorem Agrees.emit (agrees : Agrees machine memory calculator) {operator : Operator} {operands : Operands}
    (taken : operator.operands machine.stack = .ok operands)
    (pairs : operator.isAssignment = true → operator.arity = .binary) :
    ∃ target result items store after, calculator.evaluate I operator = some (target, ⟨store, result :: items⟩) ∧
      memory.execute I ⟨operator, machine.destination operator, operands.first, operands.second⟩ = some after ∧
      operands.first.Places target ∧ after.store = store ∧ after.Denotes (machine.destination operator) result ∧
      List.Forall₂ after.Denotes operands.below items := by
  obtain ⟨hstore, hstack, fall⟩ := agrees
  obtain ⟨store, stack⟩ := calculator
  cases hstore
  have hsub := Operator.operands_sublist taken
  rcases Operator.operands_eq_ok.mp taken with ⟨hbinary, htop⟩ | ⟨hsingle, -, htop⟩
  · rw [htop] at hstack
    obtain ⟨source, _, hsecond, hrest, rfl⟩ := List.forall₂_cons_left_iff.mp hstack
    obtain ⟨target, items, hfirst, hbelow, rfl⟩ := List.forall₂_cons_left_iff.mp hrest
    cases assigns : operator.isAssignment with
    | true =>
      obtain ⟨after, executed, hafter, hnull, hitems⟩ :=
        execute_assignment (I := I) assigns hfirst.places hsecond fall hbelow hsub
      exact ⟨target, _, items, _, after, by simp [Calculator.evaluate, hbinary, assigns], executed, hfirst.places,
        hafter, hnull, hitems⟩
    | false =>
      have computed (destination : Value) :
          memory.compute? I ⟨operator, destination, operands.first, operands.second⟩ =
            some (I.ofTwo operator (target.content memory.store) (source.content memory.store)) := by
        simp [Memory.compute?, hbinary, hfirst.read, hsecond.read]
      obtain ⟨after, executed, hafter, hresult, hitems⟩ :=
        execute_result assigns computed fall hbelow ((List.sublist_cons_self _ _).trans hsub)
      exact ⟨target, _, items, _, after, by simp [Calculator.evaluate, hbinary, assigns], executed, hfirst.places,
        hafter, hresult, hitems⟩
  -- What takes a single value is no assignment; its second operand is null and never read.
  · have noAssignment : operator.isAssignment = false := by
      cases assigns : operator.isAssignment with
      | false => rfl
      | true => rcases hsingle with h | h <;> cases h.symm.trans (pairs assigns)
    rw [htop] at hstack
    obtain ⟨target, items, hfirst, hbelow, rfl⟩ := List.forall₂_cons_left_iff.mp hstack
    have computed (destination : Value) :
        memory.compute? I ⟨operator, destination, operands.first, operands.second⟩ =
          some (I.ofOne operator (target.content memory.store)) := by
      rcases hsingle with h | h <;> simp [Memory.compute?, h, hfirst.read]
    obtain ⟨after, executed, hafter, hresult, hitems⟩ :=
      execute_result noAssignment computed fall hbelow ((List.sublist_cons_self _ _).trans hsub)
    refine ⟨target, _, items, _, after, ?_, executed, hfirst.places, hafter, hresult, hitems⟩
    rcases hsingle with h | h <;> simp [Calculator.evaluate, h]

/-! ### Work that meets -/

/-- Executing the instructions and evaluating come to a memory and a calculator that the machine agrees
with. -/
def Meets (I : Interpretation α) (memory : Memory α) (instructions : List Instruction) (machine : Machine)
    (evaluated : Option (Calculator α)) : Prop :=
  ∃ after calculator, instructions.foldlM (Memory.execute I) memory = some after ∧ evaluated = some calculator ∧
    Agrees machine after calculator

theorem Meets.bind {earlier later : List Instruction} {between reached : Machine} {evaluated : Option (Calculator α)}
    {onward : Calculator α → Option (Calculator α)} (h : Meets I memory earlier between evaluated)
    (hnext : ∀ {after calculator}, Agrees between after calculator → Meets I after later reached (onward calculator)) :
    Meets I memory (earlier ++ later) reached (evaluated >>= onward) := by
  obtain ⟨middle, calculator, hexecuted, rfl, agrees⟩ := h
  obtain ⟨after, final, hlater, honward, hagrees⟩ := hnext agrees
  refine ⟨after, final, ?_, honward, hagrees⟩
  rw [List.foldlM_append, hexecuted]
  exact hlater

theorem Agrees.apply (agrees : Agrees machine memory calculator) {operator : Operator}
    (pairs : operator.isAssignment = true → operator.arity = .binary) (done : (machine.apply operator).halt? = none) :
    Meets I memory (machine.apply operator).instructions (machine.apply operator).machine
      ((calculator.evaluate I operator).map Prod.snd) := by
  cases taken : operator.operands machine.stack with
  | error problem => simp [Machine.apply_of_error taken, Machine.refuse] at done
  | ok operands =>
    obtain ⟨target, result, items, store, after, evaluated, executed, -, hstore, hresult, hitems⟩ :=
      agrees.emit (I := I) taken pairs
    have hsub := (List.sublist_cons_self _ _).trans (Operator.operands_sublist taken)
    refine ⟨after, ⟨store, result :: items⟩, ?_, by rw [evaluated]; rfl, ?_⟩
    · rw [Machine.apply_of_ok taken, Machine.emit_eq]
      simp [executed]
    · have fall := agrees.fall.emit operator operands hsub
      rw [Machine.apply_of_ok taken]
      rw [Machine.emit_eq] at fall ⊢
      exact ⟨hstore, .cons hresult hitems, fall⟩

/-- The value put back beneath the result is the place of the first operand, and assigning to it is what
the second instruction does. -/
theorem Agrees.applyAndAssign (agrees : Agrees machine memory calculator) {dialect : Dialect}
    (plain : dialect.AssignsPlainly) {operator : Operator}
    (pairs : operator.isAssignment = true → operator.arity = .binary)
    (done : (machine.applyAndAssign dialect.assignment operator).halt? = none) :
    Meets I memory (machine.applyAndAssign dialect.assignment operator).instructions
      (machine.applyAndAssign dialect.assignment operator).machine (calculator.evaluateAndAssign I operator) := by
  obtain ⟨assigns, hbinary⟩ := plain.assignment
  cases taken : operator.operands machine.stack with
  | error problem => simp [Machine.applyAndAssign_of_error taken, Machine.refuse] at done
  | ok operands =>
    obtain ⟨target, result, items, store, middle, evaluated, executed, hplaces, rfl, hresult, hitems⟩ :=
      agrees.emit (I := I) taken pairs
    have fall : TemporariesFall (machine.emitKeeping operator operands).machine.temporaries.last
        (machine.emitKeeping operator operands).machine.stack :=
      agrees.fall.emit operator operands (Operator.operands_sublist taken)
    have first : (machine.emitKeeping operator operands).instructions =
        [⟨operator, machine.destination operator, operands.first, operands.second⟩] := by
      rw [Machine.emitKeeping, Machine.emit_eq]
    have back : dialect.assignment.operands (machine.emitKeeping operator operands).machine.stack =
        .ok ⟨operands.first, machine.destination operator, operands.below⟩ := by
      rw [Machine.emitKeeping, Machine.emit_eq]
      exact Operator.operands_eq_ok.mpr (Or.inl ⟨hbinary, rfl⟩)
    -- The value put back stands above those below in the old order, so the assignment finds it there only once.
    have hsub := Operator.operands_sublist back
    obtain ⟨after, assigned, hstore, hnull, hbelow⟩ :=
      execute_assignment (I := I) assigns hplaces hresult fall hitems hsub
    have fallen := fall.emit dialect.assignment ⟨operands.first, machine.destination operator, operands.below⟩
      ((List.sublist_cons_self _ _).trans hsub)
    rw [Machine.applyAndAssign_of_assigned taken back]
    rw [Machine.emit_eq] at fallen ⊢
    refine ⟨after, ⟨target.assign (result.content middle.store) middle.store, .cell .null :: items⟩, ?_, ?_,
      ⟨hstore, .cons hnull hbelow, fallen⟩⟩
    · simp [first, executed, assigned]
    · simp [Calculator.evaluateAndAssign, evaluated]

/-! ### Tokens -/

theorem Agrees.pieces {dialect : Dialect} (plain : dialect.AssignsPlainly) {pieces : List String}
    {emitted : List Instruction} {reached : Machine} (completes : Completes dialect pieces machine emitted reached)
    (agrees : Agrees machine memory calculator) :
    Meets I memory emitted reached (pieces.foldlM (Calculator.readPiece I dialect) calculator) := by
  induction completes generalizing memory calculator with
  | nil machine => exact ⟨memory, calculator, rfl, rfl, agrees⟩
  | @cons piece rest operator machine reached later found assigned onward ih =>
    have reads : calculator.readPiece I dialect piece = calculator.evaluateAndAssign I operator := by
      simp [Calculator.readPiece, found]
    rw [List.foldlM_cons, reads]
    exact (agrees.applyAndAssign plain (plain.binary found) assigned).bind fun h => ih h

theorem Agrees.read (agrees : Agrees machine memory calculator) {dialect : Dialect} (plain : dialect.AssignsPlainly)
    {token : String} (done : (machine.read dialect token).halt? = none) :
    Meets I memory (machine.read dialect token).instructions (machine.read dialect token).machine
      (calculator.read I dialect token) := by
  cases found : dialect.operators.get? token with
  | some operator =>
    rw [Machine.read_of_operator found] at done ⊢
    simp only [Calculator.read, found]
    exact agrees.apply (plain.binary found) done
  | none =>
    by_cases mark : Operator.assignmentMark ∈ token.toList
    · rw [Machine.read_of_composite found mark] at done ⊢
      simp only [Calculator.read, found, if_pos mark]
      exact agrees.pieces plain (Machine.applyPieces_completes done)
    · rw [Machine.read_of_operand found mark] at done ⊢
      simp only [Calculator.read, found, if_neg mark]
      unfold Machine.push at done ⊢
      cases classified : Value.classify dialect.registers dialect.defaultSize token with
      | error refusal => simp [classified] at done
      | ok value =>
        have lasting := Value.classify_location classified
        exact ⟨memory, ⟨calculator.store, .cell ⟨value, lasting⟩ :: calculator.stack⟩, rfl, dif_pos lasting,
          agrees.store, .cons rfl agrees.stack, agrees.fall.push_other lasting⟩

/-! ### Runs and histories -/

/-- A run that reads its tokens to the end and notes no problem begins with a token that did its work. -/
theorem Machine.run_cons_completed {dialect : Dialect} {strict : Bool} {expression token : String} {position : Nat}
    {rest : List String}
    (completed : (machine.run dialect strict expression position (token :: rest)).ending = .completed)
    (clean : (machine.run dialect strict expression position (token :: rest)).diagnostics = []) :
    (machine.read dialect token).halt? = none := by
  cases halted : (machine.read dialect token).halt? with
  | none => rfl
  | some halt =>
    cases halt with
    | tooManyDigits refusal => simp [run_of_tooManyDigits halted, Run.ended] at completed
    | problem problem =>
      cases strict with
      | true => simp [run_of_strict halted, Run.ended] at completed
      | false =>
        cases stops : problem.stops with
        | true => simp [run_of_stop halted stops] at clean
        | false => simp [run_of_skip halted stops] at clean

theorem Agrees.run (agrees : Agrees machine memory calculator) {dialect : Dialect} (plain : dialect.AssignsPlainly)
    {strict : Bool} {expression : String} {position : Nat} {tokens : List String}
    (completed : (machine.run dialect strict expression position tokens).ending = .completed)
    (clean : (machine.run dialect strict expression position tokens).diagnostics = []) :
    Meets I memory (machine.run dialect strict expression position tokens).instructions
      (machine.run dialect strict expression position tokens).machine
      (tokens.foldlM (Calculator.read I dialect) calculator) := by
  induction tokens generalizing position machine memory calculator with
  | nil => exact ⟨memory, calculator, rfl, rfl, agrees⟩
  | cons token rest ih =>
    have done := Machine.run_cons_completed completed clean
    rw [Machine.run_of_done done] at completed clean ⊢
    exact (agrees.read plain done).bind fun h => ih h completed clean

/-- Whether an answer is a lowering in which every token did its work. -/
def Answer.succeeded (answer : Answer) : Bool :=
  match answer.result with
  | .ok lowering => lowering.ok
  | .error _ => false

namespace Lowerer

theorem run_of_succeeded {lowerer : Lowerer} {expression : String} (h : (lowerer.lower expression).succeeded = true) :
    (lowerer.run expression).ending = .completed ∧ (lowerer.run expression).diagnostics = [] := by
  unfold Answer.succeeded at h
  cases result : (lowerer.lower expression).result with
  | error fault => simp [result] at h
  | ok lowering =>
    obtain ⟨ends, rfl⟩ := result_eq_ok.mp result
    have success : (lowerer.run expression).status = .success := by simpa [result, Lowering.ok, summary] using h
    unfold Run.status at success
    cases ending : (lowerer.run expression).ending with
    | completed => simpa [ending] using success
    | stopped => simp [ending] at success
    | faulted fault => exact absurd ending (ends fault)

theorem lowered_meets (lowerer : Lowerer) (plain : lowerer.dialect.AssignsPlainly) {expressions : List String}
    (succeeded : ∀ answer ∈ lowerer.lowerAll expressions, answer.succeeded = true)
    {evaluated : Option (Calculator α)} (h : Meets I memory lowerer.instructions lowerer.machine evaluated) :
    Meets I memory (lowerer.lowered expressions).instructions (lowerer.lowered expressions).machine
      (evaluated >>= (expressions.flatMap tokens).foldlM (Calculator.read I lowerer.dialect)) := by
  induction expressions generalizing lowerer evaluated with
  | nil => simpa [lowered] using h
  | cons expression rest ih =>
    obtain ⟨first, others⟩ := List.forall_mem_cons.mp succeeded
    rw [lower_lowerer] at others
    obtain ⟨completed, clean⟩ := run_of_succeeded first
    have onward := ih (lowerer.reach (lowerer.run expression)) plain others
      (h.bind fun agrees => agrees.run plain completed clean)
    rw [bind_assoc] at onward
    rw [lowered_cons, List.flatMap_cons]
    simp only [List.foldlM_append]
    exact onward

/-- Whatever expressions a fresh lowerer lowers with success, one after the other, and whatever the
operators compute and the store holds: the instructions can be executed, the tokens can be worked
through, both leave the same store, and the values left on the lowerer's stack stand, one by one, for
the items left on the calculator's and have their content. -/
theorem lowering_preserves_meaning (I : Interpretation α) (store : Cell → α) (architecture : String)
    {dialect : Dialect} (plain : dialect.AssignsPlainly) (strict : Bool) {expressions : List String}
    (succeeded : ∀ answer ∈ (fresh architecture dialect strict).lowerAll expressions, answer.succeeded = true) :
    let lowerer := (fresh architecture dialect strict).lowered expressions
    ∃ memory calculator,
      lowerer.instructions.foldlM (Memory.execute I) (Memory.ofStore store) = some memory ∧
      (expressions.flatMap tokens).foldlM (Calculator.read I dialect) { store } = some calculator ∧
      memory.store = calculator.store ∧
      List.Forall₂ memory.Denotes lowerer.machine.stack calculator.stack ∧
      lowerer.machine.stack.map memory.read =
        calculator.stack.map fun item => some (item.content calculator.store) := by
  intro lowerer
  have start : Agrees (fresh architecture dialect strict).machine (Memory.ofStore store) { store } :=
    ⟨rfl, .nil, [], rfl, .nil, by simp⟩
  obtain ⟨memory, calculator, executed, evaluated, hstore, hstack, -⟩ :=
    lowered_meets (I := I) (fresh architecture dialect strict) plain succeeded ⟨_, _, rfl, rfl, start⟩
  refine ⟨memory, calculator, executed, evaluated, hstore, hstack, ?_⟩
  rw [← List.forall₂_eq_eq_eq, List.forall₂_map_left_iff, List.forall₂_map_right_iff]
  exact hstack.imp fun _ _ denotes => by rw [denotes.read, hstore]

/-- The second token of the second expression assigns to a temporary, and the last one to a null. -/
theorem lowering_preserves_meaning_example :
    let I : Interpretation Int :=
      { ofTwo := fun operator first second => if operator.symbol = "+" then first + second else first * second
        ofOne := fun _ first => -first }
    let store : Cell → Int := fun cell => if cell.value.location = .constant then cell.value.literal else 5
    let expressions := ["rax,rbx,+", "2,+=,7,="]
    let lowerer := (fresh Profile.defaultName Profile.builtin.toDialect true).lowered expressions
    (∀ answer ∈ (fresh Profile.defaultName Profile.builtin.toDialect true).lowerAll expressions,
      answer.succeeded = true) ∧
    ∃ memory calculator,
      lowerer.instructions.foldlM (Memory.execute I) (Memory.ofStore store) = some memory ∧
      (expressions.flatMap tokens).foldlM (Calculator.read I Profile.builtin.toDialect) { store } = some calculator ∧
      memory.store = calculator.store ∧
      List.Forall₂ memory.Denotes lowerer.machine.stack calculator.stack ∧
      lowerer.machine.stack.map memory.read =
        calculator.stack.map fun item => some (item.content calculator.store) := by
  intro I store expressions lowerer
  have succeeded : ∀ answer ∈ (fresh Profile.defaultName Profile.builtin.toDialect true).lowerAll expressions,
      answer.succeeded = true := by
    decide +kernel
  exact ⟨succeeded, lowering_preserves_meaning I store Profile.defaultName Profile.builtin_assignsPlainly true succeeded⟩

end Lowerer
end
end EsilLowering
