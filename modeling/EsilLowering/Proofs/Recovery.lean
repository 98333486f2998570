import EsilLowering.Proofs.Preservation
import Mathlib.Data.List.Nodup

/-! # Getting the source back

A temporary stands for the instruction that gives it, and so for the tokens that the instruction came
of: those of its operands and then its operator. Written out from the bottom up, the values left on the
stack are therefore the expression, as long as nothing is assigned. What is written out is a tree whose
inner nodes are only named by temporaries; it is the one tree because no temporary is given twice. -/

namespace EsilLowering

/-- What a value stands for, in tokens: a temporary for the operands and the operator of an instruction
that gives it, any other value for its name. -/
inductive Expands (instructions : List Instruction) : Value → List String → Prop where
  | name {value : Value} (lasting : value.location ≠ .temporary) : Expands instructions value [value.name]
  | two {instruction : Instruction} {first second : List String} (given : instruction ∈ instructions)
      (temporary : instruction.destination.location = .temporary) (binary : instruction.opcode.arity = .binary)
      (hfirst : Expands instructions instruction.first first)
      (hsecond : Expands instructions instruction.second second) :
      Expands instructions instruction.destination (first ++ second ++ [instruction.opcode.symbol])
  | one {instruction : Instruction} {first : List String} (given : instruction ∈ instructions)
      (temporary : instruction.destination.location = .temporary) (single : instruction.opcode.arity ≠ .binary)
      (hfirst : Expands instructions instruction.first first) :
      Expands instructions instruction.destination (first ++ [instruction.opcode.symbol])

section
variable {instructions more : List Instruction} {value : Value} {text other : List String}

theorem Expands.append (h : Expands instructions value text) (more : List Instruction) :
    Expands (instructions ++ more) value text := by
  induction h with
  | name lasting => exact .name lasting
  | two given temporary binary _ _ ihfirst ihsecond =>
    exact .two (List.mem_append_left _ given) temporary binary ihfirst ihsecond
  | one given temporary single _ ihfirst => exact .one (List.mem_append_left _ given) temporary single ihfirst

/-- Each temporary is given by one instruction. -/
def GivenOnce (instructions : List Instruction) : Prop :=
  ∀ one ∈ instructions, ∀ other ∈ instructions, one.destination.location = .temporary →
    other.destination = one.destination → other = one

theorem Expands.unique (once : GivenOnce instructions) (h : Expands instructions value text)
    (h' : Expands instructions value other) : text = other := by
  induction h generalizing other with
  | name lasting =>
    cases h' with
    | name => rfl
    | two _ temporary => exact absurd temporary lasting
    | one _ temporary => exact absurd temporary lasting
  | @two instruction first second given temporary binary hfirst hsecond ihfirst ihsecond =>
    generalize hd : instruction.destination = destination at h'
    cases h' with
    | name lasting => exact absurd (hd ▸ temporary) lasting
    | two given' _ _ hfirst' hsecond' =>
      obtain rfl := once _ given _ given' temporary hd.symm
      rw [ihfirst hfirst', ihsecond hsecond']
    | one given' _ single =>
      obtain rfl := once _ given _ given' temporary hd.symm
      exact absurd binary single
  | @one instruction first given temporary single hfirst ihfirst =>
    generalize hd : instruction.destination = destination at h'
    cases h' with
    | name lasting => exact absurd (hd ▸ temporary) lasting
    | two given' _ binary =>
      obtain rfl := once _ given _ given' temporary hd.symm
      exact absurd binary single
    | one given' _ _ hfirst' =>
      obtain rfl := once _ given _ given' temporary hd.symm
      rw [ihfirst hfirst']

/-- Only results are temporaries, and the results are the temporaries handed out, each once. -/
theorem TemporariesOrdered.givenOnce {machine : Machine} (h : TemporariesOrdered instructions machine) :
    GivenOnce instructions := by
  intro one hone other hother temporary same
  have result : ∀ instruction ∈ instructions, instruction.destination.location = .temporary →
      instruction ∈ instructions.filter fun instruction => !instruction.isAssignment := by
    intro instruction hmem htemporary
    refine List.mem_filter.mpr ⟨hmem, ?_⟩
    cases assigns : instruction.isAssignment with
    | false => rfl
    | true =>
      rw [h.assignments instruction hmem assigns] at htemporary
      cases htemporary
  have once : (resultsOf instructions).Nodup := h.results ▸ Temporaries.values_nodup _
  exact List.inj_on_of_nodup_map once (result other hother (same ▸ temporary)) (result one hone temporary) same

end

/-! ### The stack written out -/

/-- The values on a stack, from its bottom up, written out to tokens. -/
def WritesOut (instructions : List Instruction) (stack : List Value) (text : List String) : Prop :=
  ∃ parts, List.Forall₂ (Expands instructions) stack parts ∧ parts.reverse.flatten = text

section
variable {instructions : List Instruction} {machine : Machine} {text : List String}

theorem WritesOut.push (h : WritesOut instructions machine.stack text) {value : Value}
    (lasting : value.location ≠ .temporary) :
    WritesOut instructions (value :: machine.stack) (text ++ [value.name]) := by
  obtain ⟨parts, hparts, rfl⟩ := h
  exact ⟨[value.name] :: parts, .cons (.name lasting) hparts, by simp⟩

theorem WritesOut.emit (h : WritesOut instructions machine.stack text) {operator : Operator} {operands : Operands}
    (taken : operator.operands machine.stack = .ok operands) (noAssignment : operator.isAssignment = false) :
    WritesOut (instructions ++ (machine.emit operator operands operands.below).instructions)
      (machine.emit operator operands operands.below).machine.stack (text ++ [operator.symbol]) := by
  obtain ⟨parts, hparts, rfl⟩ := h
  rw [Machine.emit_eq]
  have new : machine.destination operator = .temporary ((machine.temporaries.last + 1 : Nat) : Int) := by
    simp [Machine.destination, noAssignment]
  have temporary : (machine.destination operator).location = .temporary := by rw [new]; rfl
  have given : (⟨operator, machine.destination operator, operands.first, operands.second⟩ : Instruction) ∈
      instructions ++ [⟨operator, machine.destination operator, operands.first, operands.second⟩] := by simp
  rcases Operator.operands_eq_ok.mp taken with ⟨binary, htop⟩ | ⟨single, -, htop⟩
  · rw [htop] at hparts
    obtain ⟨second, _, hsecond, hrest, rfl⟩ := List.forall₂_cons_left_iff.mp hparts
    obtain ⟨first, below, hfirst, hbelow, rfl⟩ := List.forall₂_cons_left_iff.mp hrest
    refine ⟨(first ++ second ++ [operator.symbol]) :: below, .cons ?_ ?_, by simp⟩
    · exact .two given temporary binary (hfirst.append _) (hsecond.append _)
    · exact hbelow.imp fun _ _ h => h.append _
  · rw [htop] at hparts
    obtain ⟨first, below, hfirst, hbelow, rfl⟩ := List.forall₂_cons_left_iff.mp hparts
    refine ⟨(first ++ [operator.symbol]) :: below, .cons ?_ ?_, by simp⟩
    · exact .one given temporary (by rcases single with h | h <;> simp [h]) (hfirst.append _)
    · exact hbelow.imp fun _ _ h => h.append _

end

/-! ### Tokens -/

/-- Each operator of a table has the token that names it for its symbol. -/
def Dialect.NamedBySymbol (dialect : Dialect) : Prop :=
  ∀ token operator, dialect.operators.get? token = some operator → operator.symbol = token

theorem Profile.builtin_namedBySymbol : builtin.toDialect.NamedBySymbol := by
  have entries : ∀ entry ∈ builtin.operators.entries, entry.2.symbol = entry.1 := by decide +kernel
  exact fun token operator found => entries _ (Table.mem_entries_of_get? found)

section
variable {dialect : Dialect} {instructions : List Instruction} {machine : Machine} {text : List String}

theorem WritesOut.read (h : WritesOut instructions machine.stack text) (symbols : dialect.NamedBySymbol)
    {token : String} (pure : dialect.ReadsOnly (·.isAssignment = false) token)
    (done : (machine.read dialect token).halt? = none) :
    WritesOut (instructions ++ (machine.read dialect token).instructions) (machine.read dialect token).machine.stack
      (text ++ [token]) := by
  cases found : dialect.operators.get? token with
  | some operator =>
    rw [Machine.read_of_operator found] at done ⊢
    obtain ⟨operands, taken⟩ := Machine.operands_of_done done
    rw [Machine.apply_of_ok taken, ← symbols token operator found]
    exact h.emit taken (pure.1 operator found)
  | none =>
    rw [Machine.read_of_operand found (pure.2 found)] at done ⊢
    obtain ⟨value, classified⟩ := Machine.classified_of_done done
    have written := h.push (Value.classify_location classified)
    rw [Value.classify_name classified] at written
    rw [Machine.push_of_ok classified, List.append_nil]
    exact written

theorem WritesOut.run (h : WritesOut instructions machine.stack text) (symbols : dialect.NamedBySymbol)
    {strict : Bool} {expression : String} {position : Nat} {tokens : List String}
    (pure : ∀ token ∈ tokens, dialect.ReadsOnly (·.isAssignment = false) token)
    (completed : (machine.run dialect strict expression position tokens).ending = .completed)
    (clean : (machine.run dialect strict expression position tokens).diagnostics = []) :
    WritesOut (instructions ++ (machine.run dialect strict expression position tokens).instructions)
      (machine.run dialect strict expression position tokens).machine.stack (text ++ tokens) := by
  induction tokens generalizing position machine instructions text with
  | nil => simpa [Machine.run_nil] using h
  | cons token rest ih =>
    obtain ⟨first, others⟩ := List.forall_mem_cons.mp pure
    have done := Machine.run_cons_completed completed clean
    rw [Machine.run_of_done done] at completed clean ⊢
    rw [Run.instructions_after, ← List.append_assoc, List.append_cons]
    exact ih (h.read symbols first done) others completed clean

end

namespace Lowerer
variable (architecture : String) {dialect : Dialect} (strict : Bool) {expression : String}

theorem lower_fresh_givenOnce (expression : String) :
    GivenOnce ((fresh architecture dialect strict).lower expression).lowerer.instructions := by
  have given : ∀ token ∈ tokens expression, token ∈ tokens expression := fun _ h => h
  have moves : Moves dialect (· ∈ tokens expression) _ _ _ := Machine.run_moves strict expression 0 given {}
  rw [lower_lowerer]
  exact (moves.keeps Move.keeps_order TemporariesOrdered.start).givenOnce

theorem lower_fresh_writesOut (symbols : dialect.NamedBySymbol)
    (pure : ∀ token ∈ tokens expression, dialect.ReadsOnly (·.isAssignment = false) token)
    (succeeded : ((fresh architecture dialect strict).lower expression).succeeded = true) :
    let lowerer := ((fresh architecture dialect strict).lower expression).lowerer
    ∃ parts, List.Forall₂ (Expands lowerer.instructions) lowerer.machine.stack.reverse parts ∧
      Text.joinFields tokenSeparator parts.flatten = expression := by
  rw [lower_lowerer]
  obtain ⟨completed, clean⟩ := run_of_succeeded succeeded
  have start : WritesOut [] (fresh architecture dialect strict).machine.stack [] := ⟨[], .nil, rfl⟩
  obtain ⟨parts, hparts, htokens⟩ := start.run symbols pure completed clean
  refine ⟨parts.reverse, List.rel_reverse hparts, ?_⟩
  rw [htokens]
  exact Text.joinFields_fields tokenSeparator expression

/-- Let a fresh lowerer lower an expression of operands and of operators that do not assign, each named by
its symbol, without any problem. Then each value left on the stack can be written out in tokens in just
one way, and written out from the bottom up and with commas between them they are the expression. So no
other such expression has the same instructions and leaves the same stack. -/
theorem source_recovered (symbols : dialect.NamedBySymbol)
    (pure : ∀ token ∈ tokens expression, dialect.ReadsOnly (·.isAssignment = false) token)
    (succeeded : ((fresh architecture dialect strict).lower expression).succeeded = true) :
    let lowerer := ((fresh architecture dialect strict).lower expression).lowerer
    (∃ parts, List.Forall₂ (Expands lowerer.instructions) lowerer.machine.stack.reverse parts ∧
      Text.joinFields tokenSeparator parts.flatten = expression ∧
      ∀ others, List.Forall₂ (Expands lowerer.instructions) lowerer.machine.stack.reverse others → others = parts) ∧
    ∀ (architecture : String) (dialect : Dialect) (strict : Bool) (other : String), dialect.NamedBySymbol →
      (∀ token ∈ tokens other, dialect.ReadsOnly (·.isAssignment = false) token) →
      ((fresh architecture dialect strict).lower other).succeeded = true →
      let after := ((fresh architecture dialect strict).lower other).lowerer
      after.instructions = lowerer.instructions → after.machine.stack = lowerer.machine.stack → other = expression := by
  intro lowerer
  have once : GivenOnce lowerer.instructions := lower_fresh_givenOnce architecture strict expression
  have unique : Relator.RightUnique (List.Forall₂ (Expands lowerer.instructions)) :=
    Relator.RightUnique.forall₂ fun _ _ _ h h' => h.unique once h'
  obtain ⟨parts, hparts, hexpression⟩ := lower_fresh_writesOut architecture strict symbols pure succeeded
  refine ⟨⟨parts, hparts, hexpression, fun others hothers => unique hothers hparts⟩, ?_⟩
  intro architecture dialect strict other symbols pure succeeded after sameInstructions sameStack
  obtain ⟨others, hothers, hother⟩ := lower_fresh_writesOut architecture strict symbols pure succeeded
  have hothers : List.Forall₂ (Expands after.instructions) after.machine.stack.reverse others := hothers
  rw [sameInstructions, sameStack] at hothers
  rw [← hother, ← hexpression, unique hothers hparts]

/-- Two of the tokens only look like temporaries. -/
theorem source_recovered_example :
    let dialect := Profile.builtin.toDialect
    let expression := "rax,tmp_1,+,!,5,*,tmp_3"
    let lowerer := ((fresh Profile.defaultName dialect false).lower expression).lowerer
    dialect.NamedBySymbol ∧ (∀ token ∈ tokens expression, dialect.ReadsOnly (·.isAssignment = false) token) ∧
      ((fresh Profile.defaultName dialect false).lower expression).succeeded = true ∧
      lowerer.machine.stack.map Value.name = ["tmp_3", "tmp_3"] ∧
      ∃ parts, List.Forall₂ (Expands lowerer.instructions) lowerer.machine.stack.reverse parts ∧
        Text.joinFields tokenSeparator parts.flatten = expression ∧
        ∀ others, List.Forall₂ (Expands lowerer.instructions) lowerer.machine.stack.reverse others →
          others = parts := by
  intro dialect expression lowerer
  have pure : ∀ token ∈ tokens expression, dialect.ReadsOnly (·.isAssignment = false) token := by decide +kernel
  have succeeded : ((fresh Profile.defaultName dialect false).lower expression).succeeded = true := by decide +kernel
  exact ⟨Profile.builtin_namedBySymbol, pure, succeeded, by decide +kernel,
    (source_recovered Profile.defaultName false Profile.builtin_namedBySymbol pure succeeded).1⟩

end Lowerer
end EsilLowering
