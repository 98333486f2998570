import EsilLowering.Proofs.NameClashes

/-! # Reading an instruction from its text

The text of an instruction has single spaces between the names and symbols it shows, and keeps the spaces
around an empty name. So it can be cut at spaces again as long as no name and no symbol holds one: a name is
that of an operand token, or of a temporary, or empty. -/

namespace EsilLowering

/-- What the text of an instruction shows, in order. -/
def Instruction.shown (instruction : Instruction) : List String :=
  if instruction.isAssignment then [instruction.first.name, "=", instruction.second.name]
  else [instruction.destination.name, "=", instruction.first.name, instruction.opcode.symbol, instruction.second.name]

/-- The texts that an instruction shows are free of a character. -/
structure Instruction.FreeOf (c : Char) (instruction : Instruction) : Prop where
  symbol : c ∉ instruction.opcode.symbol.toList
  names : ∀ value ∈ instruction.values, c ∉ value.name.toList

/-! ### One instruction -/

namespace Instruction
variable {instruction other : Instruction}

theorem text_eq_joinFields (instruction : Instruction) : instruction.text = Text.joinFields ' ' instruction.shown := by
  have space : String.singleton ' ' = " " := rfl
  have around : " = " = " " ++ "=" ++ " " := rfl
  rw [Text.joinFields, space, shown, text, around, isAssignment]
  cases instruction.opcode.isAssignment with
  | true =>
    rw [if_pos rfl, if_pos rfl]
    simp only [String.intercalate_cons_cons, String.intercalate_singleton, String.append_assoc]
  | false =>
    rw [if_neg Bool.false_ne_true, if_neg Bool.false_ne_true]
    simp only [String.intercalate_cons_cons, String.intercalate_singleton, String.append_assoc]

theorem FreeOf.shown (free : instruction.FreeOf ' ') : ∀ part ∈ instruction.shown, ' ' ∉ part.toList := by
  have destination := free.names instruction.destination (by simp [values])
  have first := free.names instruction.first (by simp [values])
  have second := free.names instruction.second (by simp [values])
  have equals : ' ' ∉ "=".toList := by decide
  unfold Instruction.shown
  split
  · simp only [List.forall_mem_cons]
    exact ⟨first, equals, second, List.forall_mem_nil _⟩
  · simp only [List.forall_mem_cons]
    exact ⟨destination, equals, first, free.symbol, second, List.forall_mem_nil _⟩

theorem FreeOf.fields_text (free : instruction.FreeOf ' ') : Text.fields ' ' instruction.text = instruction.shown := by
  have some : instruction.shown ≠ [] := by
    unfold Instruction.shown
    split <;> exact List.cons_ne_nil _ _
  rw [text_eq_joinFields, Text.fields_joinFields some free.shown]

theorem length_shown (instruction : Instruction) :
    instruction.shown.length = if instruction.isAssignment then 3 else 5 := by
  unfold shown
  split <;> rfl

/-- Instructions that show the same agree on what they show and on whether they assign. -/
theorem agree_of_shown (same : instruction.shown = other.shown)
    (null : instruction.isAssignment = true → instruction.destination = .null)
    (null' : other.isAssignment = true → other.destination = .null) :
    instruction.isAssignment = other.isAssignment ∧ instruction.destination.name = other.destination.name ∧
      instruction.first.name = other.first.name ∧ instruction.opcode.symbol = other.opcode.symbol ∧
      instruction.second.name = other.second.name := by
  have lengths := congrArg List.length same
  rw [length_shown, length_shown] at lengths
  cases assigns : instruction.isAssignment with
  | true =>
    cases assigns' : other.isAssignment with
    | false => simp [assigns, assigns'] at lengths
    | true =>
      have symbol : instruction.opcode.symbol = Operator.assignmentSymbol := beq_iff_eq.mp assigns
      have symbol' : other.opcode.symbol = Operator.assignmentSymbol := beq_iff_eq.mp assigns'
      simp only [shown, assigns, assigns', if_true, List.cons.injEq] at same
      exact ⟨rfl, by rw [null assigns, null' assigns'], same.1, symbol.trans symbol'.symm, same.2.2.1⟩
  | false =>
    cases assigns' : other.isAssignment with
    | true => simp [assigns, assigns'] at lengths
    | false =>
      simp only [shown, assigns, assigns', Bool.false_eq_true, if_false, List.cons.injEq] at same
      exact ⟨rfl, same.1, same.2.2.1, same.2.2.2.1, same.2.2.2.2.1⟩

end Instruction

/-! ### What a lowerer emits -/

section
variable {dialect : Dialect} {source : String → Prop} {before new : List Instruction} {machine after : Machine}
  {value : Value}

/-- Only operators that the machine can come to apply are emitted. -/
theorem Move.keeps_opcodes (move : Move dialect source machine new after)
    (h : ∀ instruction ∈ before, dialect.Applies instruction.opcode) :
    ∀ instruction ∈ before ++ new, dialect.Applies instruction.opcode := by
  intro instruction member
  rcases List.mem_append.mp member with old | new
  · exact h instruction old
  · cases move with
    | push => cases new
    | apply applies taken =>
      rw [Machine.emit_eq, List.mem_singleton] at new
      exact new ▸ applies
    | applyKeeping applies taken =>
      rw [Machine.emitKeeping, Machine.emit_eq, List.mem_singleton] at new
      exact new ▸ applies

theorem Dialect.Applies.symbol {operator : Operator} (applies : dialect.Applies operator) :
    operator.symbol = Operator.assignmentSymbol ∨ ∃ token, dialect.operators.get? token = some operator := by
  rcases applies with rfl | found
  · rw [assignment]
    cases found : dialect.operators.get? Operator.assignmentSymbol with
    | none => exact Or.inl rfl
    | some operator => exact Or.inr ⟨_, found⟩
  · exact Or.inr found

/-- The name of a temporary has no space in it. -/
theorem Value.temporary_spaceless (index : Nat) : ' ' ∉ (temporary (index : Int)).name.toList := by
  rw [temporary_name_toList, List.mem_append, not_or]
  refine ⟨by decide, fun digit => ?_⟩
  obtain ⟨number, small, space⟩ := Numeral.digitChar_of_mem_toDigits digit
  have visible : ∀ number < 16, ' ' ≠ number.digitChar := by decide
  exact visible number small space

/-- A value has no space in its name unless an operand token has one. -/
theorem Origin.spaceless (origin : Origin dialect source value) (tokens : ∀ token, source token → ' ' ∉ token.toList) :
    ' ' ∉ value.name.toList := by
  cases origin with
  | null => exact List.not_mem_nil
  | temporary index => exact Value.temporary_spaceless index
  | token given noOperator classified =>
    rw [Value.classify_name classified]
    exact tokens _ given

end

namespace Lowerer

theorem opcode_applies (architecture : String) (dialect : Dialect) (strict : Bool) (expressions : List String) :
    ∀ instruction ∈ ((fresh architecture dialect strict).lowered expressions).instructions,
      dialect.Applies instruction.opcode :=
  lowered_keeps (P := fun instructions _ => ∀ instruction ∈ instructions, dialect.Applies instruction.opcode)
    (fresh architecture dialect strict) Move.keeps_opcodes (fun _ _ _ _ => True.intro) (List.forall_mem_nil _)

variable (architecture : String) {dialect : Dialect} (strict : Bool) {expressions : List String}

theorem instruction_freeOf_space
    (symbols : ∀ token operator, dialect.operators.get? token = some operator → ' ' ∉ operator.symbol.toList)
    (spaceless : ∀ expression ∈ expressions, ' ' ∉ expression.toList) {instruction : Instruction}
    (emitted : instruction ∈ ((fresh architecture dialect strict).lowered expressions).instructions) :
    instruction.FreeOf ' ' := by
  constructor
  · rcases (opcode_applies architecture dialect strict expressions instruction emitted).symbol with assigns |
      ⟨token, found⟩
    · rw [assigns]
      decide
    · exact symbols token _ found
  · intro value member
    have origin := holds_origin architecture dialect strict expressions (Or.inr ⟨instruction, emitted, member⟩)
    refine origin.spaceless ?_
    rintro token ⟨expression, given, field⟩ space
    exact spaceless expression given (Text.mem_of_mem_fields field space)

/-- If no operator's symbol and no expression has a space in it, the text of every instruction that a lowerer
comes to emit can be read: cut at spaces it has three fields if it assigns and five if not, which are the
names and the symbol that it shows, empty names included. So instructions with the same text agree on all
that they show. -/
theorem texts_decoded
    (symbols : ∀ token operator, dialect.operators.get? token = some operator → ' ' ∉ operator.symbol.toList)
    (spaceless : ∀ expression ∈ expressions, ' ' ∉ expression.toList) :
    let instructions := ((fresh architecture dialect strict).lowered expressions).instructions
    (∀ instruction ∈ instructions,
      let fields := Text.fields ' ' instruction.text
      (fields.length = 3 ↔ instruction.isAssignment = true) ∧
      (fields.length = 5 ↔ instruction.isAssignment = false) ∧
      (instruction.isAssignment = true → fields = [instruction.first.name, "=", instruction.second.name]) ∧
      (instruction.isAssignment = false →
        fields = [instruction.destination.name, "=", instruction.first.name, instruction.opcode.symbol,
          instruction.second.name])) ∧
    ∀ one ∈ instructions, ∀ other ∈ instructions, one.text = other.text →
      one.isAssignment = other.isAssignment ∧ one.destination.name = other.destination.name ∧
      one.first.name = other.first.name ∧ one.opcode.symbol = other.opcode.symbol ∧
      one.second.name = other.second.name := by
  intro instructions
  have read {instruction : Instruction} (emitted : instruction ∈ instructions) :
      Text.fields ' ' instruction.text = instruction.shown :=
    (instruction_freeOf_space architecture strict symbols spaceless emitted).fields_text
  refine ⟨?_, fun one hone other hother same => ?_⟩
  · intro instruction emitted fields
    have fields_eq : fields = instruction.shown := read emitted
    rw [fields_eq, Instruction.length_shown, Instruction.shown]
    cases instruction.isAssignment <;> simp
  · have ordered := lowered_ordered architecture dialect strict expressions
    have shown : one.shown = other.shown := by rw [← read hone, ← read hother, same]
    exact Instruction.agree_of_shown shown (ordered.assignments one hone) (ordered.assignments other hother)

/-- An operator with an equals sign for a part of its symbol, a null operand and an empty token. -/
theorem texts_decoded_example :
    let dialect := Profile.builtin.toDialect
    let expressions := ["rax,rbx,+=", ",!", "tmp_1,<="]
    let instructions := ((fresh Profile.defaultName dialect false).lowered expressions).instructions
    instructions.map Instruction.text = ["tmp_1 = rax + rbx", "rax = tmp_1", "tmp_2 =  ! ", "tmp_3 = tmp_2 <= tmp_1"] ∧
      ∀ instruction ∈ instructions,
        ((Text.fields ' ' instruction.text).length = 3 ↔ instruction.isAssignment = true) := by
  intro dialect expressions instructions
  have entries : ∀ entry ∈ dialect.operators.entries, ' ' ∉ entry.2.symbol.toList := by decide +kernel
  have symbols : ∀ token operator, dialect.operators.get? token = some operator → ' ' ∉ operator.symbol.toList :=
    fun token operator found => entries _ (Table.mem_entries_of_get? found)
  have spaceless : ∀ expression ∈ expressions, ' ' ∉ expression.toList := by decide +kernel
  obtain ⟨read, -⟩ := texts_decoded Profile.defaultName false symbols spaceless
  exact ⟨by decide +kernel, fun instruction emitted => (read instruction emitted).1⟩

end Lowerer
end EsilLowering
