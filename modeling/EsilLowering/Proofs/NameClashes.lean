import EsilLowering.Proofs.Provenance
import Mathlib.Data.List.Nodup

/-! # Names that clash with those of temporaries

Temporaries have different names among themselves, but no name is kept back for them: an operand token
may be spelled like one. Every value that is neither a temporary nor null is what some operand token was
classified as, and has the token for a name. So such a token is the only way to a clash; without one, a
name tells which result is meant. -/

namespace EsilLowering

/-- A value is on the stack or in an instruction so far. -/
def Held (instructions : List Instruction) (machine : Machine) (value : Value) : Prop :=
  value ∈ machine.stack ∨ ∃ instruction ∈ instructions, value ∈ instruction.values

/-- How a value comes about, the operand tokens being those of `source`. -/
inductive Origin (dialect : Dialect) (source : String → Prop) : Value → Prop where
  | null : Origin dialect source .null
  | temporary (index : Nat) : Origin dialect source (.temporary (index : Int))
  | token {token : String} {value : Value} (given : source token) (noOperator : dialect.operators.get? token = none)
      (classified : Value.classify dialect.registers dialect.defaultSize token = .ok value) :
      Origin dialect source value

/-- All that is held came about as values do. -/
def AllOriginate (dialect : Dialect) (source : String → Prop) (instructions : List Instruction)
    (machine : Machine) : Prop :=
  ∀ value, Held instructions machine value → Origin dialect source value

/-- The names of the temporaries handed out so far. -/
def Temporaries.names (temporaries : Temporaries) : List String := temporaries.values.map Value.name

/-! ### Where values come from -/

section
variable {dialect : Dialect} {source : String → Prop} {before new : List Instruction} {machine after : Machine}
  {value : Value}

theorem Machine.destination_origin (machine : Machine) (operator : Operator) :
    Origin dialect source (machine.destination operator) := by
  unfold destination
  split
  · exact .null
  · exact .temporary _

/-- What is held once an instruction is emitted was held before, or is the result or null. -/
theorem Held.of_emit {operator : Operator} {operands : Operands} {below : List Value}
    (taken : operator.operands machine.stack = .ok operands) (hbelow : below ⊆ machine.stack)
    (held : Held (before ++ (machine.emit operator operands below).instructions)
      (machine.emit operator operands below).machine value) :
    Held before machine value ∨ value = machine.destination operator ∨ value = .null := by
  rw [Machine.emit_eq] at held
  rcases held with hstack | ⟨instruction, hinstruction, hvalue⟩
  · rcases List.mem_cons.mp hstack with rfl | hbelow'
    · exact Or.inr (Or.inl rfl)
    · exact Or.inl (Or.inl (hbelow hbelow'))
  · rcases List.mem_append.mp hinstruction with hold | hnew
    · exact Or.inl (Or.inr ⟨instruction, hold, hvalue⟩)
    · rw [List.mem_singleton.mp hnew] at hvalue
      rcases Operator.values_of_operands taken hvalue with hdestination | hstack | hnull
      · exact Or.inr (Or.inl hdestination)
      · exact Or.inl (Or.inl hstack)
      · exact Or.inr (Or.inr hnull)

theorem Move.keeps_origins (move : Move dialect source machine new after)
    (h : AllOriginate dialect source before machine) : AllOriginate dialect source (before ++ new) after := by
  intro value held
  rcases move.push_or_emit with ⟨token, pushed, given, noOperator, -, classified, rfl, rfl⟩ |
    ⟨operator, operands, below, taken, hbelow, rfl, rfl⟩
  · rw [List.append_nil] at held
    rcases held with hstack | hinstruction
    · rcases List.mem_cons.mp hstack with rfl | hold
      · exact .token given noOperator classified
      · exact h value (Or.inl hold)
    · exact h value (Or.inr hinstruction)
  · rcases held.of_emit taken hbelow.subset with hbefore | rfl | rfl
    · exact h value hbefore
    · exact machine.destination_origin operator
    · exact .null

end

/-! ### Names -/

section
variable {dialect : Dialect} {source : String → Prop} {value : Value} {temporaries : Temporaries} {name : String}

theorem Temporaries.mem_names : name ∈ temporaries.names ↔
    ∃ index : Nat, 1 ≤ index ∧ index ≤ temporaries.last ∧ name = (Value.temporary (index : Int)).name := by
  simp only [names, List.mem_map, mem_values]
  constructor
  · rintro ⟨_, ⟨index, hpos, hle, rfl⟩, rfl⟩
    exact ⟨index, hpos, hle, rfl⟩
  · rintro ⟨index, hpos, hle, rfl⟩
    exact ⟨_, ⟨index, hpos, hle, rfl⟩, rfl⟩

/-- The name of a temporary begins with a letter. -/
theorem Numeral.decimal?_temporary (index : Nat) :
    decimal? (Value.temporary (index : Int)).name = .ok none := by
  have noParts : decimalParts? (Value.temporary (index : Int)).name = none := by
    rw [Option.eq_none_iff_forall_ne_some]
    rintro ⟨negative, digits⟩ parts
    obtain ⟨sign, hsign, hchars, hne, hdigits⟩ := decimalParts?_eq_some.mp parts
    rw [Value.temporary_name_toList] at hchars
    have letter : (sign ++ digits).head? = some 't' := by
      rw [← hchars]
      rfl
    cases hsign with
    | plus | minus => cases letter
    | none => exact absurd (hdigits 't' (List.mem_of_head? letter)) (by decide)
  rw [decimal?, noParts]

/-- A value with the name of a temporary is a temporary, or a register or unknown name that was an operand
token. -/
theorem Origin.of_clash (origin : Origin dialect source value) (lasting : value.location ≠ .temporary)
    (clash : value.name ∈ temporaries.names) :
    (value.location = .register ∨ value.location = .unknown) ∧ source value.name ∧
      dialect.operators.get? value.name = none := by
  obtain ⟨index, -, -, hname⟩ := Temporaries.mem_names.mp clash
  cases origin with
  | null =>
    have long := congrArg String.toList hname
    rw [Value.temporary_name_toList] at long
    cases long
  | temporary index => exact absurd rfl lasting
  | token given noOperator classified =>
    rw [Value.classify_name classified] at hname ⊢
    refine ⟨?_, given, noOperator⟩
    rcases Value.classify_eq_ok.mp classified with ⟨width, -, rfl⟩ | ⟨number, -, numeral, -⟩ | ⟨-, -, rfl⟩
    · exact Or.inl rfl
    · rw [hname, Numeral.decimal?_temporary] at numeral
      cases numeral
    · exact Or.inr rfl

theorem Origin.eq_temporary (origin : Origin dialect source value) (htemporary : value.location = .temporary) :
    ∃ index : Nat, value = .temporary (index : Int) := by
  cases origin with
  | null => cases htemporary
  | temporary index => exact ⟨index, rfl⟩
  | token given noOperator classified => exact absurd htemporary (Value.classify_location classified)

theorem Value.temporary_eq_of_name {m n : Nat} (h : (temporary (m : Int)).name = (temporary (n : Int)).name) :
    temporary (m : Int) = temporary (n : Int) :=
  congrArg (fun name => ({ name, size := 0, location := .temporary } : Value)) h

end

namespace Lowerer

/-- A value is on the stack of a lowerer or in one of its instructions. -/
def Holds (lowerer : Lowerer) (value : Value) : Prop := Held lowerer.instructions lowerer.machine value

theorem holds_origin (architecture : String) (dialect : Dialect) (strict : Bool) (expressions : List String)
    {value : Value} (held : ((fresh architecture dialect strict).lowered expressions).Holds value) :
    Origin dialect (fun token => ∃ expression ∈ expressions, token ∈ tokens expression) value := by
  have given : ∀ expression ∈ expressions, ∀ token ∈ tokens expression,
      ∃ expression ∈ expressions, token ∈ tokens expression :=
    fun expression hexpression token htoken => ⟨expression, hexpression, htoken⟩
  have start : AllOriginate dialect (fun token => ∃ expression ∈ expressions, token ∈ tokens expression) [] {} := by
    rintro value (hstack | ⟨instruction, hinstruction, -⟩)
    · cases hstack
    · cases hinstruction
  have originate : AllOriginate _ _ _ _ :=
    lowered_keeps (fresh architecture dialect strict) Move.keeps_origins given start
  exact originate value held

/-- Names are not kept apart: an operand token may be spelled like a temporary that is handed out after it,
and then one name stands for two values in one instruction. -/
theorem temporary_name_taken :
    let lowerer := (fresh Profile.defaultName Profile.builtin.toDialect false).lowered ["tmp_1,rbx,+"]
    ∃ value temporary, lowerer.Holds value ∧ value.location = .unknown ∧
      lowerer.Holds temporary ∧ temporary ∈ lowerer.machine.temporaries.values ∧ value.name = temporary.name ∧
      lowerer.instructions.map Instruction.text = ["tmp_1 = tmp_1 + rbx"] := by
  intro lowerer
  let operand : Value := { name := "tmp_1", size := 64, location := .unknown }
  let register : Value := { name := "rbx", size := 64, location := .register }
  have instructions : lowerer.instructions = [⟨⟨"+", .binary⟩, .temporary 1, operand, register⟩] := by decide +kernel
  have holds {value : Value} (h : value = .temporary 1 ∨ value = operand) : lowerer.Holds value := by
    refine Or.inr ⟨_, by rw [instructions]; exact List.mem_singleton_self _, ?_⟩
    rcases h with rfl | rfl <;> simp [Instruction.values]
  exact ⟨operand, .temporary 1, holds (Or.inr rfl), rfl, holds (Or.inl rfl), by decide +kernel, by decide +kernel,
    by decide +kernel⟩

/-- In every history, a value that is no temporary has the name of one only if the name was given as an
operand token, of a register or of something unknown; a constant never has. So if no operand token is
spelled like a temporary that was handed out, no other value has the name of one, and values that share
such a name are the one result of one instruction. -/
theorem names_clash_only_with_tokens (architecture : String) (dialect : Dialect) (strict : Bool)
    (expressions : List String) :
    let lowerer := (fresh architecture dialect strict).lowered expressions
    let names := lowerer.machine.temporaries.names
    (∀ value, lowerer.Holds value → value.location ≠ .temporary → value.name ∈ names →
      (value.location = .register ∨ value.location = .unknown) ∧
      (∃ expression ∈ expressions, value.name ∈ tokens expression) ∧
      dialect.operators.get? value.name = none) ∧
    ((∀ expression ∈ expressions, ∀ token ∈ tokens expression, token ∈ names →
        dialect.operators.get? token ≠ none) →
      (∀ value, lowerer.Holds value → value.location ≠ .temporary → value.name ∉ names) ∧
      ∀ value other, lowerer.Holds value → lowerer.Holds other → value.name ∈ names → value.name = other.name →
        value = other ∧ (resultsOf lowerer.instructions).count value = 1) := by
  intro lowerer names
  have origin {value : Value} (held : lowerer.Holds value) := holds_origin architecture dialect strict expressions held
  have ordered : TemporariesOrdered lowerer.instructions lowerer.machine :=
    lowered_ordered architecture dialect strict expressions
  refine ⟨fun value held lasting clash => (origin held).of_clash lasting clash, fun apart => ?_⟩
  have lasting {value : Value} (held : lowerer.Holds value) (clash : value.name ∈ names) :
      value.location = .temporary := by
    by_cases temporary : value.location = .temporary
    · exact temporary
    · obtain ⟨-, ⟨expression, hexpression, htoken⟩, noOperator⟩ := (origin held).of_clash temporary clash
      exact absurd noOperator (apart expression hexpression value.name htoken clash)
  refine ⟨fun value held other clash => other (lasting held clash), fun value other held held' clash same => ?_⟩
  obtain ⟨m, rfl⟩ := (origin held).eq_temporary (lasting held clash)
  obtain ⟨n, rfl⟩ := (origin held').eq_temporary (lasting held' (same ▸ clash))
  refine ⟨Value.temporary_eq_of_name same, ?_⟩
  obtain ⟨index, hpos, hle, hname⟩ := Temporaries.mem_names.mp clash
  have handed : Value.temporary (m : Int) ∈ lowerer.machine.temporaries.values :=
    Temporaries.mem_values.mpr ⟨index, hpos, hle, Value.temporary_eq_of_name hname⟩
  rw [ordered.results]
  exact List.count_eq_one_of_mem (Temporaries.values_nodup _) handed

end Lowerer
end EsilLowering
