import EsilLowering.Proofs.JsonText
import EsilLowering.Proofs.Provenance
import EsilLowering.Proofs.Transcripts
import EsilLowering.Proofs.Widths

/-! # The integers of a document

The document of a run can be written if its integers are not too long. Only widths can be: what a constant
stands for fits a word, and positions and counts are as small as the expressions are short. A width comes from
the profile or was read from a text, and a text that is read is not too long itself. -/

namespace EsilLowering

/-- The widths that a dialect gives can be written. -/
structure Dialect.FitsText (dialect : Dialect) : Prop where
  registers : ∀ name width, dialect.registers.get? name = some width → Numeral.FitsText width
  defaultSize : Numeral.FitsText dialect.defaultSize

/-- The integers of a value can be written. -/
@[mk_iff]
structure Value.FitsText (value : Value) : Prop where
  size : Numeral.FitsText value.size
  literal : Numeral.FitsText value.literal

/-- The integers of what came of an expression can be written. -/
@[mk_iff]
structure Lowering.FitsText (lowering : Lowering) : Prop where
  values : ∀ instruction ∈ lowering.instructions, ∀ value ∈ instruction.values, value.FitsText
  positions : ∀ diagnostic ∈ lowering.diagnostics, Numeral.FitsText diagnostic.position
  tokensConsumed : Numeral.FitsText lowering.tokensConsumed

theorem Profile.fitsText_builtin : builtin.FitsText := by
  have word : Numeral.FitsText 64 := .of_fitsWord ⟨by decide, by decide⟩
  have widths : builtinRegisters.entries.all (·.2 == 64) = true := by decide +kernel
  refine ⟨fun name width found => ?_, word⟩
  obtain rfl : width = 64 := eq_of_beq (List.all_eq_true.mp widths _ (Table.mem_entries_of_get? found))
  exact word

/-! ### Documents that can be written -/

theorem Value.json_fitsText (value : Value) : value.json.FitsText ↔ value.FitsText := by
  simp [json, Json.FitsText, fitsText_iff]

theorem Arity.fitsText_toNat (arity : Arity) : Numeral.FitsText arity.toNat := by
  refine .of_fitsWord ?_
  cases arity <;> exact ⟨by decide, by decide⟩

theorem Instruction.json_fitsText (instruction : Instruction) :
    instruction.json.FitsText ↔ ∀ value ∈ instruction.values, value.FitsText := by
  simp [json, values, Json.FitsText, Value.json_fitsText, Arity.fitsText_toNat]

theorem Lowering.json_fitsText (lowering : Lowering) : lowering.json.FitsText ↔ lowering.FitsText := by
  simp [json, Diagnostic.json, Json.FitsText, Instruction.json_fitsText, fitsText_iff]

/-- There is a document exactly if all integers in what came of the expressions can be written. -/
theorem exists_runDocument (architecture : String) (lowerings : List Lowering) :
    (∃ document, (runDocument architecture lowerings).document? = some document) ↔
      ∀ lowering ∈ lowerings, lowering.FitsText := by
  simp [Json.exists_document?, runDocument, Json.FitsText, Lowering.json_fitsText]

/-! ### What comes of expressions -/

theorem Value.Traced.fitsText {dialect : Dialect} {last : Nat} {value : Value} (traced : value.Traced dialect last)
    (widths : dialect.FitsText) : value.FitsText := by
  have zero : Numeral.FitsText 0 := .of_fitsWord ⟨by decide, by decide⟩
  obtain ⟨-, traced⟩ := traced
  cases place : value.location <;> rw [place] at traced
  case memory => exact traced.elim
  case register =>
    obtain ⟨-, width, literal⟩ := traced
    exact ⟨widths.registers _ _ width, literal ▸ zero⟩
  case constant =>
    obtain ⟨-, -, -, low, high, size⟩ := traced
    exact ⟨size ▸ widths.defaultSize, .of_fitsWord ⟨low, high⟩⟩
  case unknown =>
    obtain ⟨-, -, -, size, literal⟩ := traced
    exact ⟨size ▸ widths.defaultSize, literal ▸ zero⟩
  case temporary =>
    obtain ⟨-, -, -, -, size, literal⟩ := traced
    exact ⟨size ▸ zero, literal ▸ zero⟩
  case null =>
    obtain ⟨-, size, literal⟩ := traced
    exact ⟨size ▸ zero, literal ▸ zero⟩

theorem Step.position_of_noted {step : Step} {strict : Bool} {place : TokenLocation} {diagnostic : Diagnostic}
    (noted : diagnostic ∈ step.noted strict place) : diagnostic.position = place.position := by
  unfold Step.noted at noted
  split at noted
  · cases strict
    · rw [List.mem_singleton.mp noted]
      rfl
    · cases noted
  · cases noted

/-- A run counts no tokens but those that it is given, and its diagnostics are at tokens that it counts. -/
theorem Machine.run_within (dialect : Dialect) (strict : Bool) (expression : String) (position : Nat)
    (tokens : List String) (machine : Machine) :
    let run := machine.run dialect strict expression position tokens
    run.tokensConsumed ≤ position + tokens.length ∧
      ∀ diagnostic ∈ run.diagnostics, diagnostic.position.natAbs ≤ position + tokens.length := by
  induction tokens generalizing position machine with
  | nil => exact ⟨Nat.le_refl _, List.forall_mem_nil _⟩
  | cons token rest ih =>
    have here : ∀ diagnostic ∈ (machine.read dialect token).noted strict { expression, position, token },
        diagnostic.position.natAbs ≤ position + (rest.length + 1) := by
      intro diagnostic noted
      rw [Step.position_of_noted noted, Int.natAbs_natCast]
      exact Nat.le_add_right ..
    cases ends : (machine.read dialect token).ending? strict { expression, position, token } with
    | some ending =>
      rw [run_of_ending ends]
      exact ⟨Nat.le_add_right .., List.forall_mem_append.mpr ⟨here, List.forall_mem_nil _⟩⟩
    | none =>
      obtain ⟨consumed, later⟩ := ih (position + 1) (machine.read dialect token).machine
      rw [Nat.add_assoc, Nat.add_comm 1] at consumed later
      rw [run_of_onward ends]
      exact ⟨consumed, List.forall_mem_append.mpr ⟨here, later⟩⟩

namespace Lowerer
variable {lowerer : Lowerer} {expression : String}

theorem summary_fitsText (widths : lowerer.dialect.FitsText)
    (traced : ValuesTraced lowerer.dialect (lowerer.reach (lowerer.run expression)).instructions
      (lowerer.reach (lowerer.run expression)).machine)
    (few : Numeral.FitsText (tokens expression).length) : (summary expression (lowerer.run expression)).FitsText := by
  obtain ⟨consumed, positions⟩ :=
    Machine.run_within lowerer.dialect lowerer.strict expression 0 (tokens expression) lowerer.machine
  rw [Nat.zero_add] at consumed positions
  refine ⟨fun instruction member value held => ?_, fun diagnostic noted => ?_, few.of_le consumed⟩
  · have listed := List.mem_append_right lowerer.instructions member
    exact (traced.instructions instruction listed value held).fitsText widths
  · exact few.of_le (positions diagnostic noted)

/-- If all widths can be written, so can every integer in what comes of expressions that are not too long. -/
theorem Yields.fitsText {expressions : List String} {lowerings : List Lowering} {fault? : Option Fault}
    (yields : lowerer.Yields expressions lowerings fault?) (widths : lowerer.dialect.FitsText)
    (traced : ValuesTraced lowerer.dialect lowerer.instructions lowerer.machine)
    (few : ∀ expression ∈ expressions, Numeral.FitsText (tokens expression).length) :
    ∀ lowering ∈ lowerings, lowering.FitsText := by
  induction yields with
  | done | faulted => exact List.forall_mem_nil _
  | @lowered lowerer expression rest lowering lowerings fault? result onward ih =>
    obtain ⟨-, rfl⟩ := result_eq_ok.mp result
    obtain ⟨here, later⟩ := List.forall_mem_cons.mp few
    have given : ∀ token ∈ tokens expression, tokenSeparator ∉ token.toList :=
      fun token member => Text.notMem_of_mem_fields member
    have kept := (Machine.run_moves lowerer.strict expression 0 given lowerer.machine).keeps Move.keeps_traced traced
    rw [lower_lowerer] at ih
    exact List.forall_mem_cons.mpr ⟨summary_fitsText widths kept here, ih widths kept later⟩

end Lowerer

/-! ### Where widths come from -/

namespace Numeral

theorem Grouped.small {body : List Char} {digits : List Nat} (grouped : Grouped body digits) :
    ∀ digit ∈ digits, digit < 10 := by
  induction grouped with
  | last stands =>
    obtain ⟨base, member, small, -⟩ := stands
    exact List.forall_mem_singleton.mpr small
  | next stands more ih | apart stands more ih =>
    obtain ⟨base, member, small, -⟩ := stands
    exact List.forall_mem_cons.mpr ⟨small, ih⟩

theorem natAbs_withSign (negative : Bool) (size : Nat) : (withSign negative size).natAbs = size := by
  cases negative <;> simp [withSign]

/-- A text that is read as an integer gives one that can be written. -/
theorem Gives.fitsText {text : String} {number : Int} (gives : Gives text number) : FitsText number := by
  obtain ⟨negative, digits, ⟨before, sign, body, after, -, -, -, grouped⟩, few, rfl⟩ := gives
  have small : ∀ digit ∈ digits.reverse, digit < 10 := fun digit member => grouped.small digit (List.mem_reverse.mp member)
  have bounded := Nat.ofDigits_lt_base_pow_length (by decide) small
  rw [List.length_reverse] at bounded
  rw [FitsText, natAbs_withSign]
  exact bounded.trans_le (Nat.pow_le_pow_right (by decide) few)

end Numeral

namespace CommandLine
open Numeral

theorem Scan.fitsText_defaultSize {scan : Scan} {find : String → Option FileEntry} {choices : Choices}
    (checked : scan.choices find = .ok choices) {size : Int} (given : choices.defaultSize? = some size) :
    FitsText size := by
  obtain ⟨-, file?, size?, -, read, rfl⟩ := choices_eq_ok.mp checked
  obtain rfl : size? = some size := given
  cases set : scan.value? .defaultSize with
  | none =>
    rw [set] at read
    cases read
  | some text =>
    rw [set, Option.mapM_some] at read
    cases width : widthOf text with
    | error misuse =>
      rw [width] at read
      cases read
    | ok number =>
      rw [width] at read
      cases read
      exact (widthOf_eq_ok.mp width).1.fitsText

theorem Choices.fitsText_size {choices : Choices} {environment : Table String}
    (given : ∀ size, choices.defaultSize? = some size → FitsText size) {size : Int}
    (inEffect : choices.size? environment = some size) : FitsText size := by
  unfold Choices.size? at inEffect
  split at inEffect
  · rename_i chosen option
    cases inEffect
    exact given _ option
  · cases inEffect
  · rename_i read
    rw [Option.ite_none_right_eq_some] at inEffect
    obtain ⟨-, inEffect⟩ := inEffect
    cases inEffect
    obtain ⟨text, -, read⟩ := Option.bind_eq_some_iff.mp read
    exact (liberal?_eq_some.mp read).fitsText

/-- A run over a profile whose widths can be written lowers with such widths only. -/
theorem Lowers.fitsText {arguments : List String} {surroundings : Surroundings} {choices : Choices}
    {expressions : List String} {profile : Profile}
    (lowers : Lowers arguments surroundings choices expressions profile) (widths : profile.FitsText) :
    (choices.fresh surroundings.environment profile).dialect.FitsText := by
  obtain ⟨⟨scan, -, -, checked⟩, -, -, -, -⟩ := lowers
  refine ⟨widths.registers, ?_⟩
  change FitsText ((choices.size? surroundings.environment).getD profile.defaultSize)
  cases inEffect : choices.size? surroundings.environment with
  | none => exact widths.defaultSize
  | some size => exact Choices.fitsText_size (fun _ => Scan.fitsText_defaultSize checked) inEffect

/-- A run over a profile whose widths can be written, and over expressions that are not too long, comes to
nothing that could not be written. -/
theorem Lowers.yields_fitsText {arguments : List String} {surroundings : Surroundings} {choices : Choices}
    {expressions : List String} {profile : Profile} {lowerings : List Lowering} {fault? : Option Fault}
    (lowers : Lowers arguments surroundings choices expressions profile)
    (yields : (choices.fresh surroundings.environment profile).Yields expressions lowerings fault?)
    (widths : profile.FitsText) (few : ∀ expression ∈ expressions, FitsText (tokens expression).length) :
    ∀ lowering ∈ lowerings, lowering.FitsText := by
  have start : ValuesTraced (choices.fresh surroundings.environment profile).dialect [] {} := ⟨by simp, by simp⟩
  exact yields.fitsText (lowers.fitsText widths) start few

end CommandLine
end EsilLowering
