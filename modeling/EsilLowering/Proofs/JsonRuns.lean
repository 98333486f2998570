import Mathlib.Data.List.Forall2
import EsilLowering.Proofs.DocumentNumbers

/-! # Runs that write a document

A run with its results as JSON writes one document, which has no escape character in it to be left out. What
the document holds is the architecture and what came of each expression. Only an integer that is too long to be
written keeps a run from it, and no integer is if the widths of the profile are not. -/

namespace EsilLowering
open Json

/-! ### What a document tells -/

/-- A reading tells a value. -/
def TellsValue (reading : Reading) (value : Value) : Prop :=
  reading = .object [
    ("name", .text value.name),
    ("size", .number value.size 0),
    ("location", .text value.location.word),
    ("value", .number value.literal 0)]

/-- A reading tells an instruction, with its operands. -/
def TellsInstruction (reading : Reading) (instruction : Instruction) : Prop :=
  ∃ destination first second,
    TellsValue destination instruction.destination ∧ TellsValue first instruction.first ∧
      TellsValue second instruction.second ∧
      reading = .object [
        ("text", .text instruction.text),
        ("opcode", .text instruction.opcode.symbol),
        ("arity", .number instruction.opcode.arity.toNat 0),
        ("destination", destination),
        ("operand_1", first),
        ("operand_2", second)]

/-- A reading tells a diagnostic. -/
def TellsDiagnostic (reading : Reading) (diagnostic : Diagnostic) : Prop :=
  reading = .object [
    ("kind", .text diagnostic.kind.word),
    ("message", .text diagnostic.message),
    ("token", .text diagnostic.token),
    ("position", .number diagnostic.position 0)]

/-- A reading tells what came of an expression. -/
def TellsLowering (reading : Reading) (lowering : Lowering) : Prop :=
  ∃ instructions diagnostics,
    List.Forall₂ TellsInstruction instructions lowering.instructions ∧
      List.Forall₂ TellsDiagnostic diagnostics lowering.diagnostics ∧
      reading = .object [
        ("expression", .text lowering.expression),
        ("status", .text lowering.status.word),
        ("instructions", .list instructions),
        ("diagnostics", .list diagnostics),
        ("tokens_consumed", .number lowering.tokensConsumed 0)]

/-- A reading tells an architecture and what came of some expressions for it. -/
def TellsRun (reading : Reading) (architecture : String) (lowerings : List Lowering) : Prop :=
  ∃ results, List.Forall₂ TellsLowering results lowerings ∧
    reading = .object [("architecture", .text architecture), ("results", .list results)]

theorem forall₂_reading {α : Type} {json : α → Json} {Tells : Reading → α → Prop}
    (tells : ∀ x, Tells (json x).reading x) (xs : List α) :
    List.Forall₂ Tells ((xs.map json).map Json.reading) xs := by
  rw [List.map_map, List.forall₂_map_left_iff, List.forall₂_same]
  exact fun x _ => tells x

theorem tellsValue (value : Value) : TellsValue value.json.reading value := by
  simp [TellsValue, Value.json, Json.reading]

theorem tellsInstruction (instruction : Instruction) : TellsInstruction instruction.json.reading instruction := by
  refine ⟨_, _, _, tellsValue _, tellsValue _, tellsValue _, ?_⟩
  simp [Instruction.json, Json.reading]

theorem tellsDiagnostic (diagnostic : Diagnostic) : TellsDiagnostic diagnostic.json.reading diagnostic := by
  simp [TellsDiagnostic, Diagnostic.json, Json.reading]

theorem tellsLowering (lowering : Lowering) : TellsLowering lowering.json.reading lowering := by
  refine ⟨_, _, forall₂_reading tellsInstruction _, forall₂_reading tellsDiagnostic _, ?_⟩
  simp [Lowering.json, Json.reading]

theorem tellsRun (architecture : String) (lowerings : List Lowering) :
    TellsRun (runDocument architecture lowerings).reading architecture lowerings := by
  refine ⟨_, forall₂_reading tellsLowering lowerings, ?_⟩
  simp [runDocument, Json.reading]

theorem Lowerer.Yields.expressions_eq {lowerer : Lowerer} {expressions : List String} {lowerings : List Lowering}
    (yields : lowerer.Yields expressions lowerings none) : lowerings.map (·.expression) = expressions := by
  generalize ended : none = fault? at yields
  induction yields with
  | done => rfl
  | faulted => cases ended
  | lowered result onward ih =>
    obtain ⟨-, rfl⟩ := result_eq_ok.mp result
    rw [List.map_cons, ih ended]
    rfl

namespace CommandLine

theorem ascii_document {json : Json} {document : String} (written : json.document? = some document) :
    ∀ c ∈ document.toList, c.toNat < 0x80 ∧ c ≠ Text.escape := by
  obtain ⟨chars, rendered, rfl⟩ := Option.map_eq_some_iff.mp written
  intro c member
  rw [String.toList_ofList] at member
  have plain := isPlain_render? json rendered c member
  constructor
  · rcases plain with rfl | ⟨-, high⟩
    · decide
    · omega
  · rintro rfl
    exact absurd plain (by decide)

theorem plain_document {json : Json} {document : String} (written : json.document? = some document) :
    Text.plain document = document :=
  Text.plain_eq_self fun member => (ascii_document written _ member).2 rfl

/-- A run comes to lowerings of all its expressions and has its results as JSON, without a log. If every integer
of the results can be written, it writes one document and a line feed. The document is ASCII and has no escape
character. It holds one reading, which tells the architecture and in order what came of each expression. If some
integer is too long, there is no document, and the run ends uncaught. That does not happen if the widths of the
profile can be written, for expressions that are not too long. -/
theorem run_writes_document {arguments : List String} {surroundings : Surroundings} {choices : Choices}
    {expressions : List String} {profile : Profile} {lowerings : List Lowering}
    (lowers : Lowers arguments surroundings choices expressions profile) (asJson : choices.json = true)
    (quiet : choices.verbose = false)
    (yields : (choices.fresh surroundings.environment profile).Yields expressions lowerings none) :
    let outcome := run arguments surroundings
    ((∀ lowering ∈ lowerings, lowering.FitsText) →
      ∃ document reading, textOfLines outcome.out = document ++ "\n" ∧
        (∀ c ∈ document.toList, c.toNat < 0x80 ∧ c ≠ Text.escape) ∧
        (∀ other, Holds document other ↔ other = reading) ∧
        TellsRun reading profile.name lowerings ∧ lowerings.map (·.expression) = expressions) ∧
    ((∃ lowering ∈ lowerings, ¬lowering.FitsText) →
      outcome = { exitCode := .uncaught, err := [traceLine] }) ∧
    (profile.FitsText → (∀ expression ∈ expressions, Numeral.FitsText (tokens expression).length) →
      ∀ lowering ∈ lowerings, lowering.FitsText) := by
  intro outcome
  have ran : outcome = (Transcript.of true lowerings none).outcome choices profile.name := by
    rw [← asJson]
    exact run_of_yields lowers quiet yields
  refine ⟨fun fits => ?_, fun ⟨lowering, listed, long⟩ => ?_, lowers.yields_fitsText yields⟩
  · obtain ⟨document, written⟩ := (exists_runDocument profile.name lowerings).mpr fits
    refine ⟨document, _, ?_, ascii_document written, fun other => document?_holds_iff written,
      tellsRun profile.name lowerings, yields.expressions_eq⟩
    rw [ran, Transcript.outcome_written _ _ asJson written, plain_document written, textOfLines_singleton]
  · have unwritten : (runDocument profile.name lowerings).document? = none := by
      rw [Option.eq_none_iff_forall_ne_some]
      exact fun document written => long ((exists_runDocument profile.name lowerings).mp ⟨document, written⟩ _ listed)
    rw [ran, Transcript.outcome_unwritten _ _ asJson unwritten]

/-- A register whose width has one digit too many. -/
example :
    let wide : Profile := { name := "wide", registers := Table.empty.insert "w" (10 ^ 4300) }
    let registry : Registry := ⟨Table.empty.insert "wide" wide⟩
    run ["--json", "-a", "wide", "w,w,+"] { registry } = { exitCode := .uncaught, err := [traceLine] } := by
  decide +kernel

/-- An operand with a quote, a backslash, a control sequence and a character beyond sixteen bits. -/
theorem run_writes_document_example :
    let expression := "rax,\"\\\x7f\x1b[31m😀,+"
    let outcome := run ["--json", expression] {}
    ∃ document reading lowerings, textOfLines outcome.out = document ++ "\n" ∧
      (∀ c ∈ document.toList, c.toNat < 0x80 ∧ c ≠ Text.escape) ∧
      (∀ other, Holds document other ↔ other = reading) ∧
      TellsRun reading "x86_64" lowerings ∧ lowerings.map (·.expression) = [expression] := by
  intro expression outcome
  let choices : Choices :=
    { expressions := [expression], file? := none, architecture? := none, defaultSize? := none
      strict := false, json := true, listArchitectures := false, verbose := false }
  have lowers : Lowers ["--json", expression] {} choices [expression] .builtin :=
    { asked := ⟨{ options := [.flag .json], expressions := [expression] }, by decide +kernel, rfl, by decide +kernel⟩
      noListing := rfl
      given := .arguments (by decide) rfl
      nonempty := by decide
      registered := by decide +kernel }
  have succeeds : ((choices.fresh .empty .builtin).lower expression).result.isOk = true := by decide +kernel
  cases result : ((choices.fresh .empty .builtin).lower expression).result with
  | error fault =>
    rw [result] at succeeds
    cases succeeds
  | ok lowering =>
    obtain ⟨whole, -, possible⟩ := run_writes_document lowers rfl rfl (.lowered result .done)
    have few : ∀ given ∈ [expression], Numeral.FitsText (tokens given).length :=
      List.forall_mem_singleton.mpr (.of_fitsWord ⟨by decide +kernel, by decide +kernel⟩)
    obtain ⟨document, reading, written⟩ := whole (possible Profile.fitsText_builtin few)
    exact ⟨document, reading, [lowering], written⟩

end CommandLine
end EsilLowering
