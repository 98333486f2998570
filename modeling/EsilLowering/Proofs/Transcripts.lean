import Mathlib.Data.List.Basic
import EsilLowering.CommandLine.Run
import EsilLowering.Proofs.Faults

/-! # What a run of the command line writes

A run that comes to lowering is one lowerer at work: it has the settings in effect, takes the expressions
in turn, and stops at the first fault. The two streams are the texts of its instructions and of its
diagnostics, and the fault is told behind the diagnostics of the expressions before it. -/

namespace EsilLowering

/-- A lowerer works through expressions in turn up to the first fault. It comes to the lowerings before
the fault, and to the fault if there is one. -/
inductive Lowerer.Yields : Lowerer → List String → List Lowering → Option Fault → Prop
  | done {lowerer : Lowerer} : Yields lowerer [] [] none
  | faulted {lowerer : Lowerer} {expression : String} {rest : List String} {fault : Fault}
      (result : (lowerer.lower expression).result = .error fault) :
      Yields lowerer (expression :: rest) [] (some fault)
  | lowered {lowerer : Lowerer} {expression : String} {rest : List String} {lowering : Lowering}
      {lowerings : List Lowering} {fault? : Option Fault}
      (result : (lowerer.lower expression).result = .ok lowering)
      (onward : (lowerer.lower expression).lowerer.Yields rest lowerings fault?) :
      Yields lowerer (expression :: rest) (lowering :: lowerings) fault?

namespace Lowerer
variable {lowerer : Lowerer} {expressions : List String} {lowerings : List Lowering} {fault? : Option Fault}

theorem exists_yields (lowerer : Lowerer) (expressions : List String) :
    ∃ lowerings fault?, lowerer.Yields expressions lowerings fault? := by
  induction expressions generalizing lowerer with
  | nil => exact ⟨[], none, .done⟩
  | cons expression rest ih =>
    cases result : (lowerer.lower expression).result with
    | error fault => exact ⟨[], some fault, .faulted result⟩
    | ok lowering =>
      obtain ⟨lowerings, fault?, onward⟩ := ih (lowerer.lower expression).lowerer
      exact ⟨lowering :: lowerings, fault?, .lowered result onward⟩

theorem strict_lower (lowerer : Lowerer) (expression : String) :
    (lowerer.lower expression).lowerer.strict = lowerer.strict := by
  rw [lower_lowerer]
  rfl

theorem Yields.fault_expected {fault : Fault} (yields : lowerer.Yields expressions lowerings (some fault)) :
    (∃ error, fault = .lowering error ∧ lowerer.strict = true) ∨
      ∃ refusal, fault = .refused (.tooManyDigits refusal) := by
  generalize ended : some fault = fault? at yields
  induction yields with
  | done => cases ended
  | faulted result =>
    cases ended
    rcases Machine.run_faulted (result_eq_error.mp result) with ⟨_, _, refusal, _, hfault⟩ | ⟨strict, _, _, hfault⟩
    · exact Or.inr ⟨refusal, hfault⟩
    · exact Or.inl ⟨_, hfault, strict⟩
  | lowered result onward ih =>
    rw [← strict_lower]
    exact ih ended

end Lowerer

namespace CommandLine

/-! ### Lines and texts -/

theorem textOfLines_cons (line : String) (lines : List String) :
    textOfLines (line :: lines) = line ++ "\n" ++ textOfLines lines := by
  simp [textOfLines, String.join_cons]

theorem textOfLines_singleton (line : String) : textOfLines [line] = line ++ "\n" := by
  rw [textOfLines_cons, textOfLines, List.map_nil, String.join_nil, String.append_empty]

theorem textOfLines_append (lines more : List String) :
    textOfLines (lines ++ more) = textOfLines lines ++ textOfLines more := by
  induction lines with
  | nil => simp [textOfLines]
  | cons line rest ih => simp only [List.cons_append, textOfLines_cons, ih, String.append_assoc]

/-- Leaving control sequences out of each line or out of the whole text makes no difference. -/
theorem textOfLines_plain (lines : List String) :
    textOfLines (lines.map Text.plain) = Text.plain (textOfLines lines) := by
  induction lines with
  | nil => rfl
  | cons line rest ih => rw [List.map_cons, textOfLines_cons, textOfLines_cons, ih, Text.plain_line]

/-- The texts of the instructions of some lowerings. -/
def instructionTexts (lowerings : List Lowering) : List String :=
  (lowerings.flatMap (·.instructions)).map (·.text)

/-- The texts of the diagnostics of some lowerings. -/
def diagnosticTexts (lowerings : List Lowering) : List String :=
  (lowerings.flatMap (·.diagnostics)).map (·.text)

theorem flatMap_instructionLines (lowerings : List Lowering) :
    lowerings.flatMap instructionLines = (instructionTexts lowerings).map Text.plain := by
  rw [instructionTexts, List.map_map, List.map_flatMap]
  rfl

theorem textOfLines_instructionLines (lowerings : List Lowering) :
    textOfLines (lowerings.flatMap instructionLines) = Text.plain (textOfLines (instructionTexts lowerings)) := by
  rw [flatMap_instructionLines, textOfLines_plain]

theorem flatMap_diagnosticLines (lowerings : List Lowering) :
    lowerings.flatMap diagnosticLines = (diagnosticTexts lowerings).map Text.plain := by
  rw [diagnosticTexts, List.map_map, List.map_flatMap]
  rfl

/-! ### Transcripts -/

/-- What is written of lowerings and the fault after them, apart from the log. -/
def Transcript.of (json : Bool) (lowerings : List Lowering) (fault? : Option Fault) : Transcript :=
  { out := if json then [] else lowerings.flatMap instructionLines
    err := if json then [] else lowerings.flatMap diagnosticLines
    lowerings
    fault? }

theorem transcribe_of_yields (json : Bool) {lowerer : Lowerer} {expressions : List String}
    {lowerings : List Lowering} {fault? : Option Fault} (yields : lowerer.Yields expressions lowerings fault?) :
    transcribe false json lowerer expressions = .of json lowerings fault? := by
  induction yields with
  | done => cases json <;> rfl
  | faulted result =>
    rw [transcribe, result]
    cases json <;> rfl
  | lowered result onward ih =>
    rw [transcribe, result]
    simp only [ih]
    cases json <;> rfl

/-! ### Runs that come to lowering -/

/-- The architecture in effect: the option's, else the environment's unless it is empty, else the
built-in one. -/
def Choices.architecture (choices : Choices) (environment : Table String) : String :=
  match choices.architecture?, environment.get? Settings.architectureVariable with
  | some name, _ => name
  | none, none => Profile.defaultName
  | none, some name => if name = "" then Profile.defaultName else name

/-- The width in effect, if not the profile's: the option's, else the environment's if that is a positive
integer. -/
def Choices.size? (choices : Choices) (environment : Table String) : Option Int :=
  match choices.defaultSize?, (environment.get? Settings.defaultSizeVariable).bind Numeral.liberal? with
  | some size, _ => some size
  | none, none => none
  | none, some size => if 0 < size then some size else none

/-- Whether a run is strict: by the flag, or if the environment says so. -/
def Choices.isStrict (choices : Choices) (environment : Table String) : Bool :=
  choices.strict || match environment.get? Settings.strictVariable with
    | none => false
    | some text => text.toLower ∈ ["1", "true", "yes", "on"]

/-- The lowerer that a run begins with, for the profile of the architecture in effect. -/
def Choices.fresh (choices : Choices) (environment : Table String) (profile : Profile) : Lowerer :=
  .ofProfile profile (choices.size? environment) (choices.isStrict environment)

/-- The expressions that a run is given, by one of three ways. -/
inductive Choices.Gives (choices : Choices) (input : String) : List String → Prop
  | arguments (some : choices.expressions ≠ []) (noFile : choices.file? = none) :
      Gives choices input choices.expressions
  | file {bytes : List UInt8} {text : String} (noArguments : choices.expressions = [])
      (file : choices.file? = some bytes) (decoded : Text.Utf8.decode bytes = .ok text) :
      Gives choices input (expressionsOfLines (Text.wideLines text))
  | input (noArguments : choices.expressions = []) (noFile : choices.file? = none) :
      Gives choices input (expressionsOfLines (Text.commonLines input))

/-- Arguments ask for expressions to be lowered: the options can be read and hold no request for a text,
their values are right, there is an expression, and the architecture in effect has a profile. -/
structure Lowers (arguments : List String) (surroundings : Surroundings) (choices : Choices)
    (expressions : List String) (profile : Profile) : Prop where
  asked : ∃ scan, Scan.ofArguments arguments = .ok scan ∧ scan.request? = none ∧
    scan.choices surroundings.find = .ok choices
  noListing : choices.listArchitectures = false
  given : choices.Gives surroundings.input expressions
  nonempty : expressions ≠ []
  registered : surroundings.registry.find (choices.architecture surroundings.environment) = .ok profile

section
variable {arguments : List String} {surroundings : Surroundings} {choices : Choices} {expressions : List String}
  {profile : Profile}

theorem Choices.Gives.sources {input : String} (given : choices.Gives input expressions) :
    choices.sources input = .ok expressions ∧ ¬(choices.expressions ≠ [] ∧ choices.file?.isSome) := by
  cases given with
  | arguments some noFile => simp [Choices.sources, some, noFile]
  | file noArguments file decoded => simp [Choices.sources, noArguments, file, decoded]
  | input noArguments noFile => simp [Choices.sources, noArguments, noFile]

theorem Choices.settings_eq (choices : Choices) (environment : Table String) :
    choices.settings environment =
      { architecture := choices.architecture environment
        defaultSize? := choices.size? environment
        strict := choices.isStrict environment } := by
  have architecture : (choices.settings environment).architecture = choices.architecture environment := by
    unfold Choices.settings Settings.ofEnvironment Choices.architecture
    cases choices.architecture? with
    | some name => rfl
    | none =>
      cases environment.get? Settings.architectureVariable with
      | none => rfl
      | some name => by_cases empty : name = "" <;> simp [Option.filter, empty]
  have size : (choices.settings environment).defaultSize? = choices.size? environment := by
    unfold Choices.settings Settings.ofEnvironment Choices.size? Settings.positiveSize?
    cases choices.defaultSize? with
    | some size => rfl
    | none =>
      cases environment.get? Settings.defaultSizeVariable with
      | none => rfl
      | some text =>
        cases read : Numeral.liberal? text with
        | none => simp [read]
        | some size => by_cases positive : 0 < size <;> simp [Option.filter, read, positive]
  have strict : (choices.settings environment).strict = choices.isStrict environment := by
    unfold Choices.settings Settings.ofEnvironment Choices.isStrict Settings.affirmations
    cases environment.get? Settings.strictVariable <;> simp
  rw [← architecture, ← size, ← strict]

theorem run_of_lowers (lowers : Lowers arguments surroundings choices expressions profile) :
    run arguments surroundings = choices.lower (choices.fresh surroundings.environment profile) expressions := by
  obtain ⟨⟨scan, scanned, unasked, checked⟩, noListing, given, nonempty, registered⟩ := lowers
  obtain ⟨sources, noConflict⟩ := given.sources
  have fresh : (choices.settings surroundings.environment).lowerer surroundings.registry =
      .ok (choices.fresh surroundings.environment profile) := by
    rw [Choices.settings_eq, Settings.lowerer, registered]
    rfl
  have source : run arguments surroundings = choices.run surroundings := by
    simp only [run, scanned, unasked, checked]
  obtain ⟨first, rest, rfl⟩ := List.exists_cons_of_ne_nil nonempty
  rw [source, Choices.run, noListing, if_neg (by decide), if_neg noConflict, sources]
  simp only [fresh]

theorem run_of_yields {lowerings : List Lowering} {fault? : Option Fault}
    (lowers : Lowers arguments surroundings choices expressions profile) (quiet : choices.verbose = false)
    (yields : (choices.fresh surroundings.environment profile).Yields expressions lowerings fault?) :
    run arguments surroundings = (Transcript.of choices.json lowerings fault?).outcome choices profile.name := by
  rw [run_of_lowers lowers, Choices.lower, quiet, transcribe_of_yields _ yields, if_neg (by decide)]
  rfl

end

/-! ### Faults as they are told -/

theorem faultOutcome_lowering (verbose : Bool) (error : LoweringError) :
    faultOutcome verbose (.lowering error) = { exitCode := .lowering, err := [Text.plain error.text] } := by
  obtain ⟨cause, location?⟩ := error
  rcases cause with ⟨problem⟩ | ⟨message, hint?⟩
  · cases problem <;> rfl
  · rfl

theorem faultOutcome_tooManyDigits (refusal : Numeral.TooManyDigits) :
    faultOutcome false (.refused (.tooManyDigits refusal)) =
      { exitCode := .internal, err := [Text.plain ("Internal error: " ++ refusal.message)] } := rfl

section
variable (json : Bool) (lowerings : List Lowering) {choices : Choices} (architecture : String)

theorem Transcript.outcome_lowered (asText : choices.json = false) :
    (Transcript.of false lowerings none).outcome choices architecture =
      { exitCode := if lowerings.any (·.status == .failed) then .lowering else .success
        out := lowerings.flatMap instructionLines
        err := lowerings.flatMap diagnosticLines } := by
  simp [outcome, of, asText]

theorem Transcript.outcome_written (asJson : choices.json = true) {document : String}
    (written : (runDocument architecture lowerings).document? = some document) :
    (Transcript.of true lowerings none).outcome choices architecture =
      { exitCode := if lowerings.any (·.status == .failed) then .lowering else .success
        out := [Text.plain document] } := by
  simp [outcome, of, asJson, written]

theorem Transcript.outcome_unwritten (asJson : choices.json = true)
    (unwritten : (runDocument architecture lowerings).document? = none) :
    (Transcript.of true lowerings none).outcome choices architecture =
      { exitCode := .uncaught, err := [traceLine] } := by
  simp [outcome, of, asJson, unwritten]

theorem Transcript.outcome_problem (error : LoweringError) (choices : Choices) :
    (Transcript.of json lowerings (some (.lowering error))).outcome choices architecture =
      { exitCode := .lowering
        out := if json then [] else lowerings.flatMap instructionLines
        err := (if json then [] else lowerings.flatMap diagnosticLines) ++ [Text.plain error.text] } := by
  simp [outcome, of, faultOutcome_lowering]

theorem Transcript.outcome_tooManyDigits (quiet : choices.verbose = false) (refusal : Numeral.TooManyDigits) :
    (Transcript.of json lowerings (some (.refused (.tooManyDigits refusal)))).outcome choices architecture =
      { exitCode := .internal
        out := if json then [] else lowerings.flatMap instructionLines
        err := (if json then [] else lowerings.flatMap diagnosticLines) ++
          [Text.plain ("Internal error: " ++ refusal.message)] } := by
  simp only [outcome, of, quiet, faultOutcome_tooManyDigits, List.append_nil]

end

/-- What a run tells last on the second stream, and how it ends, by what ended it. -/
inductive Closes (strict : Bool) (lowerings : List Lowering) : Option Fault → List String → ExitCode → Prop
  | success (lowered : ∀ lowering ∈ lowerings, lowering.status ≠ .failed) : Closes strict lowerings none [] .success
  | failure {lowering : Lowering} (listed : lowering ∈ lowerings) (failed : lowering.status = .failed) :
      Closes strict lowerings none [] .lowering
  | problem (error : LoweringError) (isStrict : strict = true) :
      Closes strict lowerings (some (.lowering error)) [error.text] .lowering
  | numeral (refusal : Numeral.TooManyDigits) :
      Closes strict lowerings (some (.refused (.tooManyDigits refusal)))
        ["Internal error: " ++ refusal.message] .internal

theorem closes_of_lowered (strict : Bool) (lowerings : List Lowering) :
    Closes strict lowerings none [] (if lowerings.any (·.status == .failed) then .lowering else .success) := by
  split
  · rename_i failed
    obtain ⟨lowering, listed, failed⟩ := List.any_eq_true.mp failed
    exact .failure listed (beq_iff_eq.mp failed)
  · rename_i lowered
    refine .success fun lowering listed failed => lowered ?_
    exact List.any_eq_true.mpr ⟨lowering, listed, beq_iff_eq.mpr failed⟩

/-- What a transcript comes to as text, by what ended it. -/
theorem Transcript.outcome_text {lowerer : Lowerer} {expressions : List String} {lowerings : List Lowering}
    {fault? : Option Fault} (yields : lowerer.Yields expressions lowerings fault?) {choices : Choices}
    (asText : choices.json = false) (quiet : choices.verbose = false) (architecture : String) :
    ∃ last exitCode, Closes lowerer.strict lowerings fault? last exitCode ∧
      (Transcript.of choices.json lowerings fault?).outcome choices architecture =
        { exitCode
          out := (instructionTexts lowerings).map Text.plain
          err := (diagnosticTexts lowerings).map Text.plain ++ last.map Text.plain } := by
  rw [asText, ← flatMap_instructionLines, ← flatMap_diagnosticLines]
  cases fault? with
  | none =>
    refine ⟨[], _, closes_of_lowered lowerer.strict lowerings, ?_⟩
    rw [outcome_lowered lowerings architecture asText, List.map_nil, List.append_nil]
  | some fault =>
    rcases yields.fault_expected with ⟨error, rfl, isStrict⟩ | ⟨refusal, rfl⟩
    · exact ⟨[error.text], .lowering, .problem error isStrict,
        outcome_problem false lowerings architecture error choices⟩
    · exact ⟨["Internal error: " ++ refusal.message], .internal, .numeral refusal,
        outcome_tooManyDigits false lowerings architecture quiet refusal⟩

/-- A run that comes to lowering, with its results as text and without a log, is one lowerer at work with
the settings in effect. The output is the instructions of all expressions up to the first fault, one a
line; the second stream has their diagnostics and then what the fault says. The exit code tells a lowering
that failed, an error of a strict run, and a numeral that is too long. -/
theorem run_follows_lowerer {arguments : List String} {surroundings : Surroundings} {choices : Choices}
    {expressions : List String} {profile : Profile}
    (lowers : Lowers arguments surroundings choices expressions profile)
    (asText : choices.json = false) (quiet : choices.verbose = false) :
    let lowerer := choices.fresh surroundings.environment profile
    let outcome := run arguments surroundings
    ∃ lowerings fault? last, lowerer.Yields expressions lowerings fault? ∧
      textOfLines outcome.out = Text.plain (textOfLines (instructionTexts lowerings)) ∧
      textOfLines outcome.err = Text.plain (textOfLines (diagnosticTexts lowerings ++ last)) ∧
      Closes lowerer.strict lowerings fault? last outcome.exitCode := by
  intro lowerer outcome
  obtain ⟨lowerings, fault?, yields⟩ := lowerer.exists_yields expressions
  obtain ⟨last, exitCode, closes, written⟩ := Transcript.outcome_text yields asText quiet profile.name
  have ran : outcome = _ := (run_of_yields lowers quiet yields).trans written
  refine ⟨lowerings, fault?, last, yields, ?_, ?_, ?_⟩
  · rw [ran, textOfLines_plain]
  · rw [ran, ← List.map_append, textOfLines_plain]
  · rw [ran]
    exact closes

/-- A strict run over the lines of the input ends at the second expression. -/
theorem run_follows_lowerer_example :
    let surroundings : Surroundings :=
      { input := "rax,rbx,+\n # sum\n\n rax,+,1\nrcx\n"
        environment := .ofList [("ESIL_IR_STRICT", "Yes"), ("ESIL_IR_DEFAULT_SIZE", "+32")] }
    let expressions := ["rax,rbx,+", "rax,+,1", "rcx"]
    let lowerer := Lowerer.ofProfile .builtin (some 32) true
    let outcome := run ["--arch=x86_64"] surroundings
    ∃ lowerings fault? last, lowerer.Yields expressions lowerings fault? ∧
      textOfLines outcome.out = Text.plain (textOfLines (instructionTexts lowerings)) ∧
      textOfLines outcome.err = Text.plain (textOfLines (diagnosticTexts lowerings ++ last)) ∧
      Closes lowerer.strict lowerings fault? last outcome.exitCode := by
  intro surroundings expressions lowerer outcome
  let choices : Choices :=
    { expressions := [], file? := none, architecture? := some "x86_64", defaultSize? := none
      strict := false, json := false, listArchitectures := false, verbose := false }
  have given : choices.Gives surroundings.input (expressionsOfLines (Text.commonLines surroundings.input)) :=
    .input rfl rfl
  have lines : expressionsOfLines (Text.commonLines surroundings.input) = expressions := by decide +kernel
  have lowers : Lowers ["--arch=x86_64"] surroundings choices expressions .builtin :=
    { asked := ⟨{ options := [.setting .architecture "x86_64"] }, by decide +kernel, rfl, by decide +kernel⟩
      noListing := rfl
      given := lines ▸ given
      nonempty := by decide
      registered := by decide +kernel }
  have fresh : choices.fresh surroundings.environment .builtin = lowerer := by decide +kernel
  rw [← fresh]
  exact run_follows_lowerer lowers rfl rfl

end CommandLine
end EsilLowering
