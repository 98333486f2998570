import EsilLowering.Proofs.Coherence
import EsilLowering.Proofs.DocumentNumbers
import EsilLowering.Proofs.Strictness

/-! # Strict runs of the command line

The option that asks for strictness cuts a run at its first diagnostic. Up to the expression with that
diagnostic the two runs write the same. There the strict run tells the diagnostic and ends; of the
expression itself it writes nothing. -/

namespace EsilLowering

/-! ### One expression -/

namespace Lowerer
variable {lowerer : Lowerer} {expression : String} {lowering : Lowering}

theorem lower_strict_of_clean (lenient : lowerer.strict = false)
    (result : (lowerer.lower expression).result = .ok lowering) (clean : lowering.diagnostics = []) :
    ({ lowerer with strict := true }.lower expression).result = .ok lowering ∧
      ({ lowerer with strict := true }.lower expression).lowerer =
        { (lowerer.lower expression).lowerer with strict := true } := by
  obtain ⟨ends, hsummary⟩ := result_eq_ok.mp result
  have none : (lowerer.run expression).diagnostics = [] := by
    rw [← hsummary] at clean
    exact clean
  have same : { lowerer with strict := true }.run expression = lowerer.run expression := by
    rw [run, lenient] at none
    rw [run, run, lenient]
    exact Machine.run_strict_of_clean none
  constructor
  · rw [result_eq_ok, same]
    exact ⟨ends, hsummary⟩
  · rw [lower_lowerer, lower_lowerer, same]
    rfl

theorem lower_strict_of_noted (lenient : lowerer.strict = false)
    (result : (lowerer.lower expression).result = .ok lowering) {first : Diagnostic} {later : List Diagnostic}
    (noted : lowering.diagnostics = first :: later) :
    ({ lowerer with strict := true }.lower expression).result = .error (.lowering first.error) := by
  obtain ⟨-, hsummary⟩ := result_eq_ok.mp result
  have found : (lowerer.run expression).diagnostics = first :: later := by
    rw [← hsummary] at noted
    exact noted
  rw [run, lenient] at found
  obtain ⟨-, -, -, -, -, -, ending, -⟩ := Machine.run_strict_of_first found
  exact result_eq_error.mpr ending

/-! ### Expressions in turn -/

/-- A strict lowerer comes to the same as a lenient one that notes nothing. Else it comes to the lowerings
before the first that has a diagnostic, and then to the error of that diagnostic. -/
theorem Yields.strict_cut {expressions : List String} {lowerings : List Lowering}
    (yields : lowerer.Yields expressions lowerings none) (lenient : lowerer.strict = false) :
    (lowerings.flatMap (·.diagnostics) = [] ∧ { lowerer with strict := true }.Yields expressions lowerings none) ∨
    ∃ clean noted rest first later, lowerings = clean ++ noted :: rest ∧
      clean.flatMap (·.diagnostics) = [] ∧ noted.diagnostics = first :: later ∧
      { lowerer with strict := true }.Yields expressions clean (some (.lowering first.error)) := by
  generalize ended : none = fault? at yields
  induction yields with
  | done => exact Or.inl ⟨rfl, .done⟩
  | faulted => cases ended
  | @lowered lowerer expression rest lowering lowerings fault? result onward ih =>
    cases notes : lowering.diagnostics with
    | cons first later =>
      exact Or.inr ⟨[], lowering, lowerings, first, later, rfl, rfl, notes,
        .faulted (lower_strict_of_noted lenient result notes)⟩
    | nil =>
      obtain ⟨same, left⟩ := lower_strict_of_clean lenient result notes
      have next := ih ((strict_lower lowerer expression).trans lenient) ended
      rw [← left] at next
      rcases next with ⟨none, yields⟩ | ⟨clean, noted, others, first, later, rfl, none, notes', yields⟩
      · exact Or.inl ⟨by rw [List.flatMap_cons, notes, none]; rfl, .lowered same yields⟩
      · exact Or.inr ⟨lowering :: clean, noted, others, first, later, rfl,
          by rw [List.flatMap_cons, notes, none]; rfl, notes', .lowered same yields⟩

theorem Yields.lowered_of_clean {expressions : List String} {lowerings : List Lowering} {fault? : Option Fault}
    (yields : lowerer.Yields expressions lowerings fault?) (lenient : lowerer.strict = false)
    (clean : lowerings.flatMap (·.diagnostics) = []) : ∀ lowering ∈ lowerings, lowering.status ≠ .failed := by
  induction yields with
  | done => simp
  | faulted => simp
  | @lowered lowerer expression rest lowering lowerings fault? result onward ih =>
    obtain ⟨none, later⟩ := List.append_eq_nil_iff.mp clean
    have success : lowering.status = .success := (coherent_of_result lenient result).success.mpr none
    refine List.forall_mem_cons.mpr ⟨by rw [success]; decide, ?_⟩
    exact ih ((strict_lower lowerer expression).trans lenient) later

end Lowerer

namespace CommandLine

/-! ### Two runs -/

section
variable {before after : List String} {surroundings : Surroundings} {choices : Choices} {expressions : List String}
  {profile : Profile}

theorem Lowers.strict (lowers : Lowers (before ++ after) surroundings choices expressions profile)
    (ready : Scan.ReadyAfter before) :
    Lowers (before ++ "--strict" :: after) surroundings { choices with strict := true } expressions profile := by
  obtain ⟨⟨scan, scanned, unasked, checked⟩, noListing, given, nonempty, registered⟩ := lowers
  obtain ⟨count, scanned'⟩ := Scan.ofArguments_insert after ready Scan.reads_strict
  have split := (List.take_append_drop count scan.options).symm
  rw [scanned] at scanned'
  have unasked' := (Scan.request?_insert split .strict (by decide)).trans unasked
  have given' : ({ choices with strict := true } : Choices).Gives surroundings.input expressions := by
    cases given with
    | arguments some noFile => exact .arguments some noFile
    | file noArguments file decoded => exact .file noArguments file decoded
    | input noArguments noFile => exact .input noArguments noFile
  exact ⟨⟨_, scanned', unasked', Scan.choices_insert_strict split checked⟩, noListing, given', nonempty, registered⟩

/-- A lenient run without a log that ends with 0 or 1 comes to lowerings of all its expressions: its only fault
has an exit code of its own. -/
theorem Lowers.exists_lowerings (lowers : Lowers (before ++ after) surroundings choices expressions profile)
    (lenient : choices.isStrict surroundings.environment = false) (quiet : choices.verbose = false)
    (exits : (run (before ++ after) surroundings).exitCode.toNat ≤ 1) :
    ∃ lowerings, (choices.fresh surroundings.environment profile).Yields expressions lowerings none := by
  obtain ⟨lowerings, fault?, yields⟩ := (choices.fresh surroundings.environment profile).exists_yields expressions
  cases fault? with
  | none => exact ⟨lowerings, yields⟩
  | some fault =>
    rcases yields.fault_expected with ⟨error, -, isStrict⟩ | ⟨refusal, rfl⟩
    · cases lenient.symm.trans isStrict
    · rw [run_of_yields lowers quiet yields, Transcript.outcome_tooManyDigits _ _ _ quiet] at exits
      simp [ExitCode.toNat] at exits

/-- If all expressions were lowered, a run succeeds unless it has a document to write that cannot be written. -/
theorem success_iff_of_lowered {lowerings : List Lowering}
    (lowered : ∀ lowering ∈ lowerings, lowering.status ≠ .failed) (choices : Choices) (architecture : String) :
    ((Transcript.of choices.json lowerings none).outcome choices architecture).exitCode = .success ↔
      (choices.json = true → ∀ lowering ∈ lowerings, lowering.FitsText) := by
  have unfailed : lowerings.any (·.status == .failed) = false :=
    List.any_eq_false.mpr fun lowering listed failed => lowered lowering listed (beq_iff_eq.mp failed)
  cases format : choices.json with
  | false => simp [Transcript.outcome_lowered lowerings architecture format, unfailed]
  | true =>
    rw [← exists_runDocument architecture]
    cases written : (runDocument architecture lowerings).document? with
    | none => simp [Transcript.outcome_unwritten lowerings architecture format written]
    | some document => simp [Transcript.outcome_written lowerings architecture format written, unfailed]

theorem outcome_of_silent {lowerings : List Lowering} (silent : lowerings.flatMap (·.diagnostics) = [])
    (json : Bool) (error : LoweringError) (choices : Choices) (architecture : String) :
    (Transcript.of json lowerings (some (.lowering error))).outcome choices architecture =
      { exitCode := .lowering
        out := if json then [] else lowerings.flatMap instructionLines
        err := [Text.plain error.text] } := by
  rw [Transcript.outcome_problem, flatMap_diagnosticLines, diagnosticTexts, silent]
  simp

theorem diagnostics_of_cut {clean : List Lowering} {noted : Lowering} {first : Diagnostic} {later : List Diagnostic}
    (silent : clean.flatMap (·.diagnostics) = []) (notes : noted.diagnostics = first :: later) (rest : List Lowering) :
    (clean ++ noted :: rest).flatMap (·.diagnostics) = first :: (later ++ rest.flatMap (·.diagnostics)) := by
  rw [List.flatMap_append, silent, List.flatMap_cons, notes]
  rfl

/-- A lenient run that ends with 0 or 1 and has no log comes to lowerings of all its expressions. With the
option for strictness at any place where options are looked for, the run does the same if there are no
diagnostics. It succeeds exactly if there are none and the document, if it is to write one, can be written.
Otherwise it fails with the text of the first diagnostic, with which the lenient run begins its second stream
unless it writes a document. Of the output it has the texts of the expressions before that diagnostic, or nothing
in place of a document. Only a width of the profile or an expression that is too long can keep a document from
being written. -/
theorem strict_cuts_run (lowers : Lowers (before ++ after) surroundings choices expressions profile)
    (ready : Scan.ReadyAfter before) (lenient : choices.isStrict surroundings.environment = false)
    (quiet : choices.verbose = false) (exits : (run (before ++ after) surroundings).exitCode.toNat ≤ 1) :
    let loose := run (before ++ after) surroundings
    let strict := run (before ++ "--strict" :: after) surroundings
    ∃ lowerings, (choices.fresh surroundings.environment profile).Yields expressions lowerings none ∧
      (strict.exitCode = .success ↔ lowerings.flatMap (·.diagnostics) = [] ∧
        (choices.json = true → ∀ lowering ∈ lowerings, lowering.FitsText)) ∧
      (lowerings.flatMap (·.diagnostics) = [] → strict = loose) ∧
      (∀ first later, lowerings.flatMap (·.diagnostics) = first :: later →
        strict.exitCode = .lowering ∧
        textOfLines strict.err = Text.plain (first.text ++ "\n") ∧
        (choices.json = true → strict.out = []) ∧
        (choices.json = false →
          textOfLines loose.err = textOfLines strict.err ++ Text.plain (textOfLines (later.map (·.text))) ∧
          ∃ clean noted rest, lowerings = clean ++ noted :: rest ∧ clean.flatMap (·.diagnostics) = [] ∧
            noted.diagnostics.head? = some first ∧
            textOfLines strict.out = Text.plain (textOfLines (instructionTexts clean)) ∧
            textOfLines loose.out =
              textOfLines strict.out ++ Text.plain (textOfLines (instructionTexts (noted :: rest))))) ∧
      (profile.FitsText → (∀ expression ∈ expressions, Numeral.FitsText (tokens expression).length) →
        ∀ lowering ∈ lowerings, lowering.FitsText) := by
  intro loose strict
  obtain ⟨lowerings, yields⟩ := lowers.exists_lowerings lenient quiet exits
  have looseRan : loose = (Transcript.of choices.json lowerings none).outcome choices profile.name :=
    run_of_yields lowers quiet yields
  have possible := lowers.yields_fitsText yields
  refine ⟨lowerings, yields, ?_⟩
  rcases yields.strict_cut lenient with
    ⟨silent, strictYields⟩ | ⟨clean, noted, rest, first, later, rfl, silent, notes, strictYields⟩
  · have same : strict = loose := (run_of_yields (lowers.strict ready) quiet strictYields).trans looseRan.symm
    have success := success_iff_of_lowered (yields.lowered_of_clean lenient silent) choices profile.name
    rw [← looseRan, ← same] at success
    refine ⟨success.trans (iff_and_self.mpr fun _ => silent), fun _ => same, fun first later noted => ?_, possible⟩
    rw [silent] at noted
    cases noted
  · have strictRan : strict = _ := (run_of_yields (lowers.strict ready) quiet strictYields).trans
      (outcome_of_silent silent choices.json first.error _ profile.name)
    have failed : strict.exitCode = .lowering := by rw [strictRan]
    have unsuccessful : strict.exitCode ≠ .success := by simp [failed]
    have found := diagnostics_of_cut silent notes rest
    have unclean : (clean ++ noted :: rest).flatMap (·.diagnostics) ≠ [] := by simp [found]
    refine ⟨iff_of_false unsuccessful fun both => unclean both.1, (absurd · unclean), ?_, possible⟩
    intro other more hfound
    obtain ⟨rfl, rfl⟩ := List.cons.inj (found.symm.trans hfound)
    have strictErr : strict.err = [Text.plain first.text] := by
      rw [strictRan]
      rfl
    have told : textOfLines strict.err = Text.plain (first.text ++ "\n") := by
      rw [strictErr, ← textOfLines_singleton, ← textOfLines_plain]
      rfl
    refine ⟨failed, told, fun document => by rw [strictRan, document]; rfl, fun asText => ?_⟩
    rw [asText, Transcript.outcome_lowered _ _ asText] at looseRan
    have strictOut : strict.out = clean.flatMap instructionLines := by
      rw [strictRan, asText]
      rfl
    have looseErr : loose.err =
        strict.err ++ ((later ++ rest.flatMap (·.diagnostics)).map (·.text)).map Text.plain := by
      rw [looseRan, flatMap_diagnosticLines, diagnosticTexts, found, strictErr]
      rfl
    refine ⟨?_, clean, noted, rest, rfl, silent, by rw [notes]; rfl, ?_, ?_⟩
    · rw [looseErr, textOfLines_append, textOfLines_plain]
    · rw [strictOut, textOfLines_instructionLines]
    · rw [looseRan, strictOut, List.flatMap_append, textOfLines_append, textOfLines_instructionLines (noted :: rest)]

end

/-- The second of three expressions runs out of operands. -/
theorem strict_cuts_run_example :
    let arguments := ["rax,rbx,+", "rsp,*,+", "rcx"]
    let loose := run arguments {}
    let strict := run ("--strict" :: arguments) {}
    loose.exitCode = .success ∧ strict.exitCode = .lowering ∧
      (∃ more, textOfLines loose.err = textOfLines strict.err ++ more) ∧
      ∃ more, textOfLines loose.out = textOfLines strict.out ++ more := by
  intro arguments loose strict
  let choices : Choices :=
    { expressions := arguments, file? := none, architecture? := none, defaultSize? := none
      strict := false, json := false, listArchitectures := false, verbose := false }
  have lowers : Lowers ([] ++ arguments) {} choices arguments .builtin :=
    { asked := ⟨{ expressions := arguments }, by decide +kernel, rfl, by decide +kernel⟩
      noListing := rfl
      given := .arguments (by decide) rfl
      nonempty := by decide
      registered := by decide +kernel }
  have succeeded : loose.exitCode = .success := by decide +kernel
  have failed : strict.exitCode = .lowering := by decide +kernel
  have exits : loose.exitCode.toNat ≤ 1 := by simp [succeeded, ExitCode.toNat]
  obtain ⟨lowerings, -, success, -, cut, -⟩ := strict_cuts_run lowers Scan.readyAfter_nil rfl rfl exits
  have noted : lowerings.flatMap (·.diagnostics) ≠ [] := by
    intro silent
    have succeeds : strict.exitCode = .success := success.mpr ⟨silent, nofun⟩
    cases failed.symm.trans succeeds
  obtain ⟨first, later, found⟩ := List.exists_cons_of_ne_nil noted
  obtain ⟨-, -, -, text⟩ := cut first later found
  obtain ⟨err, clean, noted, rest, -, -, -, -, out⟩ := text rfl
  exact ⟨succeeded, failed, ⟨_, err⟩, _, out⟩

end CommandLine
end EsilLowering
