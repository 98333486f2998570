import EsilLowering.Proofs.Arguments
import EsilLowering.Proofs.Lines
import EsilLowering.Proofs.Utf8

/-! # Runs over a file

A run can be given its expressions by a file or by the input. The text of a file is cut at wide breaks and
that of the input at common ones, and this is the only difference: a run over a file is a run over an input
that has line feeds in place of the wide breaks. With the text itself as input the run is the same if both
ways to cut it take every line alike. -/

namespace EsilLowering.CommandLine

namespace Scan
variable {scan : Scan} {earlier later : List Given} {path : String}

/-! ### Naming a file -/

/-- The ways to name a file among the arguments. -/
inductive NamesFile (path : String) : List String → Prop
  | long : NamesFile path ["--file", path]
  | joined : NamesFile path ["--file=" ++ path]
  | short : NamesFile path ["-f", path]
  | attached (nonempty : path ≠ "") : NamesFile path ["-f" ++ path]

theorem read_attached (ready : scan.Ready) (nonempty : path ≠ "") :
    scan.read ("-f" ++ path) = .ok (scan.give (.setting .file path)) := by
  have chars : ("-f" ++ path).toList = '-' :: 'f' :: path.toList := by
    rw [String.toList_append]
    rfl
  have unnamed : longSwitch? (String.ofList (('-' :: 'f' :: path.toList).takeWhile (· ≠ '='))) = none := by
    cases named : longSwitch? _ with
    | none => rfl
    | some switch =>
      obtain ⟨⟨letter, rest, hyphened⟩, -⟩ := longSwitch?_name named
      simp [List.takeWhile] at hyphened
  have letters : path.toList ≠ [] := fun none => nonempty (String.toList_eq_nil_iff.mp none)
  rw [read_option ready chars (by simp), readOption, chars]
  simp only [unnamed]
  rw [if_neg (by simp)]
  simp [readLetters, shortSwitch?, letters]

theorem NamesFile.reads {arguments : List String} (names : NamesFile path arguments) :
    Reads arguments (.setting .file path) := by
  have named : longSwitch? "--file" = some (.setting .file) := rfl
  cases names with
  | long => exact reads_apart named path
  | joined => exact reads_joined named (by rw [String.toList_append]; rfl)
  | short =>
    have letter (scan : Scan) (ready : scan.Ready) :
        scan.read "-f" = .ok { scan with due? := some (.file, "-f") } := by
      rw [read_option ready rfl (by decide)]
      rfl
    exact reads_two letter path
  | attached nonempty => exact reads_one fun scan ready => read_attached ready nonempty

theorem choices_insert_file {find : String → Option FileEntry} {bytes : List UInt8}
    (split : scan.options = earlier ++ later) (unset : scan.value? .file = none)
    (found : find path = some (.file bytes)) :
    (scan.withOptions (earlier ++ .setting .file path :: later)).choices find =
      (scan.choices find).map fun choices => { choices with file? := some bytes } := by
  let named := scan.withOptions (earlier ++ .setting .file path :: later)
  have file : named.value? .file = some path := value?_insert_setting split path unset
  have architecture : named.value? .architecture = scan.value? .architecture :=
    value?_insert_other split path (by decide)
  have width : named.value? .defaultSize = scan.value? .defaultSize := value?_insert_other split path (by decide)
  have read : fileBytes find path = .ok bytes := by rw [fileBytes, found]
  have checks : named.settings.forM (checkSetting find named) = scan.settings.forM (checkSetting find scan) := by
    rw [forM_checkSetting (by simp only [checkSetting, file, read]; rfl),
      forM_checkSetting (by simp only [checkSetting, unset])]
    simp only [checkSetting, width]
  have held : (some path).mapM (fileBytes find) = .ok (some bytes) := by
    rw [Option.mapM_some, read]
    rfl
  have flags (flag : Flag) : named.has flag = scan.has flag := has_insert_setting split path flag
  change named.choices find = _
  unfold Scan.choices
  rw [checks, file, held, unset, architecture, width, flags, flags, flags, flags]
  cases scan.settings.forM (checkSetting find scan) with
  | error misuse => rfl
  | ok =>
    cases (scan.value? .defaultSize).mapM widthOf with
    | error misuse => rfl
    | ok size? => rfl

end Scan

section
variable {surroundings : Surroundings} {path text input : String}

/-- A file comes to the same as an input that the same expressions are found in. -/
theorem Choices.run_file {choices : Choices} (noArguments : choices.expressions = []) (noFile : choices.file? = none)
    (same : expressionsOfLines (Text.wideLines text) = expressionsOfLines (Text.commonLines input)) :
    ({ choices with file? := some (Text.Utf8.encode text) } : Choices).run surroundings =
      choices.run { surroundings with input } := by
  have sources : ({ choices with file? := some (Text.Utf8.encode text) } : Choices).sources surroundings.input =
      choices.sources input := by
    simp [Choices.sources, noArguments, noFile, Text.Utf8.decode_encode, same]
  unfold Choices.run
  rw [sources]
  simp only [noArguments, noFile]
  rfl

theorem run_file {before after given : List String} (ready : Scan.ReadyAfter before)
    (names : Scan.NamesFile path given)
    (sourceless : ∀ scan, Scan.ofArguments (before ++ after) = .ok scan →
      scan.expressions = [] ∧ scan.value? .file = none)
    (found : surroundings.find path = some (.file (Text.Utf8.encode text)))
    (same : expressionsOfLines (Text.wideLines text) = expressionsOfLines (Text.commonLines input)) :
    run (before ++ (given ++ after)) surroundings = run (before ++ after) { surroundings with input } := by
  obtain ⟨count, inserted⟩ := Scan.ofArguments_insert after ready names.reads
  let named (choices : Choices) : Choices := { choices with file? := some (Text.Utf8.encode text) }
  refine run_congr named inserted fun scan scanned => ?_
  obtain ⟨noArguments, unset⟩ := sourceless scan scanned
  have split := (List.take_append_drop count scan.options).symm
  have choices := Scan.choices_insert_file split unset found
  refine ⟨Scan.request?_insert_setting split path, choices, fun choices _ checked => ?_⟩
  obtain ⟨expressions, noFile⟩ := Choices.file?_eq_none unset checked
  exact Choices.run_file (expressions.trans noArguments) noFile same

/-- A run over a file is a run over an input that has line feeds in place of all wide breaks. From the text
as it stands both read the same expressions exactly if they take every line of it alike, and then both runs
are the same. -/
theorem file_cut_at_wide_breaks {before after given : List String} (ready : Scan.ReadyAfter before)
    (names : Scan.NamesFile path given)
    (sourceless : ∀ scan, Scan.ofArguments (before ++ after) = .ok scan →
      scan.expressions = [] ∧ scan.value? .file = none)
    (found : surroundings.find path = some (.file (Text.Utf8.encode text))) :
    let fromFile := run (before ++ (given ++ after)) surroundings
    let fromInput := fun input => run (before ++ after) { surroundings with input }
    fromFile = fromInput (Text.narrowBreaks text) ∧
    (∀ choices : Choices, choices.expressions = [] → choices.file? = none →
      (({ choices with file? := some (Text.Utf8.encode text) } : Choices).sources surroundings.input =
          choices.sources text ↔
        ∀ line ∈ Text.commonLines text, TakenAlike line)) ∧
    ((∀ line ∈ Text.commonLines text, TakenAlike line) → fromFile = fromInput text) := by
  intro fromFile fromInput
  refine ⟨?_, fun choices noArguments noFile => ?_, fun alike => ?_⟩
  · exact run_file ready names sourceless found (expressionsOfLines_narrowBreaks text).symm
  · rw [← wideLines_iff_takenAlike]
    simp [Choices.sources, noArguments, noFile, Text.Utf8.decode_encode]
  · exact run_file ready names sourceless found ((wideLines_iff_takenAlike text).mpr alike)

end

/-- Wide breaks around an expression and inside a comment are taken alike. -/
theorem file_cut_at_wide_breaks_example :
    let text := "\x0crax,rbx,+\x0b\r\n# sum \x0c# of two\r\x1crcx,1,-"
    let find := fun path => if path = "trace" then some (FileEntry.file (Text.Utf8.encode text)) else none
    run ["-a", "x86_64", "--file=trace", "--json"] { find } = run ["-a", "x86_64", "--json"] { find, input := text } := by
  intro text find
  have ready : Scan.ReadyAfter ["-a", "x86_64"] :=
    ⟨{ options := [.setting .architecture "x86_64"] }, by decide +kernel, rfl, rfl⟩
  have sourceless : ∀ scan, Scan.ofArguments (["-a", "x86_64"] ++ ["--json"]) = .ok scan →
      scan.expressions = [] ∧ scan.value? .file = none := by
    intro scan scanned
    have read : Scan.ofArguments (["-a", "x86_64"] ++ ["--json"]) =
        .ok { options := [.setting .architecture "x86_64", .flag .json] } := by decide +kernel
    cases read.symm.trans scanned
    decide
  have found : ({ find } : Surroundings).find "trace" = some (.file (Text.Utf8.encode text)) := rfl
  have alike : ∀ line ∈ Text.commonLines text, TakenAlike line := by decide +kernel
  obtain ⟨-, -, same⟩ := file_cut_at_wide_breaks ready .joined sourceless found
  exact same alike

/-- A form feed ends an expression in a file but not in the input. -/
theorem form_feed_cuts_files_only :
    let text := "rax,rbx,+\x0crcx,1,-\n"
    let find := fun path => if path = "trace" then some (FileEntry.file (Text.Utf8.encode text)) else none
    (run ["--file", "trace"] { find }).out = ["tmp_1 = rax + rbx", "tmp_2 = rcx - 1"] ∧
      (run [] { input := text }).out = ["tmp_1 = +\x0crcx - 1"] := by
  decide +kernel

end EsilLowering.CommandLine
