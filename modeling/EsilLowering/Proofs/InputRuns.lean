import EsilLowering.Proofs.FileRuns

/-! # Runs over arguments and over the input

The same expressions can be given as arguments or as lines of the input. A line may have blanks around its
expression, lines without an expression may stand anywhere, and every line may end in its own way: what is
found is the same, and so is the run. Only options that name a file tell the two apart: expressions beside a
file are refused, and an input is not looked at. -/

namespace EsilLowering

namespace CommandLine

/-! ### Lines of expressions -/

/-- Characters without a common break among them. -/
structure Unbroken (chars : List Char) : Prop where
  noFeed : '\n' ∉ chars
  noReturn : '\r' ∉ chars

/-- An expression that is found again on a line: it has no blank at its ends, is no comment and has no break
in it. -/
structure FitsLine (expression : String) : Prop where
  nonempty : expression ≠ ""
  begins : ∀ c ∈ expression.toList.head?, Text.isBlank c = false
  ends : ∀ c ∈ expression.toList.getLast?, Text.isBlank c = false
  noComment : expression.toList.head? ≠ some '#'
  unbroken : Unbroken expression.toList

instance (expression : String) : Decidable (FitsLine expression) :=
  decidable_of_iff
    (expression ≠ "" ∧ expression.toList.head?.all (!Text.isBlank ·) ∧
      expression.toList.getLast?.all (!Text.isBlank ·) ∧ expression.toList.head? ≠ some '#' ∧
      '\n' ∉ expression.toList ∧ '\r' ∉ expression.toList) <| by
    simp only [Option.all_eq_true, Bool.not_eq_true']
    constructor
    · rintro ⟨nonempty, begins, ends, noComment, noFeed, noReturn⟩
      exact ⟨nonempty, begins, ends, noComment, noFeed, noReturn⟩
    · rintro ⟨nonempty, begins, ends, noComment, noFeed, noReturn⟩
      exact ⟨nonempty, begins, ends, noComment, noFeed, noReturn⟩

/-- A line without an expression: blanks alone, or a comment. -/
inductive Noise : List Char → Prop where
  | blank {line : List Char} (blanks : ∀ c ∈ line, Text.isBlank c = true) : Noise line
  | comment {before : List Char} (blanks : ∀ c ∈ before, Text.isBlank c = true) (remark : List Char) :
      Noise (before ++ '#' :: remark)

/-- How a line ends before the rest of a text. The last one needs no break. -/
inductive LineEnd : List Char → List Char → Prop where
  | feed (rest : List Char) : LineEnd ['\n'] rest
  | pair (rest : List Char) : LineEnd ['\r', '\n'] rest
  | carriageReturn (rest : List Char) : LineEnd ['\r'] rest
  | atEnd : LineEnd [] []

/-- A text has expressions on lines of their own, with blanks around them, and other lines among these. -/
inductive Lists : List String → List Char → Prop where
  | nothing : Lists [] []
  | expression {expression : String} {expressions : List String} {before after ending rest : List Char}
      (fits : FitsLine expression) (blanks : ∀ c ∈ before ++ after, Text.isBlank c = true)
      (unbroken : Unbroken (before ++ after)) (ends : LineEnd ending rest) (onward : Lists expressions rest) :
      Lists (expression :: expressions) (before ++ expression.toList ++ after ++ (ending ++ rest))
  | noise {line ending rest : List Char} {expressions : List String} (noise : Noise line) (unbroken : Unbroken line)
      (ends : LineEnd ending rest) (onward : Lists expressions rest) : Lists expressions (line ++ (ending ++ rest))

/-- The expressions among the lines of the input. -/
def inputExpressions (chars : List Char) : List String :=
  expressionsOfLines (((Text.unifyBreaks chars).splitOn '\n').map String.ofList)

section
variable {line rest : List Char} {expression : String}

theorem inputExpressions_feed (unbroken : Unbroken line) (rest : List Char) :
    inputExpressions (line ++ '\n' :: rest) = expressionsOfLines [String.ofList line] ++ inputExpressions rest := by
  have unified : Text.unifyBreaks ('\n' :: rest) = '\n' :: Text.unifyBreaks rest := by
    rw [Text.unifyBreaks, if_neg (by decide)]
    exact fun _ same => absurd same (by decide)
  rw [inputExpressions, Text.unifyBreaks_append unbroken.noReturn, unified, List.splitOn_append_cons_self,
    List.splitOn_eq_singleton unbroken.noFeed, List.map_append, expressionsOfLines_append]
  rfl

theorem inputExpressions_pair (unbroken : Unbroken line) (rest : List Char) :
    inputExpressions (line ++ '\r' :: '\n' :: rest) = inputExpressions (line ++ '\n' :: rest) := by
  have same : Text.unifyBreaks ('\r' :: '\n' :: rest) = Text.unifyBreaks ('\n' :: rest) := by
    rw [Text.unifyBreaks, Text.unifyBreaks, if_neg (by decide)]
    exact fun _ same => absurd same (by decide)
  rw [inputExpressions, inputExpressions, Text.unifyBreaks_append unbroken.noReturn,
    Text.unifyBreaks_append unbroken.noReturn, same]

/-- A carriage return ends a line also where the next line is empty and ends in a line feed: the two breaks
are one then, but no expression is lost with the empty line. -/
theorem inputExpressions_return (unbroken : Unbroken line) (rest : List Char) :
    inputExpressions (line ++ '\r' :: rest) = inputExpressions (line ++ '\n' :: rest) := by
  by_cases paired : ∃ more, rest = '\n' :: more
  · obtain ⟨more, rfl⟩ := paired
    have empty : inputExpressions ('\n' :: more) = inputExpressions more :=
      inputExpressions_feed ⟨List.not_mem_nil, List.not_mem_nil⟩ more
    rw [inputExpressions_pair unbroken, inputExpressions_feed unbroken, inputExpressions_feed unbroken, empty]
  · have same : Text.unifyBreaks ('\r' :: rest) = Text.unifyBreaks ('\n' :: rest) := by
      rw [Text.unifyBreaks, Text.unifyBreaks, if_pos rfl, if_neg (by decide)]
      · exact fun _ same => absurd same (by decide)
      · exact fun more _ same => paired ⟨more, same⟩
    rw [inputExpressions, inputExpressions, Text.unifyBreaks_append unbroken.noReturn,
      Text.unifyBreaks_append unbroken.noReturn, same]

theorem inputExpressions_line {ending : List Char} (unbroken : Unbroken line) (ends : LineEnd ending rest) :
    inputExpressions (line ++ (ending ++ rest)) =
      expressionsOfLines [String.ofList line] ++ inputExpressions rest := by
  cases ends with
  | feed => exact inputExpressions_feed unbroken rest
  | pair => exact (inputExpressions_pair unbroken rest).trans (inputExpressions_feed unbroken rest)
  | carriageReturn => exact (inputExpressions_return unbroken rest).trans (inputExpressions_feed unbroken rest)
  | atEnd =>
    have none : inputExpressions [] = [] := by decide
    rw [none, List.append_nil, List.append_nil, List.append_nil, inputExpressions,
      Text.unifyBreaks_eq_self unbroken.noReturn, List.splitOn_eq_singleton unbroken.noFeed]
    rfl

theorem FitsLine.found (fits : FitsLine expression) {before after : List Char}
    (blanks : ∀ c ∈ before ++ after, Text.isBlank c = true) :
    expressionsOfLines [String.ofList (before ++ expression.toList ++ after)] = [expression] := by
  obtain ⟨leading, trailing⟩ := List.forall_mem_append.mp blanks
  have trimmed : Text.trim (String.ofList (before ++ expression.toList ++ after)) = expression := by
    rw [Text.trim, String.toList_ofList, Text.trimmed_between leading trailing,
      Text.trimmed_eq_self fits.begins fits.ends, String.ofList_toList]
  have noComment : ¬['#'] <+: expression.toList := by
    rintro ⟨rest, whole⟩
    exact fits.noComment (by rw [← whole]; rfl)
  rw [expressionsOfLines, List.map_singleton, trimmed]
  simp [fits.nonempty, noComment]

theorem Noise.nothing (noise : Noise line) : expressionsOfLines [String.ofList line] = [] := by
  rw [expressionsOfLines, List.map_singleton, Text.trim, String.toList_ofList]
  cases noise with
  | blank blanks =>
    have none : Text.trimmed Text.isBlank ([] ++ line) = [] := Text.trimmed_append blanks
    rw [List.nil_append] at none
    simp [none]
  | comment blanks remark =>
    have visible : Text.isBlank '#' = false := by decide
    obtain ⟨more, trimmed⟩ := Text.trimmed_cons_of_visible visible remark
    rw [← List.append_nil (_ ++ _), Text.trimmed_between blanks (List.forall_mem_nil _), trimmed]
    simp

/-- The expressions of a listing are found, in order and without anything else. -/
theorem Lists.found {expressions : List String} {chars : List Char} (lists : Lists expressions chars) :
    inputExpressions chars = expressions := by
  induction lists with
  | nothing => decide
  | @expression expression expressions before after ending rest fits blanks unbroken ends onward ih =>
    obtain ⟨noFeed, noReturn⟩ := unbroken
    rw [List.mem_append, not_or] at noFeed noReturn
    have whole : Unbroken (before ++ expression.toList ++ after) := by
      constructor
      · simpa [fits.unbroken.noFeed] using noFeed
      · simpa [fits.unbroken.noReturn] using noReturn
    rw [inputExpressions_line whole ends, fits.found blanks, ih, List.singleton_append]
  | noise noise unbroken ends onward ih =>
    rw [inputExpressions_line unbroken ends, noise.nothing, ih, List.nil_append]

end

/-! ### Expressions behind the options -/

/-- Arguments that are options with their values. If their form is wrong, that is found before any expression is
looked for. -/
def OtherOptions (options : List String) : Prop :=
  ∀ scan, options.foldlM Scan.read {} = .ok scan → scan.Ready ∧ scan.expressions = []

/-- Options name a file that can be read, and a run comes to it: nothing is wrong with any of them, and none asks
for a text about the program or for the names of the architectures. -/
def OpensFile (options : List String) (find : String → Option FileEntry) : Prop :=
  ∃ scan choices, Scan.ofArguments options = .ok scan ∧ scan.request? = none ∧ scan.choices find = .ok choices ∧
    choices.listArchitectures = false ∧ choices.file?.isSome = true

namespace Scan
variable {scan : Scan}

/-- A scan with all options read and these expressions behind them. -/
def giving (expressions : List String) (scan : Scan) : Scan := { scan with expressions, optionsOver := true }

theorem foldlM_read_over (due : scan.due? = none) (ended : scan.optionsOver = true) (arguments : List String) :
    arguments.foldlM read scan = .ok { scan with expressions := scan.expressions ++ arguments } := by
  induction arguments generalizing scan with
  | nil => rw [List.append_nil]; rfl
  | cons argument rest ih =>
    let next : Scan := { scan with expressions := scan.expressions ++ [argument] }
    have read : scan.read argument = .ok next := by simp [Scan.read, due, ended, next]
    have onward : rest.foldlM Scan.read next = .ok { next with expressions := next.expressions ++ rest } :=
      ih due ended
    rw [List.foldlM_cons, read]
    change rest.foldlM Scan.read next = _
    rw [onward, List.append_assoc, List.singleton_append]

theorem ofArguments_giving {options : List String} (others : OtherOptions options) (expressions : List String) :
    ofArguments (options ++ "--" :: expressions) = (ofArguments options).map (giving expressions) := by
  rw [ofArguments, ofArguments, List.foldlM_append]
  cases scanned : options.foldlM read {} with
  | error misuse => rfl
  | ok scan =>
    obtain ⟨ready, none⟩ := others scan scanned
    let ended : Scan := { scan with optionsOver := true }
    have read : scan.read "--" = .ok ended := by simp [Scan.read, ready.due, ready.goesOn, ended]
    have onward : expressions.foldlM Scan.read ended = .ok (scan.giving expressions) := by
      have more := foldlM_read_over (show ended.due? = .none from ready.due) rfl expressions
      simpa [ended, giving, none] using more
    have behind : ("--" :: expressions).foldlM Scan.read scan = .ok (scan.giving expressions) := by
      rw [List.foldlM_cons, read]
      exact onward
    simp [bind, Except.bind, behind, giving, ready.due, Except.map]

theorem expressions_of_others {options : List String} (others : OtherOptions options)
    (scanned : ofArguments options = .ok scan) : scan.expressions = [] := by
  rw [ofArguments] at scanned
  cases read : options.foldlM Scan.read {} with
  | error misuse =>
    rw [read] at scanned
    cases scanned
  | ok last =>
    obtain ⟨ready, none⟩ := others last read
    simp only [read, bind, Except.bind, ready.due, Except.ok.injEq] at scanned
    exact scanned ▸ none

theorem choices_giving (expressions : List String) (find : String → Option FileEntry) :
    (scan.giving expressions).choices find =
      (scan.choices find).map fun choices => { choices with expressions } := by
  have checks : (scan.giving expressions).settings.forM (checkSetting find (scan.giving expressions)) =
      scan.settings.forM (checkSetting find scan) := rfl
  have value (setting : Setting) : (scan.giving expressions).value? setting = scan.value? setting := rfl
  unfold Scan.choices
  rw [checks, value, value]
  cases scan.settings.forM (checkSetting find scan) with
  | error misuse => rfl
  | ok =>
    cases (scan.value? .file).mapM (fileBytes find) with
    | error misuse => rfl
    | ok file? =>
      cases (scan.value? .defaultSize).mapM widthOf with
      | error misuse => rfl
      | ok size? => rfl

end Scan

section
variable {options expressions : List String} {surroundings : Surroundings} {text : String} {choices : Choices}

/-- Expressions as arguments come to the same as an input in which they are found. -/
theorem Choices.run_giving (noArguments : choices.expressions = []) (noFile : choices.file? = none)
    (some : expressions ≠ []) (found : inputExpressions text.toList = expressions) :
    ({ choices with expressions } : Choices).run surroundings = choices.run { surroundings with input := text } := by
  have arguments : ({ choices with expressions } : Choices).sources surroundings.input = .ok expressions := if_pos some
  have input : choices.sources text = .ok expressions := by
    have found : expressionsOfLines (Text.commonLines text) = expressions := found
    simp [Choices.sources, noArguments, noFile, found]
  obtain ⟨first, rest, rfl⟩ := List.exists_cons_of_ne_nil some
  unfold Choices.run
  rw [arguments, input]
  simp only [noArguments, noFile, Option.isSome_none, Bool.false_eq_true, and_false, if_false]
  rfl

/-- The names of the architectures are listed whatever else is given. -/
theorem Choices.run_listing (listing : choices.listArchitectures = true) (expressions : List String) (input : String) :
    ({ choices with expressions } : Choices).run surroundings = choices.run { surroundings with input } := by
  simp only [Choices.run, listing, if_true]

theorem Choices.run_conflict (noListing : choices.listArchitectures = false) (file : choices.file?.isSome = true)
    (some : expressions ≠ []) :
    ({ choices with expressions } : Choices).run surroundings =
      { exitCode := .invalid, err := ["Error: give expressions as arguments or --file, not both"] } := by
  simp [Choices.run, noListing, file, some]

/-- A run over a file does not look at the input. -/
theorem Choices.run_file_input (file : choices.file?.isSome = true) (input : String) :
    choices.run { surroundings with input } = choices.run surroundings := by
  obtain ⟨bytes, file⟩ := Option.isSome_iff_exists.mp file
  have sources : choices.sources input = choices.sources surroundings.input := by
    simp only [Choices.sources, file]
  unfold Choices.run
  rw [sources]

/-- A run with expressions as arguments behind its options is the run with the same options and the
expressions on lines of the input, whatever else the input has on lines of its own, unless the options name a file
that the run comes to. Then the arguments are refused, and of the input no line is looked at. -/
theorem arguments_as_input (others : OtherOptions options) (some : expressions ≠ [])
    (lists : Lists expressions text.toList) :
    let asArguments := run (options ++ "--" :: expressions) surroundings
    let asInput := fun input => run options { surroundings with input }
    (¬OpensFile options surroundings.find → asArguments = asInput text) ∧
    (OpensFile options surroundings.find →
      asArguments = { exitCode := .invalid, err := ["Error: give expressions as arguments or --file, not both"] } ∧
      ∀ input, asInput input = run options surroundings) := by
  intro asArguments asInput
  let given (choices : Choices) : Choices := { choices with expressions }
  have scans := Scan.ofArguments_giving others expressions
  constructor
  · intro unopened
    refine run_congr given scans fun scan scanned => ?_
    refine ⟨rfl, Scan.choices_giving expressions surroundings.find, fun choices unasked checked => ?_⟩
    cases listing : choices.listArchitectures with
    | true => exact Choices.run_listing listing expressions text
    | false =>
      have noFile : choices.file? = none := by
        rw [← Option.not_isSome_iff_eq_none]
        exact fun file => unopened ⟨scan, choices, scanned, unasked, checked, listing, file⟩
      obtain ⟨-, file?, size?, -, -, rfl⟩ := Scan.choices_eq_ok.mp checked
      exact Choices.run_giving (Scan.expressions_of_others others scanned) noFile some lists.found
  · rintro ⟨scan, choices, scanned, unasked, checked, noListing, file⟩
    constructor
    · have asked : (scan.giving expressions).request? = none := unasked
      have ran : asArguments = (given choices).run surroundings := by
        simp only [asArguments, run, scans, scanned, Except.map, asked, Scan.choices_giving, checked, given]
      rw [ran]
      exact Choices.run_conflict noListing file some
    · intro input
      simp only [asInput, run, scanned, unasked, checked]
      exact Choices.run_file_input file input

end

/-- Behind a file, an expression is refused as an argument but not as an input. -/
theorem file_refuses_arguments :
    let find := fun path => if path = "trace" then some (FileEntry.file (Text.Utf8.encode "rcx,1,-\n")) else none
    FitsLine "rax,rbx,+" ∧
      (run ["--file", "trace", "--", "rax,rbx,+"] { find }).exitCode = .invalid ∧
      run ["--file", "trace"] { find, input := "rax,rbx,+\n" } = { exitCode := .success, out := ["tmp_1 = rcx - 1"] } := by
  decide +kernel

/-- A comment, blanks around an expression, an empty line after a line feed and one of a vertical tab, and all
ways to end a line. The second expression has a line separator in it, which ends no line of the input. -/
theorem arguments_as_input_example :
    let options := ["-v", "--default-size=32"]
    let text := "# sum\r  rax,rbx,+\t\r\n\n\x0b\ra\u2028b,1,-"
    run (options ++ ["--", "rax,rbx,+", "a\u2028b,1,-"]) {} = run options { input := text } := by
  intro options text
  have others : OtherOptions options := by
    intro scan scanned
    have read : options.foldlM Scan.read {} = .ok { options := [.flag .verbose, .setting .defaultSize "32"] } := by
      decide +kernel
    cases read.symm.trans scanned
    exact ⟨⟨rfl, rfl⟩, rfl⟩
  have unopened : ¬OpensFile options ({} : Surroundings).find := by
    rintro ⟨scan, choices, scanned, -, checked, -, file⟩
    have read : Scan.ofArguments options = .ok { options := [.flag .verbose, .setting .defaultSize "32"] } := by
      decide +kernel
    cases read.symm.trans scanned
    obtain ⟨-, noFile⟩ := Choices.file?_eq_none rfl checked
    rw [noFile] at file
    cases file
  have sum : FitsLine "rax,rbx,+" := by decide
  have difference : FitsLine "a\u2028b,1,-" := by decide
  have last : Lists ["a\u2028b,1,-"] ([] ++ "a\u2028b,1,-".toList ++ [] ++ ([] ++ [])) :=
    .expression difference (List.forall_mem_nil _) ⟨List.not_mem_nil, List.not_mem_nil⟩ .atEnd .nothing
  have blank : Lists ["a\u2028b,1,-"] ([] ++ (['\n'] ++ (['\x0b'] ++ (['\r'] ++ _)))) :=
    .noise (.blank (List.forall_mem_nil _)) ⟨List.not_mem_nil, List.not_mem_nil⟩ (.feed _)
      (.noise (.blank (List.all_eq_true.mp (by decide))) ⟨by decide, by decide⟩ (.carriageReturn _) last)
  have whole : Lists ["rax,rbx,+", "a\u2028b,1,-"]
      (([] ++ '#' :: " sum".toList) ++ (['\r'] ++
        ([' ', ' '] ++ "rax,rbx,+".toList ++ ['\t'] ++ (['\r', '\n'] ++ _)))) :=
    .noise (.comment (List.forall_mem_nil _) _) ⟨by decide, by decide⟩ (.carriageReturn _)
      (.expression sum (List.all_eq_true.mp (by decide)) ⟨by decide, by decide⟩ (.pair _) blank)
  obtain ⟨chars, same, lists⟩ : ∃ chars, text.toList = chars ∧ Lists ["rax,rbx,+", "a\u2028b,1,-"] chars :=
    ⟨_, by decide +kernel, whole⟩
  exact (arguments_as_input others (by decide) (same ▸ lists)).1 unopened

end CommandLine
end EsilLowering
