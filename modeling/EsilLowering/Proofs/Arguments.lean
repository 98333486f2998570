import Mathlib.Data.List.TakeWhile
import EsilLowering.CommandLine.Run

/-! # Arguments with one more option

Arguments are read from left to right, and what the earlier ones gave is only added to. So an option that
is put in where options are still looked for comes in among the options at that place, and nothing else
changes: every setting keeps its values and every other flag is given or not as before. -/

namespace EsilLowering.CommandLine

namespace Scan
variable {scan : Scan} {earlier later : List Given}

/-- A scan with other options in place of its own. -/
def withOptions (scan : Scan) (options : List Given) : Scan := { scan with options }

@[simp] theorem expressions_withOptions (options : List Given) :
    (scan.withOptions options).expressions = scan.expressions := rfl

/-- A scan with options given before its own. -/
def behind (earlier : List Given) (scan : Scan) : Scan := scan.withOptions (earlier ++ scan.options)

/-- An argument is looked at for an option next: no value is due, and options are not over. -/
structure Ready (scan : Scan) : Prop where
  due : scan.due? = none
  goesOn : scan.optionsOver = false

/-! ### Reading behind other options -/

theorem give_behind (given : Given) : (scan.behind earlier).give given = (scan.give given).behind earlier := by
  simp [give, behind, withOptions]

theorem readLetters_behind (letters : List Char) :
    (scan.behind earlier).readLetters letters = (scan.readLetters letters).map (behind earlier) := by
  induction letters generalizing scan with
  | nil => rfl
  | cons letter rest ih =>
    unfold readLetters
    cases shortSwitch? letter with
    | none => rfl
    | some switch =>
      cases switch with
      | flag flag =>
        simp only [give_behind]
        exact ih
      | setting setting => by_cases last : rest = [] <;> simp [last, give_behind] <;> rfl

theorem readOption_behind (argument : String) :
    (scan.behind earlier).readOption argument = (scan.readOption argument).map (behind earlier) := by
  unfold readOption
  simp only [give_behind, readLetters_behind]
  split
  · rfl
  · rfl
  · rfl
  · rfl
  · split <;> rfl

theorem read_behind (argument : String) :
    (scan.behind earlier).read argument = (scan.read argument).map (behind earlier) := by
  have due : (scan.behind earlier).due? = scan.due? := rfl
  have ended : (scan.behind earlier).optionsOver = scan.optionsOver := rfl
  unfold read
  rw [due, ended, readOption_behind]
  cases scan.due? with
  | some value => simp [give, behind, withOptions, Except.map]
  | none => split_ifs <;> rfl

theorem foldlM_read_behind (arguments : List String) :
    arguments.foldlM read (scan.behind earlier) = (arguments.foldlM read scan).map (behind earlier) := by
  induction arguments generalizing scan with
  | nil => rfl
  | cons argument rest ih =>
    rw [List.foldlM_cons, List.foldlM_cons, read_behind]
    cases scan.read argument with
    | error misuse => rfl
    | ok next => exact ih

theorem choices_eq_ok {find : String → Option FileEntry} {choices : Choices} :
    scan.choices find = .ok choices ↔
      scan.settings.forM (checkSetting find scan) = .ok () ∧
      ∃ file? size?, (scan.value? .file).mapM (fileBytes find) = .ok file? ∧
        (scan.value? .defaultSize).mapM widthOf = .ok size? ∧
        choices =
          { expressions := scan.expressions
            file?
            architecture? := scan.value? .architecture
            defaultSize? := size?
            strict := scan.has .strict
            json := scan.has .json
            listArchitectures := scan.has .listArchitectures
            verbose := scan.has .verbose } := by
  unfold Scan.choices
  cases passed : scan.settings.forM (checkSetting find scan) with
  | error misuse => exact ⟨(nomatch ·), (nomatch ·.1)⟩
  | ok =>
    cases file : (scan.value? .file).mapM (fileBytes find) with
    | error misuse => exact ⟨(nomatch ·), fun ⟨_, _, _, file, _⟩ => nomatch file⟩
    | ok file? =>
      cases size : (scan.value? .defaultSize).mapM widthOf with
      | error misuse => exact ⟨(nomatch ·), fun ⟨_, _, _, _, size, _⟩ => nomatch size⟩
      | ok size? =>
        constructor
        · intro checked
          exact ⟨rfl, file?, size?, rfl, rfl, (Except.ok.inj checked).symm⟩
        · rintro ⟨-, _, _, ⟨⟩, ⟨⟩, rfl⟩
          rfl

/-! ### One more option -/

/-- After some arguments, the next one is looked at for an option. -/
def ReadyAfter (arguments : List String) : Prop := ∃ scan, arguments.foldlM read {} = .ok scan ∧ scan.Ready

theorem readyAfter_nil : ReadyAfter [] := ⟨{}, rfl, rfl, rfl⟩

/-- Arguments that give one option, wherever options are looked for. -/
def Reads (arguments : List String) (given : Given) : Prop :=
  ∀ scan : Scan, scan.Ready → arguments.foldlM read scan = .ok (scan.give given)

theorem reads_one {argument : String} {given : Given}
    (read : ∀ scan : Scan, scan.Ready → scan.read argument = .ok (scan.give given)) : Reads [argument] given := by
  intro scan ready
  rw [List.foldlM_cons, read scan ready]
  rfl

theorem reads_two {argument name : String} {setting : Setting}
    (read : ∀ scan : Scan, scan.Ready → scan.read argument = .ok { scan with due? := some (setting, name) })
    (value : String) : Reads [argument, value] (.setting setting value) := by
  intro scan ready
  have due : { scan with due? := none } = scan := by rw [← ready.due]
  rw [List.foldlM_cons, read scan ready]
  change Except.ok (({ scan with due? := none } : Scan).give (.setting setting value)) = _
  rw [due]

theorem ofArguments_insert {before arguments : List String} {given : Given} (after : List String)
    (ready : ReadyAfter before) (reads : Reads arguments given) :
    ∃ count, ofArguments (before ++ (arguments ++ after)) =
      (ofArguments (before ++ after)).map fun scan =>
        scan.withOptions (scan.options.take count ++ given :: scan.options.drop count) := by
  obtain ⟨reached, hreached, ready⟩ := ready
  -- The later arguments are read behind what was given before them, with the new option or without.
  let bare : Scan := reached.withOptions []
  have without : reached = bare.behind reached.options := by simp [behind, withOptions, bare]
  have more : reached.give given = bare.behind (reached.options ++ [given]) := by simp [give, behind, withOptions, bare]
  have shorter : (before ++ after).foldlM read {} = (after.foldlM read bare).map (behind reached.options) := by
    rw [← foldlM_read_behind, ← without, List.foldlM_append, hreached]
    rfl
  have longer : (before ++ (arguments ++ after)).foldlM read {} =
      (after.foldlM read bare).map (behind (reached.options ++ [given])) := by
    rw [← foldlM_read_behind, ← more, List.foldlM_append, hreached]
    change (arguments ++ after).foldlM read reached = _
    rw [List.foldlM_append, reads reached ready]
    rfl
  refine ⟨reached.options.length, ?_⟩
  rw [ofArguments, ofArguments, shorter, longer]
  cases after.foldlM read bare with
  | error misuse => rfl
  | ok last =>
    obtain ⟨options, expressions, due?, optionsOver⟩ := last
    cases due? with
    | some due => rfl
    | none => 
      simp [behind, withOptions, Except.map, bind, Except.bind]

section
variable (split : scan.options = earlier ++ later) (flag : Flag)
include split

theorem values_insert (setting : Setting) :
    (scan.withOptions (earlier ++ .flag flag :: later)).values setting = scan.values setting := by
  simp [values, withOptions, split]

theorem settings_insert : (scan.withOptions (earlier ++ .flag flag :: later)).settings = scan.settings := by
  simp [settings, withOptions, split]

theorem has_insert (other : Flag) :
    (scan.withOptions (earlier ++ .flag flag :: later)).has other = (scan.has other || other == flag) := by
  simp only [has, withOptions, split, List.contains_eq_mem, List.mem_append, List.mem_cons, Given.flag.injEq]
  by_cases given : other = flag <;> simp [given]

theorem request?_insert (unasked : flag ≠ .help ∧ flag ≠ .version) :
    (scan.withOptions (earlier ++ .flag flag :: later)).request? = scan.request? := by
  obtain ⟨help, version⟩ := unasked
  cases flag <;> simp_all [request?, withOptions]

theorem choices_insert_strict {find : String → Option FileEntry} {choices : Choices}
    (checked : scan.choices find = .ok choices) :
    (scan.withOptions (earlier ++ .flag .strict :: later)).choices find = .ok { choices with strict := true } := by
  have value (setting : Setting) :
      (scan.withOptions (earlier ++ .flag .strict :: later)).value? setting = scan.value? setting :=
    congrArg List.getLast? (values_insert split .strict setting)
  have check : checkSetting find (scan.withOptions (earlier ++ .flag .strict :: later)) = checkSetting find scan := by
    funext setting
    unfold checkSetting
    rw [value]
  obtain ⟨passed, file?, size?, file, size, rfl⟩ := choices_eq_ok.mp checked
  rw [choices_eq_ok, settings_insert split, check, value, value, value]
  refine ⟨passed, file?, size?, file, size, ?_⟩
  simp [has_insert split]

end

/-! ### Options by their names -/

theorem read_option {argument : String} {rest : List Char} (ready : scan.Ready)
    (hyphened : argument.toList = '-' :: rest) (more : rest ≠ [] ∧ rest ≠ ['-']) :
    scan.read argument = scan.readOption argument := by
  have lone : argument ≠ "-" := by
    rintro rfl
    exact more.1 (List.cons.inj hyphened).2.symm
  have last : argument ≠ "--" := by
    rintro rfl
    exact more.2 (List.cons.inj hyphened).2.symm
  simp [read, ready.due, ready.goesOn, hyphened, lone, last]

/-- A long name is two hyphens and more, and no `=` is in it. -/
theorem longSwitch?_name {name : String} {switch : Switch} (named : longSwitch? name = some switch) :
    (∃ letter rest, name.toList = '-' :: '-' :: letter :: rest) ∧ ∀ c ∈ name.toList, decide (c ≠ '=') = true := by
  unfold longSwitch? at named
  split at named
  case h_10 => cases named
  all_goals exact ⟨⟨_, _, rfl⟩, List.all_eq_true.mp (by decide)⟩

section
variable {name : String} (ready : scan.Ready)
include ready

theorem read_name {switch : Switch} (named : longSwitch? name = some switch) :
    scan.read name = .ok (match switch with
      | .flag flag => scan.give (.flag flag)
      | .setting setting => { scan with due? := some (setting, name) }) := by
  obtain ⟨⟨letter, rest, hyphened⟩, noEquals⟩ := longSwitch?_name named
  have before : name.toList.takeWhile (· ≠ '=') = name.toList := List.takeWhile_eq_self_iff.mpr noEquals
  have behind : name.toList.dropWhile (· ≠ '=') = [] := List.dropWhile_eq_nil_iff.mpr noEquals
  rw [read_option ready hyphened (by simp), readOption]
  simp only [before, behind, String.ofList_toList, named]
  cases switch <;> rfl

theorem read_joined {setting : Setting} (named : longSwitch? name = some (.setting setting)) {argument value : String}
    (joined : argument.toList = name.toList ++ '=' :: value.toList) :
    scan.read argument = .ok (scan.give (.setting setting value)) := by
  obtain ⟨⟨letter, rest, hyphened⟩, noEquals⟩ := longSwitch?_name named
  have before : argument.toList.takeWhile (· ≠ '=') = name.toList := by
    rw [joined, List.takeWhile_append_of_pos noEquals]
    simp
  have behind : argument.toList.dropWhile (· ≠ '=') = '=' :: value.toList := by
    rw [joined, List.dropWhile_append_of_pos noEquals]
    simp
  rw [read_option ready (by rw [joined, hyphened, List.cons_append]) (by simp), readOption]
  simp only [before, behind, String.ofList_toList, named]

end

section
variable {name : String} {setting : Setting}

theorem reads_flag {flag : Flag} (named : longSwitch? name = some (.flag flag)) : Reads [name] (.flag flag) :=
  reads_one fun _ ready => read_name ready named

theorem reads_apart (named : longSwitch? name = some (.setting setting)) (value : String) :
    Reads [name, value] (.setting setting value) :=
  reads_two (fun _ ready => read_name ready named) value

theorem reads_joined (named : longSwitch? name = some (.setting setting)) {argument value : String}
    (joined : argument.toList = name.toList ++ '=' :: value.toList) : Reads [argument] (.setting setting value) :=
  reads_one fun _ ready => read_joined ready named joined

theorem reads_strict : Reads ["--strict"] (.flag .strict) := reads_flag rfl

end

/-! ### One more setting -/

section
variable (split : scan.options = earlier ++ later) {setting : Setting} (value : String)
include split

theorem value?_insert_other {other : Setting} (apart : setting ≠ other) :
    (scan.withOptions (earlier ++ .setting setting value :: later)).value? other = scan.value? other := by
  simp [value?, values, withOptions, split, apart]

theorem value?_insert_setting (unset : scan.value? setting = none) :
    (scan.withOptions (earlier ++ .setting setting value :: later)).value? setting = some value := by
  have none := List.getLast?_eq_none_iff.mp unset
  simp only [values, split, List.filterMap_append, List.append_eq_nil_iff] at none
  simp only [value?, values, withOptions, List.filterMap_append, none.1, List.filterMap_cons, none.2]
  simp

theorem has_insert_setting (flag : Flag) :
    (scan.withOptions (earlier ++ .setting setting value :: later)).has flag = scan.has flag := by
  simp [has, withOptions, split]

theorem request?_insert_setting :
    (scan.withOptions (earlier ++ .setting setting value :: later)).request? = scan.request? := by
  simp [request?, withOptions, split]

end

/-! ### The checks -/

theorem mem_settings {setting : Setting} {value : String} (set : scan.value? setting = some value) :
    setting ∈ scan.settings := by
  obtain ⟨given, member, valued⟩ := List.mem_filterMap.mp (List.mem_of_getLast? set)
  rw [settings, List.mem_eraseDups, List.mem_filterMap]
  refine ⟨given, member, ?_⟩
  cases given with
  | flag flag => cases valued
  | setting other text =>
    rw [Option.ite_none_right_eq_some] at valued
    exact congrArg some valued.1

theorem checkSetting_file (find : String → Option FileEntry) (scan : Scan) :
    checkSetting find scan .file = ((scan.value? .file).mapM (fileBytes find)).map fun _ => () := by
  unfold checkSetting
  cases scan.value? .file with
  | none => rfl
  | some path =>
    change (fileBytes find path).map (fun _ => ()) = _
    rw [Option.mapM_some]
    cases fileBytes find path <;> rfl

/-- If the file can be read, only a width can be wrong. -/
theorem forM_checkSetting {find : String → Option FileEntry} (file : checkSetting find scan .file = .ok ()) :
    scan.settings.forM (checkSetting find scan) = checkSetting find scan .defaultSize := by
  have checked : .defaultSize ∈ scan.settings ∨ checkSetting find scan .defaultSize = .ok () := by
    cases set : scan.value? .defaultSize with
    | none => exact Or.inr (by simp only [checkSetting, set])
    | some text => exact Or.inl (mem_settings set)
  generalize scan.settings = settings at checked
  induction settings with
  | nil => exact (checked.resolve_left (by simp)).symm
  | cons setting rest ih =>
    change (checkSetting find scan setting >>= fun _ => rest.forM (checkSetting find scan)) = _
    cases setting with
    | file =>
      rw [file]
      exact ih (by simpa using checked)
    | architecture => exact ih (by simpa using checked)
    | defaultSize =>
      cases size : checkSetting find scan .defaultSize with
      | error misuse => rfl
      | ok => exact (ih (Or.inr size)).trans size

end Scan

/-! ### Runs -/

theorem Choices.file?_eq_none {scan : Scan} {find : String → Option FileEntry} {choices : Choices}
    (unset : scan.value? .file = none) (checked : scan.choices find = .ok choices) :
    choices.expressions = scan.expressions ∧ choices.file? = none := by
  obtain ⟨-, file?, -, file, -, rfl⟩ := Scan.choices_eq_ok.mp checked
  rw [unset] at file
  cases file
  exact ⟨rfl, rfl⟩

/-- Other arguments come to the same run, over another input, if all that they change in a scan is what the
options ask for, and that only to something that comes to the same if the options come to be followed. -/
theorem run_congr {arguments other : List String} {surroundings : Surroundings} {input : String} {change : Scan → Scan}
    (turn : Choices → Choices) (scans : Scan.ofArguments other = (Scan.ofArguments arguments).map change)
    (same : ∀ scan, Scan.ofArguments arguments = .ok scan →
      (change scan).request? = scan.request? ∧
      (change scan).choices surroundings.find = (scan.choices surroundings.find).map turn ∧
      ∀ choices, scan.request? = none → scan.choices surroundings.find = .ok choices →
        (turn choices).run surroundings = choices.run { surroundings with input }) :
    run other surroundings = run arguments { surroundings with input } := by
  unfold run
  rw [scans]
  cases scanned : Scan.ofArguments arguments with
  | error misuse => rfl
  | ok scan =>
    obtain ⟨request, choices, runs⟩ := same scan scanned
    simp only [Except.map, request, choices]
    cases asked : scan.request? with
    | some flag => cases flag <;> rfl
    | none =>
      cases checked : scan.choices surroundings.find with
      | error misuse => rfl
      | ok choices => exact runs choices asked checked

end EsilLowering.CommandLine
