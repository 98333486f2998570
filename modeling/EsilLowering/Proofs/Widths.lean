import EsilLowering.Proofs.Arguments
import EsilLowering.Proofs.LiberalNumerals

/-! # The width from the environment and from an option

A variable and an option can set the default width, and both take the same texts: those that give a
positive integer. On any other text they part. The variable is then as if it were not set, and the option
ends the run. -/

namespace EsilLowering
open Numeral (Gives)

namespace Settings

/-! ### The environment, variable by variable -/

/-- The words that ask for no strictness, in lower case. -/
def denials : List String := ["0", "false", "no", "off"]

/-- What a variable holds, unless it is empty. -/
def held? (environment : Table String) (variableName : String) : Option String :=
  (environment.get? variableName).filter (· ≠ "")

/-- The integer that a text gives. A text that gives none is refused. -/
def integer (text : String) : Except Fault Int :=
  match Numeral.liberal? text with
  | some number => .ok number
  | none => .error (.refused (.other (Text.quoted text ++ " is no integer")))

/-- Settings with the width that a text gives. Zero stands for one that is refused, and only a positive width
is kept. -/
def takeSize (settings : Settings) (text : String) : Except Fault Settings := do
  let size ← tryCatch (integer text) fun fault => if fault.isIn .refused then pure 0 else throw fault
  return if 0 < size then { settings with defaultSize? := some size } else settings

/-- Settings with the strictness that a text asks for. Any other text says nothing. -/
def takeStrictness (settings : Settings) (text : String) : Settings :=
  if affirmations.contains text.toLower then { settings with strict := true }
  else if denials.contains text.toLower then { settings with strict := false }
  else settings

/-- Default settings, changed by one variable after the other. -/
def collect (environment : Table String) : Except Fault Settings := do
  let mut settings : Settings := {}
  if let some name := held? environment architectureVariable then
    settings := { settings with architecture := name }
  if let some text := held? environment defaultSizeVariable then
    settings ← settings.takeSize text
  if let some text := held? environment strictVariable then
    settings := settings.takeStrictness text
  return settings

section
variable {text : String} {size : Int}

theorem positiveSize?_eq_some : positiveSize? text = some size ↔ Gives text size ∧ 0 < size := by
  simp [positiveSize?, Option.filter_eq_some_iff, Numeral.liberal?_eq_some]

theorem takeSize_eq (settings : Settings) (text : String) :
    settings.takeSize text = .ok { settings with defaultSize? := positiveSize? text <|> settings.defaultSize? } := by
  have recovered :
      (tryCatch (integer text) fun fault => if fault.isIn .refused then pure 0 else throw fault) =
        .ok ((Numeral.liberal? text).getD 0) := by
    unfold integer
    cases Numeral.liberal? text <;> rfl
  rw [takeSize, recovered, positiveSize?]
  change Except.ok (if 0 < (Numeral.liberal? text).getD 0 then _ else settings) = _
  cases Numeral.liberal? text with
  | none => rfl
  | some size => by_cases positive : 0 < size <;> simp [positive, Option.filter_some]

theorem takeStrictness_eq {settings : Settings} (lenient : settings.strict = false) (text : String) :
    settings.takeStrictness text = { settings with strict := affirmations.contains text.toLower } := by
  unfold takeStrictness
  split
  · rename_i affirmed
    rw [affirmed]
  · rename_i other
    rw [Bool.eq_false_iff.mpr other, ← lenient]
    split <;> rfl

section
variable (environment : Table String) (variableName : String)

theorem bind_held? {α : Type} {f : String → Option α} (empty : f "" = none) :
    (held? environment variableName).bind f = (environment.get? variableName).bind f := by
  unfold held?
  cases environment.get? variableName with
  | none => rfl
  | some text => by_cases none : text = "" <;> simp [none, empty, Option.filter_some]

theorem any_held? {p : String → Bool} (empty : p "" = false) :
    (held? environment variableName).any p = (environment.get? variableName).any p := by
  unfold held?
  cases environment.get? variableName with
  | none => rfl
  | some text => by_cases none : text = "" <;> simp [none, empty, Option.filter_some]

end

/-- No refusal is left, and what is collected are the settings of the environment. -/
theorem collect_eq (environment : Table String) : collect environment = .ok (ofEnvironment environment) := by
  have settings : ofEnvironment environment =
      { architecture := (held? environment architectureVariable).getD Profile.defaultName
        defaultSize? := (held? environment defaultSizeVariable).bind positiveSize?
        strict := (held? environment strictVariable).any fun text => affirmations.contains text.toLower } := by
    rw [bind_held? _ _ (by decide), any_held? _ _ (by decide +kernel)]
    rfl
  rw [settings, collect]
  cases held? environment architectureVariable <;> cases held? environment defaultSizeVariable <;>
    cases held? environment strictVariable <;> 
      simp [takeSize_eq, takeStrictness_eq, pure, Except.pure, bind, Except.bind]

section
variable (environment : Table String)

theorem ofEnvironment_insert_size (text : String) :
    ofEnvironment (environment.insert defaultSizeVariable text) =
      { ofEnvironment (environment.erase defaultSizeVariable) with defaultSize? := positiveSize? text } := by
  have architecture : defaultSizeVariable ≠ architectureVariable := by decide
  have strict : defaultSizeVariable ≠ strictVariable := by decide
  simp [ofEnvironment, Table.get?_insert, Table.get?_erase, architecture, strict]

theorem defaultSize?_erase : (ofEnvironment (environment.erase defaultSizeVariable)).defaultSize? = none := by
  simp [ofEnvironment, Table.get?_erase]

theorem ofEnvironment_insert_iff (positive : 0 < size) :
    ofEnvironment (environment.insert defaultSizeVariable text) =
        { ofEnvironment (environment.erase defaultSizeVariable) with defaultSize? := some size } ↔
      Gives text size := by
  rw [ofEnvironment_insert_size]
  constructor
  · intro same
    exact (positiveSize?_eq_some.mp (congrArg defaultSize? same)).1
  · intro gives
    rw [positiveSize?_eq_some.mpr ⟨gives, positive⟩]

/-- A variable that holds no positive integer is as good as none. -/
theorem ofEnvironment_insert_unusable (unusable : ∀ size, 0 < size → ¬Gives text size) :
    ofEnvironment (environment.insert defaultSizeVariable text) =
      ofEnvironment (environment.erase defaultSizeVariable) := by
  rw [ofEnvironment_insert_size]
  cases read : positiveSize? text with
  | none => rw [← defaultSize?_erase environment]
  | some size =>
    obtain ⟨gives, positive⟩ := positiveSize?_eq_some.mp read
    exact absurd gives (unusable size positive)

end

end
end Settings

namespace CommandLine
variable {text : String} {size : Int}

/-! ### The option -/

/-- The option takes the texts that the variable takes, for the same widths. -/
theorem toOption_widthOf (text : String) : (widthOf text).toOption = Settings.positiveSize? text := by
  unfold widthOf Settings.positiveSize?
  cases Numeral.liberal? text with
  | none => rfl
  | some number => by_cases positive : 0 < number <;> simp [positive, Option.filter_some, Except.toOption]

theorem widthOf_eq_ok : widthOf text = .ok size ↔ Gives text size ∧ 0 < size := by
  rw [← Settings.positiveSize?_eq_some, ← toOption_widthOf]
  cases widthOf text <;> simp [Except.toOption]

/-- What is wrong with a text that is no width: it gives no integer, or one that is not positive. -/
inductive Unusable (text : String) : Misuse → Prop
  | malformed (none : ∀ number, ¬Gives text number) : Unusable text (.malformedSize text)
  | tooSmall {number : Int} (gives : Gives text number) (small : number ≤ 0) : Unusable text (.sizeTooSmall number)

theorem unusable_of_widthOf {misuse : Misuse} (refused : widthOf text = .error misuse) : Unusable text misuse := by
  unfold widthOf at refused
  split at refused
  · rename_i unread
    cases refused
    refine .malformed fun number gives => ?_
    cases unread.symm.trans (Numeral.liberal?_eq_some.mpr gives)
  · rename_i number read
    split at refused
    · cases refused
    · rename_i small
      cases refused
      exact .tooSmall (Numeral.liberal?_eq_some.mp read) (Int.not_lt.mp small)

theorem Unusable.exitCode {misuse : Misuse} (unusable : Unusable text misuse) :
    misuse.outcome.exitCode.toNat = 2 := by
  cases unusable <;> rfl

/-- The ways to give a width among the arguments. -/
inductive GivesWidth (text : String) : List String → Prop
  | apart : GivesWidth text ["--default-size", text]
  | joined : GivesWidth text ["--default-size=" ++ text]

theorem GivesWidth.reads {arguments : List String} (gives : GivesWidth text arguments) :
    Scan.Reads arguments (.setting .defaultSize text) := by
  have named : longSwitch? "--default-size" = some (.setting .defaultSize) := rfl
  cases gives with
  | apart => exact Scan.reads_apart named text
  | joined => exact Scan.reads_joined named (by rw [String.toList_append]; rfl)

/-- Arguments ask for a run, and this is what their options ask for. -/
def Accepts (find : String → Option FileEntry) (arguments : List String) (choices : Choices) : Prop :=
  ∃ scan, Scan.ofArguments arguments = .ok scan ∧ scan.request? = none ∧ scan.choices find = .ok choices

namespace Scan
variable {scan : Scan} {earlier later : List Given} {find : String → Option FileEntry} {choices : Choices}

theorem choices_insert_width (split : scan.options = earlier ++ later) (checked : scan.choices find = .ok choices)
    (unset : choices.defaultSize? = none) :
    (scan.withOptions (earlier ++ .setting .defaultSize text :: later)).choices find =
      (widthOf text).map fun size => { choices with defaultSize? := some size } := by
  let given := scan.withOptions (earlier ++ .setting .defaultSize text :: later)
  obtain ⟨-, file?, size?, file, size, rfl⟩ := choices_eq_ok.mp checked
  subst unset
  have free : scan.value? .defaultSize = none := by
    cases set : scan.value? .defaultSize with
    | none => rfl
    | some other =>
      rw [set, Option.mapM_some] at size
      cases read : widthOf other <;> rw [read] at size <;> cases size
  have width : given.value? .defaultSize = some text := value?_insert_setting split text free
  have path : given.value? .file = scan.value? .file := value?_insert_other split text (by decide)
  have architecture : given.value? .architecture = scan.value? .architecture :=
    value?_insert_other split text (by decide)
  have flags (flag : Flag) : given.has flag = scan.has flag := has_insert_setting split text flag
  have found : checkSetting find given .file = .ok () := by
    rw [checkSetting_file, path, file]
    rfl
  have checks : given.settings.forM (checkSetting find given) = (widthOf text).map fun _ => () := by
    rw [forM_checkSetting found]
    simp only [checkSetting, width]
  change given.choices find = _
  unfold Scan.choices
  rw [checks, path, file, width, architecture, flags, flags, flags, flags, Option.mapM_some]
  cases widthOf text <;> rfl

end Scan

section
variable {before after given : List String} {choices : Choices}
variable (ready : Scan.ReadyAfter before) (gives : GivesWidth text given)
include ready gives

theorem ofArguments_insert_width {find : String → Option FileEntry} (accepted : Accepts find (before ++ after) choices)
    (unset : choices.defaultSize? = none) :
    ∃ scan, Scan.ofArguments (before ++ (given ++ after)) = .ok scan ∧ scan.request? = none ∧
      scan.choices find = (widthOf text).map fun size => { choices with defaultSize? := some size } := by
  obtain ⟨scan, scanned, unasked, checked⟩ := accepted
  obtain ⟨count, inserted⟩ := Scan.ofArguments_insert after ready gives.reads
  have split := (List.take_append_drop count scan.options).symm
  rw [scanned] at inserted
  exact ⟨_, inserted, (Scan.request?_insert_setting split text).trans unasked,
    Scan.choices_insert_width split checked unset⟩

theorem accepts_width_iff {find : String → Option FileEntry} (accepted : Accepts find (before ++ after) choices)
    (unset : choices.defaultSize? = none) (positive : 0 < size) :
    Accepts find (before ++ (given ++ after)) { choices with defaultSize? := some size } ↔ Gives text size := by
  obtain ⟨scan, scanned, unasked, checked⟩ := ofArguments_insert_width ready gives accepted unset
  constructor
  · rintro ⟨same, rescanned, -, accepted⟩
    cases scanned.symm.trans rescanned
    rw [checked] at accepted
    cases read : widthOf text with
    | error misuse =>
      rw [read] at accepted
      cases accepted
    | ok width =>
      rw [read] at accepted
      have equal : some width = some size := congrArg Choices.defaultSize? (Except.ok.inj accepted)
      rw [Option.some.injEq] at equal
      exact (widthOf_eq_ok.mp (equal ▸ read)).1
  · intro number
    refine ⟨scan, scanned, unasked, ?_⟩
    rw [checked, widthOf_eq_ok.mpr ⟨number, positive⟩]
    rfl

/-- An option with a text that is no width ends the run. -/
theorem run_of_unusable {surroundings : Surroundings} (accepted : Accepts surroundings.find (before ++ after) choices)
    (unset : choices.defaultSize? = none) (unusable : ∀ size, 0 < size → ¬Gives text size) :
    ∃ misuse, Unusable text misuse ∧ run (before ++ (given ++ after)) surroundings = misuse.outcome := by
  obtain ⟨scan, scanned, unasked, checked⟩ := ofArguments_insert_width ready gives accepted unset
  cases read : widthOf text with
  | ok size =>
    obtain ⟨number, positive⟩ := widthOf_eq_ok.mp read
    exact absurd number (unusable size positive)
  | error misuse =>
    refine ⟨misuse, unusable_of_widthOf read, ?_⟩
    unfold run
    simp only [scanned, unasked, checked, read, Except.map]

/-- Settings are read from every environment. A variable and an option set the width to a positive integer for
the same texts: those that give it. With any other text the variable is as if it were missing, and the option
ends the run. -/
theorem width_read_alike {surroundings : Surroundings} (accepted : Accepts surroundings.find (before ++ after) choices)
    (unset : choices.defaultSize? = none) :
    let settings := Settings.ofEnvironment (surroundings.environment.insert Settings.defaultSizeVariable text)
    let others := Settings.ofEnvironment (surroundings.environment.erase Settings.defaultSizeVariable)
    let arguments := before ++ (given ++ after)
    (∀ environment, Settings.collect environment = .ok (.ofEnvironment environment)) ∧
    (∀ size, 0 < size →
      (settings = { others with defaultSize? := some size } ↔ Gives text size) ∧
      (Accepts surroundings.find arguments { choices with defaultSize? := some size } ↔ Gives text size)) ∧
    ((∀ size, 0 < size → ¬Gives text size) →
      settings = others ∧ others.defaultSize? = none ∧
      ∃ misuse, Unusable text misuse ∧ run arguments surroundings = misuse.outcome ∧
        misuse.outcome.exitCode.toNat = 2) := by
  intro settings others arguments
  refine ⟨Settings.collect_eq, fun size positive => ⟨?_, ?_⟩, fun unusable => ⟨?_, ?_, ?_⟩⟩
  · exact Settings.ofEnvironment_insert_iff surroundings.environment positive
  · exact accepts_width_iff ready gives accepted unset positive
  · exact Settings.ofEnvironment_insert_unusable surroundings.environment unusable
  · exact Settings.defaultSize?_erase surroundings.environment
  · obtain ⟨misuse, wrong, outcome⟩ := run_of_unusable ready gives accepted unset unusable
    exact ⟨misuse, wrong, outcome, wrong.exitCode⟩

end

/-- An ideographic space, a plus, an Arabic three, an underscore, a two and a line feed are a width of 32. A zero
is none. -/
theorem width_read_alike_example :
    let text := "\u3000+\u0663_2\n"
    let choices : Choices :=
      { expressions := ["rax"], file? := none, architecture? := some "x86_64", defaultSize? := none, strict := false
        json := false, listArchitectures := false, verbose := false }
    Gives text 32 ∧ Accepts (fun _ => none) ["-a", "x86_64", "--default-size", text, "rax"]
        { choices with defaultSize? := some 32 } ∧
      (run ["-a", "x86_64", "--default-size=-0", "rax"] {}).exitCode.toNat = 2 := by
  intro text choices
  have ready : Scan.ReadyAfter ["-a", "x86_64"] :=
    ⟨{ options := [.setting .architecture "x86_64"] }, by decide +kernel, rfl, rfl⟩
  have accepted : Accepts ({} : Surroundings).find (["-a", "x86_64"] ++ ["rax"]) choices :=
    ⟨{ options := [.setting .architecture "x86_64"], expressions := ["rax"] }, by decide +kernel, rfl, rfl⟩
  have gives : Gives text 32 := Numeral.liberal?_eq_some.mp (by decide +kernel)
  have separate : GivesWidth text ["--default-size", text] := .apart
  obtain ⟨-, alike, -⟩ := width_read_alike ready separate accepted rfl
  refine ⟨gives, (alike 32 (by decide)).2.mpr gives, ?_⟩
  have together : GivesWidth "-0" ["--default-size=-0"] := .joined
  have zero : Numeral.liberal? "-0" = some 0 := by decide +kernel
  obtain ⟨-, -, ended⟩ := width_read_alike ready together accepted rfl
  obtain ⟨-, -, misuse, -, outcome, code⟩ := ended fun size positive gives => by
    cases zero.symm.trans (Numeral.liberal?_eq_some.mpr gives)
    cases positive
  exact (congrArg (·.exitCode.toNat) outcome).trans code

end CommandLine
end EsilLowering
