import EsilLowering.CommandLine.Help
import EsilLowering.CommandLine.Option
import EsilLowering.Document
import EsilLowering.FileTree
import EsilLowering.Settings
import EsilLowering.Text.LineBreak
import EsilLowering.Text.TerminalEscape

/-! # A run of the command line

From the arguments and the surroundings to the lines written and the exit code. What is wrong comes out
in a fixed order: the form of the options, then requests for help or the version, then the values of
the options, then everything that the run itself meets. -/

namespace EsilLowering.CommandLine

/-- How a run ends. -/
inductive ExitCode where
  /-- All went well. -/
  | success
  /-- An expression could not be lowered. -/
  | lowering
  /-- The arguments, the settings or the files are not right. -/
  | invalid
  /-- Something happened that the program does not expect. -/
  | internal
  /-- Something happened that the program does not even catch. -/
  | uncaught
  deriving DecidableEq, Repr

/-- The exit code as a number. -/
def ExitCode.toNat : ExitCode → Nat
  | success => 0
  | lowering => 1
  | invalid => 2
  | internal => 3
  | uncaught => 1

/-- What a run writes, as lines of the two streams, and how it ends. -/
structure Outcome where
  exitCode : ExitCode
  out : List String := []
  err : List String := []
  deriving DecidableEq, Repr

/-- Lines as one text, each ended by a line feed. -/
def textOfLines (lines : List String) : String := String.join (lines.map (· ++ "\n"))

/-- All that a run depends on. -/
structure Surroundings where
  input : String := ""
  environment : Table String := .empty
  find : String → Option FileEntry := fun _ => none
  registry : Registry := .initial

/-- What the options ask for, once their values are checked. -/
structure Choices where
  expressions : List String
  file? : Option (List UInt8)
  architecture? : Option String
  defaultSize? : Option Int
  strict : Bool
  json : Bool
  listArchitectures : Bool
  verbose : Bool
  deriving DecidableEq, Repr

/-! ### Checks -/

/-- The bytes of the file at a path. -/
def fileBytes (find : String → Option FileEntry) (path : String) : Except Misuse (List UInt8) :=
  match find path with
  | some (.file bytes) => .ok bytes
  | some .directory => .error (.directory path)
  | none => .error (.missingFile path)

/-- The width that a text gives. -/
def widthOf (text : String) : Except Misuse Int :=
  match Numeral.liberal? text with
  | none => .error (.malformedSize text)
  | some size => if 0 < size then .ok size else .error (.sizeTooSmall size)

/-- Checks the value of a setting. -/
def checkSetting (find : String → Option FileEntry) (scan : Scan) (setting : Setting) :
    Except Misuse Unit :=
  match setting, scan.value? setting with
  | .file, some path => (fileBytes find path).map fun _ => ()
  | .defaultSize, some text => (widthOf text).map fun _ => ()
  | _, _ => .ok ()

/-- What the options ask for. Each setting is checked at the place where it comes first. -/
def Scan.choices (scan : Scan) (find : String → Option FileEntry) : Except Misuse Choices := do
  scan.settings.forM (checkSetting find scan)
  return {
    expressions := scan.expressions
    file? := ← (scan.value? .file).mapM (fileBytes find)
    architecture? := scan.value? .architecture
    defaultSize? := ← (scan.value? .defaultSize).mapM widthOf
    strict := scan.has .strict
    json := scan.has .json
    listArchitectures := scan.has .listArchitectures
    verbose := scan.has .verbose }

/-! ### Faults -/

/-- The outcome of a misuse. -/
def Misuse.outcome (misuse : Misuse) : Outcome :=
  let reminder := if misuse.remindsOfUsage then [usageLine, helpLine, ""] else []
  { exitCode := .invalid, err := (reminder ++ ["Error: " ++ misuse.message]).map Text.plain }

/-- What a trace begins with. The frames behind it are about the program as text and are left out. -/
def traceLine : String := "Traceback (most recent call last):"

/-- The outcome of a fault. Lowering errors say themselves that they are errors. Of the trace of a fault that
is not expected only the first line is told. -/
def faultOutcome (verbose : Bool) (fault : Fault) : Outcome :=
  if fault.isIn .configuration then
    { exitCode := .invalid, err := [Text.plain ("Error: " ++ fault.text)] }
  else if fault.isIn .library then
    { exitCode := .lowering, err := [Text.plain fault.text] }
  else if fault.isIn .missingFile ∨ fault.isIn .forbiddenFile then
    { exitCode := .invalid, err := [Text.plain ("Error: " ++ fault.text)] }
  else
    let trace := if verbose then [traceLine] else []
    { exitCode := .internal, err := Text.plain ("Internal error: " ++ fault.text) :: trace }

/-! ### Sources -/

/-- The expressions among lines: what is left of each without blanks around it, unless nothing is left
or it begins with a number sign. -/
def expressionsOfLines (lines : List String) : List String :=
  (lines.map Text.trim).filter fun line => line ≠ "" ∧ ¬['#'].isPrefixOf line.toList

/-- The expressions of a run: those among the arguments, else the lines of the file, else the lines of
the input. A file knows more line breaks than the input. -/
def Choices.sources (choices : Choices) (input : String) : Except Fault (List String) :=
  if choices.expressions ≠ [] then .ok choices.expressions
  else match choices.file? with
    | some bytes =>
      match Text.Utf8.decode bytes with
      | .ok text => .ok (expressionsOfLines (Text.wideLines text))
      | .error fault => .error (.undecodable fault)
    | none => .ok (expressionsOfLines (Text.commonLines input))

/-- The settings of a run: those of the environment, unless an option says otherwise. -/
def Choices.settings (choices : Choices) (environment : Table String) : Settings :=
  let settings := Settings.ofEnvironment environment
  { architecture := choices.architecture?.getD settings.architecture
    defaultSize? := choices.defaultSize? <|> settings.defaultSize?
    strict := choices.strict || settings.strict }

/-! ### Lowering -/

/-- What lowering expressions in turn comes to: the lines written, what came of each expression, and the
fault that cut it short, if there was one. -/
structure Transcript where
  out : List String := []
  err : List String := []
  lowerings : List Lowering := []
  fault? : Option Fault := none
  deriving DecidableEq, Repr

/-- The instructions of an expression, as lines. -/
def instructionLines (lowering : Lowering) : List String :=
  lowering.instructions.map fun instruction => Text.plain instruction.text

/-- The diagnostics of an expression, as lines. -/
def diagnosticLines (lowering : Lowering) : List String :=
  lowering.diagnostics.map fun diagnostic => Text.plain diagnostic.text

/-- Lowers expressions in turn up to the first fault. -/
def transcribe (verbose json : Bool) (lowerer : Lowerer) : List String → Transcript
  | [] => {}
  | expression :: rest =>
    let answer := lowerer.lower expression
    let log := if verbose then answer.events.map Event.line else []
    match answer.result with
    | .error fault => { err := log, fault? := some fault }
    | .ok lowering =>
      let more := transcribe verbose json answer.lowerer rest
      { more with
        out := (if json then [] else instructionLines lowering) ++ more.out
        err := log ++ (if json then [] else diagnosticLines lowering) ++ more.err
        lowerings := lowering :: more.lowerings }

/-- The outcome of a transcript: with its fault if it has one, else with the document if one is asked
for. Nothing catches the fault of a document that has an integer too long to be written: of its trace, as of
any other, only the first line is told. -/
def Transcript.outcome (transcript : Transcript) (choices : Choices) (architecture : String) : Outcome :=
  let exitCode := if transcript.lowerings.any (·.status == .failed) then ExitCode.lowering else .success
  match transcript.fault? with
  | some fault =>
    let last := faultOutcome choices.verbose fault
    { last with out := transcript.out ++ last.out, err := transcript.err ++ last.err }
  | none =>
    if choices.json then
      match (runDocument architecture transcript.lowerings).document? with
      | some document => { exitCode, out := transcript.out ++ [Text.plain document], err := transcript.err }
      | none => { exitCode := .uncaught, out := transcript.out, err := transcript.err ++ [traceLine] }
    else { exitCode, out := transcript.out, err := transcript.err }

/-- Lowers the expressions of a run. A log begins with the architecture and the width, and a width that is too
long to be written ends the run there. -/
def Choices.lower (choices : Choices) (lowerer : Lowerer) (expressions : List String) : Outcome :=
  let transcript := transcribe choices.verbose choices.json lowerer expressions
  let outcome := transcript.outcome choices lowerer.architecture
  if choices.verbose then
    match Numeral.text? lowerer.dialect.defaultSize with
    | none => faultOutcome choices.verbose (.refused .unwritable)
    | some size =>
      let opening := "Architecture: " ++ lowerer.architecture ++ ", default size: " ++ size ++ " bits"
      { outcome with err := Text.plain opening :: outcome.err }
  else outcome

/-! ### The run -/

/-- A run with its options checked. -/
def Choices.run (choices : Choices) (surroundings : Surroundings) : Outcome :=
  if choices.listArchitectures then
    { exitCode := .success, out := surroundings.registry.names.map Text.plain }
  else if choices.expressions ≠ [] ∧ choices.file?.isSome then
    { exitCode := .invalid, err := ["Error: give expressions as arguments or --file, not both"] }
  else match choices.sources surroundings.input with
    | .error fault => faultOutcome choices.verbose fault
    | .ok [] => { exitCode := .invalid, err := ["Error: no ESIL expressions to translate"] }
    | .ok expressions =>
      match (choices.settings surroundings.environment).lowerer surroundings.registry with
      | .error fault => faultOutcome choices.verbose fault
      | .ok lowerer => choices.lower lowerer expressions

/-- The run that arguments ask for. -/
def run (arguments : List String) (surroundings : Surroundings) : Outcome :=
  match Scan.ofArguments arguments with
  | .error misuse => misuse.outcome
  | .ok scan =>
    match scan.request? with
    | some .version => { exitCode := .success, out := [versionLine] }
    | some _ => { exitCode := .success, out := helpLines }
    | none =>
      match scan.choices surroundings.find with
      | .error misuse => misuse.outcome
      | .ok choices => choices.run surroundings

/-! ### What a run needs -/

/-- The path of the file that a run looks for. -/
def path? (arguments : List String) : Option String :=
  match Scan.ofArguments arguments with
  | .ok scan => scan.value? .file
  | .error _ => none

/-- Whether a run may read the input: it asks for no text about the program and names no source. -/
def readsInput (arguments : List String) : Bool :=
  match Scan.ofArguments arguments with
  | .ok scan =>
    scan.request?.isNone && !scan.has .listArchitectures && scan.expressions.isEmpty &&
      (scan.value? .file).isNone
  | .error _ => false

end EsilLowering.CommandLine
