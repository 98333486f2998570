import EsilLowering.Text.Quoted

/-! # Options of the command line

The options and how arguments give them. An argument is an option if it begins with a hyphen and is no
lone hyphen, up to an argument `--`. A long option takes its value after `=` or from the next argument;
short options stand one after the other behind one hyphen, and one that takes a value takes what is
left, or else the next argument. -/

namespace EsilLowering.CommandLine

/-- Options that are given or not. -/
inductive Flag where
  | strict
  | json
  | listArchitectures
  | verbose
  | version
  | help
  deriving DecidableEq, Repr

/-- Options with a value. -/
inductive Setting where
  | file
  | architecture
  | defaultSize
  deriving DecidableEq, Repr

/-- An option. -/
inductive Switch where
  | flag (flag : Flag)
  | setting (setting : Setting)
  deriving DecidableEq, Repr

/-- The option that a long name stands for. -/
def longSwitch? : String → Option Switch
  | "--file" => some (.setting .file)
  | "--arch" => some (.setting .architecture)
  | "--default-size" => some (.setting .defaultSize)
  | "--strict" => some (.flag .strict)
  | "--json" => some (.flag .json)
  | "--list-arches" => some (.flag .listArchitectures)
  | "--verbose" => some (.flag .verbose)
  | "--version" => some (.flag .version)
  | "--help" => some (.flag .help)
  | _ => none

/-- The option that a letter behind a hyphen stands for. -/
def shortSwitch? : Char → Option Switch
  | 'f' => some (.setting .file)
  | 'a' => some (.setting .architecture)
  | 'v' => some (.flag .verbose)
  | _ => none

/-- What is wrong with a command line. -/
inductive Misuse where
  /-- No option has the name. -/
  | unknownOption (name : String)
  /-- An option's value is missing. -/
  | missingValue (name : String)
  /-- An option that has no value is given one. -/
  | unwantedValue (name : String)
  /-- The file does not exist. -/
  | missingFile (path : String)
  /-- The file is a directory. -/
  | directory (path : String)
  /-- The width is no integer. -/
  | malformedSize (text : String)
  /-- The width is not positive. -/
  | sizeTooSmall (size : Int)
  deriving DecidableEq, Repr

/-- A misuse in words. Behind an unknown name, options with a similar one may be suggested; these suggestions
are left out. -/
def Misuse.message : Misuse → String
  | unknownOption name => "No such option " ++ Text.quoted name ++ "."
  | missingValue name => "Option " ++ Text.quoted name ++ " requires an argument."
  | unwantedValue name => "Option " ++ Text.quoted name ++ " does not take a value."
  | missingFile path => "Invalid value for '-f' / '--file': File " ++ Text.quoted path ++ " does not exist."
  | directory path => "Invalid value for '-f' / '--file': File " ++ Text.quoted path ++ " is a directory."
  | malformedSize text =>
    "Invalid value for '--default-size': " ++ Text.quoted text ++ " is not a valid integer range."
  | sizeTooSmall size => s!"Invalid value for '--default-size': {size} is not in the range x>=1."

/-- Whether the message comes after a reminder of the usage. -/
def Misuse.remindsOfUsage : Misuse → Bool
  | missingValue _ | unwantedValue _ => false
  | unknownOption _ | missingFile _ | directory _ | malformedSize _ | sizeTooSmall _ => true

/-- An option as it was given. -/
inductive Given where
  | flag (flag : Flag)
  | setting (setting : Setting) (value : String)
  deriving DecidableEq, Repr

/-- What some arguments came to: the options in order, the expressions in order, the setting whose value
is due next with the name it was given by, and whether options are over. -/
structure Scan where
  options : List Given := []
  expressions : List String := []
  due? : Option (Setting × String) := none
  optionsOver : Bool := false
  deriving DecidableEq, Repr

namespace Scan

/-- Adds an option. -/
def give (scan : Scan) (given : Given) : Scan := { scan with options := scan.options ++ [given] }

/-- Reads letters behind a hyphen. -/
def readLetters (scan : Scan) : List Char → Except Misuse Scan
  | [] => .ok scan
  | letter :: rest =>
    let name := String.ofList ['-', letter]
    match shortSwitch? letter with
    | none => .error (.unknownOption name)
    | some (.flag flag) => (scan.give (.flag flag)).readLetters rest
    | some (.setting setting) =>
      if rest = [] then .ok { scan with due? := some (setting, name) }
      else .ok (scan.give (.setting setting (String.ofList rest)))

/-- Reads an option whose name ends at the first `=`, if there is one. -/
def readOption (scan : Scan) (argument : String) : Except Misuse Scan :=
  let chars := argument.toList
  let name := String.ofList (chars.takeWhile (· ≠ '='))
  let value? := match chars.dropWhile (· ≠ '=') with
    | [] => none
    | _ :: value => some (String.ofList value)
  match longSwitch? name, value? with
  | some (.flag flag), none => .ok (scan.give (.flag flag))
  | some (.flag _), some _ => .error (.unwantedValue name)
  | some (.setting setting), none => .ok { scan with due? := some (setting, name) }
  | some (.setting setting), some value => .ok (scan.give (.setting setting value))
  | none, _ =>
    if ['-', '-'].isPrefixOf chars then .error (.unknownOption name)
    else scan.readLetters (chars.drop 1)

/-- Reads an argument. -/
def read (scan : Scan) (argument : String) : Except Misuse Scan :=
  match scan.due? with
  | some (setting, _) => .ok ({ scan with due? := none }.give (.setting setting argument))
  | none =>
    if scan.optionsOver then .ok { scan with expressions := scan.expressions ++ [argument] }
    else if argument = "--" then .ok { scan with optionsOver := true }
    else if ['-'].isPrefixOf argument.toList ∧ argument ≠ "-" then scan.readOption argument
    else .ok { scan with expressions := scan.expressions ++ [argument] }

/-- Reads all arguments. -/
def ofArguments (arguments : List String) : Except Misuse Scan := do
  let scan ← arguments.foldlM read {}
  match scan.due? with
  | some (_, name) => .error (.missingValue name)
  | none => .ok scan

/-- Whether a flag is given. -/
def has (scan : Scan) (flag : Flag) : Bool := scan.options.contains (.flag flag)

/-- The values of a setting, in the order given. -/
def values (scan : Scan) (setting : Setting) : List String :=
  scan.options.filterMap fun
    | .setting other value => if other = setting then some value else none
    | .flag _ => none

/-- The value of a setting: the last one given. -/
def value? (scan : Scan) (setting : Setting) : Option String := (scan.values setting).getLast?

/-- The settings that are given, by where each comes first. -/
def settings (scan : Scan) : List Setting :=
  (scan.options.filterMap fun
    | .setting setting _ => some setting
    | .flag _ => none).eraseDups

/-- The first flag that asks for a text about the program instead of a run. -/
def request? (scan : Scan) : Option Flag :=
  scan.options.findSome? fun
    | .flag .help => some .help
    | .flag .version => some .version
    | _ => none

end Scan
end EsilLowering.CommandLine
