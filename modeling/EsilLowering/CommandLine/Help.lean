/-! # Texts about the program -/

namespace EsilLowering.CommandLine

/-- The version of the program. -/
def version : String := "0.1.0"

/-- The line that tells the version. -/
def versionLine : String := s!"esil2ir, version {version}"

/-- How the program is called. -/
def usageLine : String := "Usage: esil2ir [OPTIONS] [EXPRESSIONS]..."

/-- Where to find more. -/
def helpLine : String := "Try 'esil2ir --help' for help."

/-- The help text, line by line. -/
def helpLines : List String := [
  usageLine,
  "",
  "  Translate ESIL expressions into three-operand instructions.",
  "",
  "  EXPRESSIONS are comma-separated ESIL strings. Without arguments or --file,",
  "  expressions are read from stdin, one per line. Blank lines and lines starting",
  "  with '#' are skipped.",
  "",
  "  Examples:",
  "      esil2ir \"rax,rbx,+=\"          # tmp_1 = rax + rbx / rax = tmp_1",
  "      esil2ir -f trace.esil --json  # Translate a file to JSON",
  "      esil2ir -a x86_64 --strict \"rax,+\"",
  "",
  "Options:",
  "  -f, --file FILE               Read ESIL expressions from a file, one per line",
  "  -a, --arch TEXT               Architecture profile (default: $ESIL_IR_ARCH or",
  "                                x86_64)",
  "  --default-size INTEGER RANGE  Width in bits for constants and unknown operands",
  "                                [x>=1]",
  "  --strict                      Stop at the first translation problem (with",
  "                                --json, nothing is printed)",
  "  --json                        Output instructions and diagnostics as JSON",
  "  --list-arches                 List available architecture profiles and exit",
  "  -v, --verbose                 Verbose output (translator debug log on stderr)",
  "  --version                     Show the version and exit.",
  "  --help                        Show this message and exit."]

end EsilLowering.CommandLine
