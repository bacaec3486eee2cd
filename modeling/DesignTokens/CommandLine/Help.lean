import DesignTokens.CommandLine.Switch

/-!
# CommandLine/Help — usage and help

What the program prints about itself, for a width of eighty columns.
-/

namespace DesignTokens.CommandLine

/-- The name of the program. -/
def programName : String := "spectrum-tokens"

/-- The formats to choose from. -/
def formatChoices : String :=
  "\x7b" ++ ",".intercalate (OutputFormat.all.map OutputFormat.name) ++ "\x7d"

/-- How the program is called. -/
def usage : String :=
  "usage: " ++ programName ++ " [-h] [-v] [--format " ++ formatChoices ++ "]\n"
    ++ "                       [--namespace NAMESPACE] [--config CONFIG]\n"
    ++ "                       token_dir\n"

/-- What the program does, and its arguments one by one. -/
def help : String :=
  usage ++ "\n"
    ++ "Generate theme variable initialization code from Spectrum design tokens\n"
    ++ "\n"
    ++ "positional arguments:\n"
    ++ "  token_dir             Directory containing the spectrum token JSON files\n"
    ++ "\n"
    ++ "options:\n"
    ++ "  -h, --help            show this help message and exit\n"
    ++ "  -v, --verbose, -verbose\n"
    ++ "                        Report dropped tokens on stderr\n"
    ++ "  --format " ++ formatChoices ++ "\n"
    ++ "                        Output syntax (default: tcl)\n"
    ++ "  --namespace NAMESPACE\n"
    ++ "                        Namespace of the generated variables (default:\n"
    ++ "                        ::spectrum)\n"
    ++ "  --config CONFIG       YAML file overriding file set and output settings\n"

/-- What is printed for a command line that is not understood. -/
def UsageFault.report (e : UsageFault) : String :=
  usage ++ programName ++ ": error: " ++ e.message ++ "\n"

end DesignTokens.CommandLine
