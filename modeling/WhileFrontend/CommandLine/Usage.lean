import WhileFrontend.CommandLine.Arguments
import WhileFrontend.Text.Quoted

/-!
# Usage

The help text, and the reports of arguments that make no request.
-/

namespace WhileFrontend.CommandLine

/-- The line that shows how the program is called. -/
def usageLine : String :=
  "usage: whilelang [-h] [-s] [-o OUTFILE] [-p] [--tokens] source\n"

/-- The whole help text. -/
def helpText : String :=
  usageLine ++
    "\n" ++
    "positional arguments:\n" ++
    "  source                Filename or raw source (with -s)\n" ++
    "\n" ++
    "options:\n" ++
    "  -h, --help            show this help message and exit\n" ++
    "  -s, --string          Interpret source as literal string\n" ++
    "  -o OUTFILE, --out OUTFILE\n" ++
    "                        Output to file\n" ++
    "  -p, --pretty          Indent output and show banners\n" ++
    "  --tokens              Print the token stream instead of the AST\n"

/-- What is wrong with the arguments. -/
def Misuse.message : Misuse → String
  | ambiguous word candidates =>
    "ambiguous option: " ++ word ++ " could match " ++
      ", ".intercalate (candidates.map Switch.shownLong)
  | ignoredValue s v => "argument " ++ s.shown ++ ": ignored explicit argument " ++ Text.quote v
  | missingValue s => "argument " ++ s.shown ++ ": expected one argument"
  | missingSource => "the following arguments are required: source"
  | unrecognized words => "unrecognized arguments: " ++ " ".intercalate words

/-- The report on the standard error: the usage line and what is wrong. -/
def Misuse.report (m : Misuse) : String :=
  usageLine ++ "whilelang: error: " ++ m.message ++ "\n"

end WhileFrontend.CommandLine
