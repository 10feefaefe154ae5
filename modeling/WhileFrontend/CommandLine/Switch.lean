/-!
# Switches

The options of the command line. Each has a long name, all but one a letter as well, and one takes a
value.
-/

namespace WhileFrontend.CommandLine

/-- An option of the command line. -/
inductive Switch where
  /-- Prints the help and stops. -/
  | help
  /-- The source is program text rather than a file's name. -/
  | string
  /-- Names the file to write to. -/
  | out
  /-- Indents the output and sets it between banners. -/
  | pretty
  /-- Prints the tokens rather than the tree. -/
  | tokens
  deriving DecidableEq, Repr

namespace Switch

/-- Every switch, in the order of the help text. -/
def all : List Switch := [help, string, out, pretty, tokens]

/-- The letter of a switch. -/
def letter? : Switch → Option Char
  | help => some 'h'
  | string => some 's'
  | out => some 'o'
  | pretty => some 'p'
  | tokens => none

/-- The long name of a switch. -/
def longName : Switch → List Char
  | help => ['h', 'e', 'l', 'p']
  | string => ['s', 't', 'r', 'i', 'n', 'g']
  | out => ['o', 'u', 't']
  | pretty => ['p', 'r', 'e', 't', 't', 'y']
  | tokens => ['t', 'o', 'k', 'e', 'n', 's']

/-- The switch with a given letter. -/
def ofLetter? (c : Char) : Option Switch :=
  all.find? fun s => s.letter? = some c

/-- The switches whose long names start with `name`. -/
def startingWith (name : List Char) : List Switch :=
  all.filter fun s => name.isPrefixOf s.longName

/-- The long form of a switch, as messages name it. -/
def shownLong (s : Switch) : String :=
  "--" ++ String.ofList s.longName

/-- All forms of a switch, as messages name it. -/
def shown (s : Switch) : String :=
  match s.letter? with
  | some c => "-" ++ String.singleton c ++ "/" ++ s.shownLong
  | none => s.shownLong

end Switch

end WhileFrontend.CommandLine
