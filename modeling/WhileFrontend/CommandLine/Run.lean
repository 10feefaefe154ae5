import WhileFrontend.CommandLine.Console
import WhileFrontend.CommandLine.Disk
import WhileFrontend.CommandLine.Usage
import WhileFrontend.Json.Writer
import WhileFrontend.Parsing.Program
import WhileFrontend.Text.Newline
import WhileFrontend.Text.Utf8
import WhileFrontend.Tree.Json

/-!
# Running a request

The source is read, lexed and, unless only the tokens are asked for, parsed; the result is written
to a file or printed. The output is opened when all of that is done. What may still fail then is to
print, which comes last: the text, or the line that tells which file it was written to. Files are
reached through a `Disk`, so the same run works on real files and on a folder in memory, and it
prints on any `Console`.
-/

namespace WhileFrontend.CommandLine

/-- Why a request is not carried out. -/
inductive Failure where
  /-- The source's name does not end as that of a program's file. -/
  | notWhileFile
  /-- A file cannot be opened. -/
  | file (path : String) (fault : FileFault)
  /-- The source's bytes are not UTF-8. -/
  | undecodable (fault : Text.Utf8.Fault)
  /-- The source does not parse, with the report of why. -/
  | unparsable (report : String)
  /-- An integer that has to be written is too long. -/
  | tooManyDigits
  /-- The tree has too many levels to be written. -/
  | tooDeep
  /-- The standard output refuses what is to be printed, with its report of why. -/
  | unprintable (report : String)
  deriving DecidableEq, Repr

/-! ## Reports of failures -/

/-- The report of a file that cannot be opened. -/
def fileReport (path : String) : FileFault → String
  | .notFound => "[Errno 2] No such file or directory: " ++ Text.quote path
  | .notDirectory => "[Errno 20] Not a directory: " ++ Text.quote path
  | .isDirectory => "[Errno 21] Is a directory: " ++ Text.quote path
  | .nullCharacter => "embedded null byte"

/-- The report of bytes that are not UTF-8. -/
def utf8Report (f : Text.Utf8.Fault) : String :=
  let bytes :=
    if f.length = 1 then
      "byte 0x" ++ String.ofList (Text.hex 2 f.byte) ++ " in position " ++ toString f.position
    else
      "bytes in position " ++ toString f.position ++ "-" ++ toString (f.position + f.length - 1)
  let reason :=
    match f.reason with
    | .invalidStart => "invalid start byte"
    | .invalidContinuation => "invalid continuation byte"
    | .unexpectedEnd => "unexpected end of data"
  "'utf-8' codec can't decode " ++ bytes ++ ": " ++ reason

/-- The report of a failure. -/
def Failure.message : Failure → String
  | notWhileFile => "Only .while files are supported."
  | file path f => fileReport path f
  | undecodable f => utf8Report f
  | unparsable report => report
  | tooManyDigits => Text.TooManyDigits.tooManyDigits.message
  | tooDeep => "Tree nested too deeply"
  | unprintable report => report

/-- The failure of a parse. Its report may show an integer that is too long to be written. -/
def Failure.ofParseFault (f : ParseFault) : Failure :=
  match f.report with
  | .ok report => unparsable report
  | .error _ => tooManyDigits

/-! ## From source to text -/

/-- The tokens of a source, one per line. -/
def tokenLines (source : String) : Except Failure String :=
  match (tokenize source).mapM Token.shown with
  | .ok lines => .ok ("\n".intercalate lines)
  | .error _ => .error .tooManyDigits

/-- The tree of a source as JSON. -/
def treeText (layout : Json.Layout) (source : String) : Except Failure String :=
  match parse source with
  | .error f => .error (.ofParseFault f)
  | .ok p =>
    match p.toNode.serialize with
    | .error _ => .error .tooDeep
    | .ok j =>
      match j.write layout with
      | .error _ => .error .tooManyDigits
      | .ok text => .ok text

/-! ## Requests -/

/-- Prints a text; gives what is printed. -/
def Console.print (console : Console) (text : String) : Except Failure String :=
  match console.refusal? text with
  | none => .ok text
  | some report => .error (.unprintable report)

namespace Request

/-- The layout of the JSON that is asked for. -/
def layout (r : Request) : Json.Layout :=
  if r.pretty then .indented else .compact

/-- The text that is asked for, without a line feed at its end. -/
def textOf (r : Request) (source : String) : Except Failure String :=
  if r.tokensOnly then tokenLines source else treeText r.layout source

/-- The file to write to. -/
def target? (r : Request) : Option String :=
  r.out.filter (· ≠ "")

/-- The line above and below the title and the text of a pretty print. -/
def banner : String := String.ofList (List.replicate 20 '=')

/-- What the text is. -/
def title (r : Request) : String :=
  if r.tokensOnly then "Tokens" else "Abstract Syntax Tree"

/-- What is printed of a text. -/
def printed (r : Request) (text : String) : String :=
  if r.pretty then
    banner ++ "\n" ++ r.title ++ "\n" ++ banner ++ "\n" ++ text ++ "\n" ++ banner ++ "\n"
  else text ++ "\n"

/-- What is printed once a text is in the file `path`. -/
def printedOfFile (r : Request) (path : String) : String :=
  if r.pretty then "(wrote to " ++ path ++ ")\n" else ""

variable {m : Type → Type} [Monad m]

/-- The program text of a file's bytes. -/
def decodeSource (bytes : Bytes) : Except Failure String :=
  match Text.Utf8.decode bytes with
  | .ok cs => .ok (String.ofList (Text.unifyNewlines cs))
  | .error f => .error (.undecodable f)

/-- The program text that a request names or holds. -/
def load (disk : Disk m) (r : Request) : m (Except Failure String) := do
  if r.isText then return .ok r.source
  else if r.source.endsWith ".while" then
    match ← disk.read r.source with
    | .ok bytes => return decodeSource bytes
    | .error f => return .error (.file r.source f)
  else return .error .notWhileFile

/-- Puts the text where the request asks for it; gives what is printed. A file is written before
the line about it is printed. -/
def deliver (disk : Disk m) (r : Request) (text : String) (console : Console := .lenient) :
    m (Except Failure String) := do
  match r.target? with
  | none => return console.print (r.printed text)
  | some path =>
    match ← disk.write path (Text.Utf8.encode (text ++ "\n").toList) with
    | .ok _ => return console.print (r.printedOfFile path)
    | .error f => return .error (.file path f)

/-- Carries a request out; gives what is printed. -/
def run (disk : Disk m) (r : Request) (console : Console := .lenient) :
    m (Except Failure String) := do
  match ← r.load disk with
  | .error f => return .error f
  | .ok source =>
    match r.textOf source with
    | .error f => return .error f
    | .ok text => r.deliver disk text console

end Request

/-! ## The program -/

/-- How a run of the program ends. -/
inductive Ending where
  /-- With an exit status. -/
  | exit (status : Nat)
  /-- With a failure that the program has no report for. -/
  | unreported (f : Failure)
  deriving DecidableEq, Repr

/-- What a run of the program leaves on the standard output and the standard error, and how it
ends. -/
structure Report where
  stdout : String := ""
  stderr : String := ""
  ending : Ending
  deriving DecidableEq, Repr

/-- The report of a failure to carry out a request. -/
def Failure.report (f : Failure) : Report :=
  match f with
  | .tooDeep => { ending := .unreported f }
  | .unparsable _ => { stderr := "Syntax error: " ++ f.message ++ "\n", ending := .exit 1 }
  | _ => { stderr := "Error: " ++ f.message ++ "\n", ending := .exit 1 }

/-- The report of arguments that make no request. -/
def Stop.report : Stop → Report
  | .help => { stdout := helpText, ending := .exit 0 }
  | .misuse m => { stderr := m.report, ending := .exit 2 }

/-- Runs the program on its arguments. -/
def runProgram {m : Type → Type} [Monad m] (disk : Disk m) (args : List String)
    (console : Console := .lenient) : m Report := do
  match readArguments args with
  | .error stop => return stop.report
  | .ok r =>
    match ← r.run disk console with
    | .ok out => return { stdout := out, ending := .exit 0 }
    | .error f => return f.report

end WhileFrontend.CommandLine
