import WhileFrontend.CommandLine.Request
import WhileFrontend.CommandLine.Switch
import WhileFrontend.Text.Digit

/-!
# Command line arguments

Switches and the source may come in any order, and the last of several values for one switch counts.
Letters can be put together after one dash, and a letter that takes a value takes what is left of
the word, or the next word. An equals sign after the first letter only separates, so `-o=x` is `-ox`
and `-s=p` is `-sp`; further on it is part of the text. A long name can be cut short as long as it
stays the start of one name only, and takes its value after an equals sign or from the next word.
After `--` no word is a switch.

## Mechanism

Words are classified first (`classify`), so that an ambiguous long name is reported before all else.
Then they are gone through from left to right (`scan`): the first plain word is the source, later
plain words and unknown switches are left over, and the help switch stops at once. A `--` next to
the word that becomes the source belongs to it, any other is left over. In the end a missing source
is reported first, and left-over words after that.
-/

namespace WhileFrontend.CommandLine

open Text

/-- Why the arguments make no request. -/
inductive Misuse where
  /-- A long name is the start of several. -/
  | ambiguous (word : String) (candidates : List Switch)
  /-- A switch that takes no value is given one. -/
  | ignoredValue (switch : Switch) (value : String)
  /-- A switch that takes a value is given none. -/
  | missingValue (switch : Switch)
  /-- There is no source. -/
  | missingSource
  /-- These words are left over. -/
  | unrecognized (words : List String)
  deriving DecidableEq, Repr

/-- What a word is on the command line. -/
inductive Word where
  | plain (word : String)
  /-- A dash, the letter of a switch, and the text that is attached to it. -/
  | short (switch : Switch) (attached : Option (List Char))
  /-- Two dashes, the start of a switch's long name, and the value after an equals sign. -/
  | long (switch : Switch) (value : Option (List Char))
  /-- A word that looks like a switch and is none. -/
  | unknown (word : String)
  /-- The `--` after which all words are plain. -/
  | separator
  deriving DecidableEq, Repr

/-! ## Classifying words -/

/-- Digits only, at least one, up to the end or to a final line feed. -/
def isDigits (cs : List Char) : Bool :=
  match cs.dropWhile isDigit with
  | [] => !cs.isEmpty
  | rest => rest = ['\n'] && rest ≠ cs

/-- What follows the minus sign of a number: digits, or a point and digits after any digits. -/
def isUnsignedNumber (cs : List Char) : Bool :=
  isDigits cs ||
    match cs.dropWhile isDigit with
    | '.' :: fraction => isDigits fraction
    | _ => false

/-- A word that names no switch: plain if it is a negative number or holds a blank. -/
def classifyOther (word : String) (afterDash : List Char) : Word :=
  if isUnsignedNumber afterDash || word.toList.contains ' ' then .plain word else .unknown word

/-- The value after the first equals sign. -/
def valueAfterEquals (cs : List Char) : Option (List Char) :=
  match cs.dropWhile (· ≠ '=') with
  | [] => none
  | _ :: value => some value

/-- The text attached to the first letter, less an equals sign that separates them. -/
def attachedText : List Char → Option (List Char)
  | [] => none
  | '=' :: text => some text
  | text => some text

/-- Classifies a word before any separator. -/
def classify (word : String) : Except Misuse Word :=
  match word.toList with
  | '-' :: '-' :: cs =>
    match Switch.startingWith (cs.takeWhile (· ≠ '=')) with
    | [] => .ok (classifyOther word ('-' :: cs))
    | [s] => .ok (.long s (valueAfterEquals cs))
    | candidates => .error (.ambiguous word candidates)
  | '-' :: c :: cs =>
    match Switch.ofLetter? c with
    | some s => .ok (.short s (attachedText cs))
    | none => .ok (classifyOther word (c :: cs))
  | _ => .ok (.plain word)

/-- Classifies all words. -/
def classifyAll : List String → Except Misuse (List Word)
  | [] => return []
  | word :: rest =>
    if word = "--" then return .separator :: rest.map .plain
    else return (← classify word) :: (← classifyAll rest)

/-! ## Taking words apart -/

/-- What a word with switches leaves to be done after its flags. -/
inductive Remainder where
  | done
  /-- The value of the output switch. -/
  | value (v : String)
  /-- The output switch takes its value from the next word. -/
  | nextWord
  deriving DecidableEq, Repr

/-- The file's name that a value in the same word gives; `--` there stands for the empty name. -/
def attachedName (value : List Char) : String :=
  if value = ['-', '-'] then "" else String.ofList value

/-- What a switch comes to with no text of its own. -/
def withoutValue (s : Switch) : List Switch × Remainder :=
  if s = .out then ([], .nextWord) else ([s], .done)

/-- What a switch comes to with a value in the same word. -/
def withValue (s : Switch) (value : List Char) : Except Misuse (List Switch × Remainder) :=
  if s = .out then .ok ([], .value (attachedName value))
  else .error (.ignoredValue s (String.ofList value))

/-- The flags of a word of letters, given what follows the letter of `s`. -/
def cluster (s : Switch) : List Char → Except Misuse (List Switch × Remainder)
  | [] => .ok (withoutValue s)
  | c :: rest =>
    if s = .out then withValue s (c :: rest)
    else
      match Switch.ofLetter? c with
      | none => withValue s (c :: rest)
      | some next => (cluster next rest).map fun r => (s :: r.1, r.2)

/-- What a short switch comes to: text after the letter of a flag is more letters. -/
def shortSwitch (s : Switch) : Option (List Char) → Except Misuse (List Switch × Remainder)
  | none => .ok (withoutValue s)
  | some [] => withValue s []
  | some (c :: cs) => cluster s (c :: cs)

/-- What a long switch comes to. -/
def longSwitch (s : Switch) : Option (List Char) → Except Misuse (List Switch × Remainder)
  | none => .ok (withoutValue s)
  | some value => withValue s value

/-! ## Going through the words -/

/-- What the words so far have come to. -/
structure Progress where
  source : Option String := none
  /-- Whether the last word became the source. -/
  atSource : Bool := false
  isText : Bool := false
  out : Option String := none
  pretty : Bool := false
  tokensOnly : Bool := false
  leftOver : List String := []

namespace Progress

/-- After a plain word. -/
def plain (p : Progress) (word : String) : Progress :=
  match p.source with
  | none => { p with source := some word, atSource := true }
  | some _ => { p with leftOver := p.leftOver ++ [word], atSource := false }

/-- After a word that is left over. -/
def leave (p : Progress) (word : String) : Progress :=
  { p with leftOver := p.leftOver ++ [word], atSource := false }

/-- After a switch without a value. -/
def flag (p : Progress) : Switch → Progress
  | .string => { p with isText := true, atSource := false }
  | .pretty => { p with pretty := true, atSource := false }
  | .tokens => { p with tokensOnly := true, atSource := false }
  | .help => { p with atSource := false }
  | .out => { p with atSource := false }

/-- After the output switch with its value. -/
def output (p : Progress) (name : String) : Progress :=
  { p with out := some name, atSource := false }

end Progress

/-- Why going through the words stops before their end. -/
inductive Stop where
  | help
  | misuse (m : Misuse)
  deriving DecidableEq, Repr

/-- After the flags of one word, unless the help switch is among them. -/
def Progress.flags (p : Progress) (switches : List Switch) : Except Stop Progress :=
  if .help ∈ switches then .error .help else .ok (switches.foldl Progress.flag p)

/-- Goes through the words. -/
def scan (p : Progress) : List Word → Except Stop Progress
  | [] => .ok p
  | .plain w :: rest => scan (p.plain w) rest
  | .unknown w :: rest => scan (p.leave w) rest
  | .separator :: rest =>
    if p.atSource || (p.source.isNone && !rest.isEmpty) then scan p rest
    else scan (p.leave "--") rest
  | .short s text :: rest => taken (shortSwitch s text) rest
  | .long s v :: rest => taken (longSwitch s v) rest
where
  /-- Goes on after a word of switches. -/
  taken (r : Except Misuse (List Switch × Remainder)) (rest : List Word) : Except Stop Progress :=
    match r with
    | .error m => .error (.misuse m)
    | .ok (switches, .nextWord) =>
      match rest with
      | .plain w :: rest => do scan ((← p.flags switches).output w) rest
      | _ => .error (.misuse (.missingValue .out))
    | .ok (switches, .done) => do scan (← p.flags switches) rest
    | .ok (switches, .value v) => do scan ((← p.flags switches).output v) rest

/-- The request that the words come to in the end. -/
def Progress.request (p : Progress) : Except Misuse Request :=
  match p.source with
  | none => .error .missingSource
  | some source =>
    if p.leftOver.isEmpty then
      .ok ⟨source, p.isText, p.out, p.pretty, p.tokensOnly⟩
    else .error (.unrecognized p.leftOver)

/-- The request that the arguments make. -/
def readArguments (args : List String) : Except Stop Request :=
  match classifyAll args with
  | .error m => .error (.misuse m)
  | .ok words =>
    match scan {} words with
    | .error stop => .error stop
    | .ok p =>
      match p.request with
      | .error m => .error (.misuse m)
      | .ok r => .ok r

end WhileFrontend.CommandLine
