import WhileFrontend.Text.Hex

/-!
# The standard output

A run prints at most one text, as the last thing it does, and the standard output may refuse it:
its character set need not have every character of the text. The report of a refusal names the
first characters that are missing and where they stand. A text is printed as a whole or not at all.
-/

namespace WhileFrontend.CommandLine

/-- The standard output, as far as a run depends on it. -/
structure Console where
  /-- The report of why a text is refused. -/
  refusal? : String → Option String
  /-- Where nothing is printed, nothing is refused. -/
  refusal?_empty : refusal? "" = none

/-- The output that takes every text. -/
def Console.lenient : Console where
  refusal? _ := none
  refusal?_empty := rfl

/-! ## Outputs with a character set -/

/-- The characters that an output can print. -/
structure Charset where
  name : String
  contains : Char → Bool
  /-- What is said of a character that is missing. -/
  reason : String

namespace Charset

/-- A missing character by its code, in the least of three widths. -/
def codeOf (c : Char) : String :=
  let n := c.toNat
  if n < 0x100 then "\\x" ++ String.ofList (Text.hex 2 n)
  else if n < 0x10000 then "\\u" ++ String.ofList (Text.hex 4 n)
  else "\\U" ++ String.ofList (Text.hex 8 n)

/-- The report of missing characters that stand side by side, the first of them at `position`. -/
def report (s : Charset) (missing : List Char) (position : Nat) : String :=
  let characters :=
    match missing with
    | [c] => "character '" ++ codeOf c ++ "' in position " ++ toString position
    | _ =>
      "characters in position " ++ toString position ++ "-"
        ++ toString (position + missing.length - 1)
  "'" ++ s.name ++ "' codec can't encode " ++ characters ++ ": " ++ s.reason

/-- The report of a text in which characters are missing. -/
def refusal? (s : Charset) (text : String) : Option String :=
  match (text.toList.dropWhile s.contains).takeWhile (!s.contains ·) with
  | [] => none
  | missing => some (s.report missing (text.toList.takeWhile s.contains).length)

/-- The output that prints the texts of a character set. -/
def console (s : Charset) : Console where
  refusal? := s.refusal?
  refusal?_empty := rfl

end Charset

end WhileFrontend.CommandLine
