import WhileFrontend.Text.Blank
import WhileFrontend.Text.Digit
import WhileFrontend.Text.Letter
import WhileFrontend.Token.Basic

/-!
# From characters to tokens

Lexing never fails. Blanks are skipped; the token at the first character left is, in this order, the
longest symbol, a run of decimal digits, a letter with the run of name characters after it, or that
one character alone.

## Mechanism

`next c cs` reads the token that starts with `c` and gives back what follows it. A number's value is
built digit by digit in base ten, so digits of all scripts and leading zeros are accepted at any
length. A name that spells a keyword is that keyword.

## Termination

`tokens` is recursive in the number of characters left: `next` uses up `c`, so what it gives back is
no longer than `cs` (`length_next_le`).
-/

namespace WhileFrontend.Lexer

open Text

/-- The characters that may continue a name: letters, digits and other numerals. -/
def isNameChar (c : Char) : Bool :=
  isLetter c || isDigit c || isOtherNumeral c

/-- The longest symbol at the front of a text, with what follows it. -/
def symbol? (cs : List Char) : Option (Symbol × List Char) :=
  match Symbol.ofSpelling? (cs.take 2) with
  | some s => some (s, cs.drop 2)
  | none =>
    match Symbol.ofSpelling? (cs.take 1) with
    | some s => some (s, cs.drop 1)
    | none => none

/-- The number that a row of digits denotes in base ten. -/
def numeral (digits : List Char) : Nat :=
  digits.foldl (fun n c => n * 10 + (digitValue? c).getD 0) 0

/-- The token of a word: the keyword it spells, or a name. -/
def wordToken (cs : List Char) : Token :=
  match Keyword.ofSpelling? cs with
  | some k => .keyword k
  | none => .ident cs

/-- The token that starts with `c`, which is no blank, and the characters after it. -/
def next (c : Char) (cs : List Char) : Token × List Char :=
  match symbol? (c :: cs) with
  | some (s, rest) => (.symbol s, rest)
  | none =>
    if isDigit c then (.number (numeral (c :: cs.takeWhile isDigit)), cs.dropWhile isDigit)
    else if isLetter c then
      (wordToken (c :: cs.takeWhile isNameChar), cs.dropWhile isNameChar)
    else (.unknown c, cs)

/-- What is left after the blanks at the front. -/
def skipBlanks (cs : List Char) : List Char :=
  cs.dropWhile isBlank

theorem length_dropWhile_le (p : Char → Bool) (cs : List Char) :
    (cs.dropWhile p).length ≤ cs.length :=
  (List.dropWhile_suffix p).length_le

theorem length_symbol?_le {c : Char} {cs rest : List Char} {s : Symbol}
    (h : symbol? (c :: cs) = some (s, rest)) : rest.length ≤ cs.length := by
  unfold symbol? at h
  split at h
  · have h2 := (Prod.mk.inj (Option.some.inj h)).2
    rw [← h2]
    simp only [List.length_drop, List.length_cons]
    omega
  · split at h
    · have h2 := (Prod.mk.inj (Option.some.inj h)).2
      rw [← h2]
      simp
    · cases h

/-- A token uses up at least one character. -/
theorem length_next_le (c : Char) (cs : List Char) : (next c cs).2.length ≤ cs.length := by
  unfold next
  split
  · next h => exact length_symbol?_le h
  · split
    · exact length_dropWhile_le _ _
    · split
      · exact length_dropWhile_le _ _
      · exact Nat.le_refl _

/-- The tokens of a text, in order. -/
def tokens (cs : List Char) : List Token :=
  match _h : skipBlanks cs with
  | [] => []
  | c :: rest => (next c rest).1 :: tokens (next c rest).2
termination_by cs.length
decreasing_by
  have h1 : (c :: rest).length ≤ cs.length := _h ▸ length_dropWhile_le _ _
  have h2 := length_next_le c rest
  simp only [List.length_cons] at h1
  omega

end WhileFrontend.Lexer

namespace WhileFrontend

/-- The tokens of a source text; the end is not marked. -/
def tokenize (source : String) : List Token :=
  Lexer.tokens source.toList

end WhileFrontend
