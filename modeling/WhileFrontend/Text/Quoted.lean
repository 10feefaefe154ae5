import WhileFrontend.Text.Hex
import WhileFrontend.Text.Printable

/-!
# Quoted texts

How a text is shown inside a token or a tree: between single quotes, or between double quotes when
it holds a single quote and no double one, with escapes for the backslash, for the quote in use and
for whatever is not printable. No quoted text holds a line break, and none ends before its closing
quote, so distinct texts have distinct quoted forms.
-/

namespace WhileFrontend.Text

/-- The quote put around a text: double if that avoids an escape, single otherwise. -/
def quoteMark (cs : List Char) : Char :=
  if cs.contains '\x27' && !cs.contains '\x22' then '\x22' else '\x27'

/-- One character as it stands between the quotes `mark`. -/
def escapeChar (mark c : Char) : List Char :=
  if c = '\\' ∨ c = mark then ['\\', c]
  else if c = '\t' then ['\\', 't']
  else if c = '\n' then ['\\', 'n']
  else if c = '\r' then ['\\', 'r']
  else if isPrintable c then [c]
  else if c.toNat < 0x100 then '\\' :: 'x' :: hex 2 c.toNat
  else if c.toNat < 0x10000 then '\\' :: 'u' :: hex 4 c.toNat
  else '\\' :: 'U' :: hex 8 c.toNat

/-- A text between quotes. -/
def quoteChars (cs : List Char) : List Char :=
  quoteMark cs :: cs.flatMap (escapeChar (quoteMark cs)) ++ [quoteMark cs]

/-- A string between quotes. -/
def quote (s : String) : String :=
  String.ofList (quoteChars s.toList)

end WhileFrontend.Text
