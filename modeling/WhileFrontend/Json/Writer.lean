import WhileFrontend.Json.Basic
import WhileFrontend.Text.Decimal
import WhileFrontend.Text.Hex

/-!
# JSON as text

A value is written on one line, with a blank after each comma and colon, or with each item and field
on a line of its own, indented by two blanks per level. Strings are written in ASCII: a character
outside U+0020 to U+007E is an escape, above U+FFFF a pair of them for its two surrogates. Writing
fails only where an integer is too long to be written.
-/

namespace WhileFrontend.Json

/-- How the parts of a value are set apart. -/
inductive Layout where
  /-- All on one line. -/
  | compact
  /-- An item or field per line. -/
  | indented
  deriving DecidableEq, Repr

/-- What separates a bracket from the items inside it, `level` brackets deep. -/
def Layout.gap : Layout → Nat → List Char
  | compact, _ => []
  | indented, level => '\n' :: List.replicate (2 * level) ' '

/-- What separates two items, `level` brackets deep. -/
def Layout.comma : Layout → Nat → List Char
  | compact, _ => [',', ' ']
  | indented, level => ',' :: indented.gap level

/-- An escape that names a 16-bit code by its hexadecimal numeral. -/
def unicodeEscape (code : Nat) : List Char :=
  '\\' :: 'u' :: Text.hex 4 code

/-- A character as it stands in a string. -/
def escapeChar (c : Char) : List Char :=
  if c = '\x22' then ['\\', '\x22']
  else if c = '\\' then ['\\', '\\']
  else if c = '\n' then ['\\', 'n']
  else if c = '\r' then ['\\', 'r']
  else if c = '\t' then ['\\', 't']
  else if c = '\x0c' then ['\\', 'f']
  else if c = '\x08' then ['\\', 'b']
  else if 0x20 ≤ c.toNat ∧ c.toNat ≤ 0x7E then [c]
  else if c.toNat < 0x10000 then unicodeEscape c.toNat
  else
    unicodeEscape (0xD800 + (c.toNat - 0x10000) / 0x400) ++
      unicodeEscape (0xDC00 + (c.toNat - 0x10000) % 0x400)

/-- A string between double quotes. -/
def stringChars (s : String) : List Char :=
  '\x22' :: (s.toList.flatMap escapeChar ++ ['\x22'])

mutual

/-- The characters of a value that stands `level` brackets deep. -/
def chars (layout : Layout) (level : Nat) : Json → List Char
  | null => ['n', 'u', 'l', 'l']
  | int n => (toString n).toList
  | str s => stringChars s
  | arr .nil => ['[', ']']
  | arr (.cons j rest) =>
    '[' :: (layout.gap (level + 1) ++ (j.chars layout (level + 1) ++
      (rest.chars layout (level + 1) ++ (layout.gap level ++ [']']))))
  | obj .nil => ['\x7b', '\x7d']
  | obj (.cons k j rest) =>
    '\x7b' :: (layout.gap (level + 1) ++ (stringChars k ++ (':' :: ' ' ::
      (j.chars layout (level + 1) ++ (rest.chars layout (level + 1) ++
        (layout.gap level ++ ['\x7d']))))))

/-- The characters of the items after the first. -/
def Items.chars (layout : Layout) (level : Nat) : Items → List Char
  | .nil => []
  | .cons j rest => layout.comma level ++ (j.chars layout level ++ rest.chars layout level)

/-- The characters of the fields after the first. -/
def Fields.chars (layout : Layout) (level : Nat) : Fields → List Char
  | .nil => []
  | .cons k j rest =>
    layout.comma level ++ (stringChars k ++ (':' :: ' ' ::
      (j.chars layout level ++ rest.chars layout level)))

end

mutual

/-- No integer in the value is too long to be written. -/
def isWritable : Json → Bool
  | int n => Text.isWritable n
  | arr items => items.isWritable
  | obj fields => fields.isWritable
  | null => true
  | str _ => true

/-- No integer in the items is too long to be written. -/
def Items.isWritable : Items → Bool
  | .nil => true
  | .cons j rest => j.isWritable && rest.isWritable

/-- No integer in the fields is too long to be written. -/
def Fields.isWritable : Fields → Bool
  | .nil => true
  | .cons _ j rest => j.isWritable && rest.isWritable

end

/-- The text of a value. -/
def write (layout : Layout) (j : Json) : Except Text.TooManyDigits String :=
  if j.isWritable then .ok (String.ofList (j.chars layout 0)) else .error .tooManyDigits

end WhileFrontend.Json
