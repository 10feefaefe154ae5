import WhileFrontend.Json.Basic
import WhileFrontend.Text.Hex

/-!
# The grammar of JSON

    element   := gap value gap
    value     := "null" | integer | string | "[" gap "]" | "[" items "]"
               | "{" gap "}" | "{" fields "}"
    items     := element ("," element)*
    fields    := field ("," field)*
    field     := gap string gap ":" element
    string    := """ character* """
    character := any character from U+0020 on but """ and "\" | "\" short | "\u" code
               | "\u" code "\u" code
    integer   := "-"? numeral
    numeral   := "0" | a digit from 1 on, digit*
    code      := digit digit digit digit, hexadecimal

A text is a JSON text if it is an element. The grammar is given together with the value that a text
has, and only for the values that `Json` has: a text with a fraction, an exponent or one of the
words `true` and `false` in it has none. So has an escape for half of a surrogate pair, which stands
for no character.
-/

namespace WhileFrontend.Json

/-! ## Gaps and integers -/

/-- The characters that may stand between the parts of a text. -/
def isGap (c : Char) : Bool :=
  c = ' ' || c = '\t' || c = '\n' || c = '\r'

/-- Nothing but a gap. -/
def IsGap (w : List Char) : Prop :=
  ∀ c ∈ w, isGap c = true

/-- The value of a decimal digit. -/
def digit? (c : Char) : Option Nat :=
  if 0x30 ≤ c.toNat ∧ c.toNat ≤ 0x39 then some (c.toNat - 0x30) else none

/-- Decimal digits with their value; the first is zero only if it is the only one. -/
inductive IsNumeral : List Char → Nat → Prop where
  | digit {c : Char} {d : Nat} (value : digit? c = some d) : IsNumeral [c] d
  | append {cs : List Char} {n : Nat} {c : Char} {d : Nat} (front : IsNumeral cs n)
      (positive : n ≠ 0) (value : digit? c = some d) : IsNumeral (cs ++ [c]) (10 * n + d)

/-- A numeral, perhaps with a minus sign in front. -/
inductive IsInteger : List Char → Int → Prop where
  | numeral {cs : List Char} {n : Nat} (digits : IsNumeral cs n) : IsInteger cs n
  | negative {cs : List Char} {n : Nat} (digits : IsNumeral cs n) : IsInteger ('-' :: cs) (-n)

/-! ## Strings -/

/-- The characters that have an escape of two characters, by the second of them. -/
def shortEscape? : Char → Option Char
  | '\x22' => some '\x22'
  | '\\' => some '\\'
  | '/' => some '/'
  | 'b' => some '\x08'
  | 'f' => some '\x0c'
  | 'n' => some '\n'
  | 'r' => some '\r'
  | 't' => some '\t'
  | _ => none

/-- Four hexadecimal digits with their value. -/
def IsCode (ds : List Char) (n : Nat) : Prop :=
  ds.length = 4 ∧ ds.foldlM (fun n c => (Text.hexValue? c).map (16 * n + ·)) 0 = some n

/-- What may stand in a string for a character. -/
inductive SpellsChar : List Char → Char → Prop where
  | plain {c : Char} (noControl : 0x20 ≤ c.toNat) (noQuote : c ≠ '\x22') (noEscape : c ≠ '\\') :
      SpellsChar [c] c
  | short {e c : Char} (escape : shortEscape? e = some c) : SpellsChar ['\\', e] c
  | code {ds : List Char} {c : Char} (value : IsCode ds c.toNat) : SpellsChar ('\\' :: 'u' :: ds) c
  | pair {ds es : List Char} {high low : Nat} {c : Char} (first : IsCode ds high)
      (second : IsCode es low) (isHigh : 0xD800 ≤ high ∧ high < 0xDC00)
      (isLow : 0xDC00 ≤ low ∧ low < 0xE000)
      (value : c.toNat = 0x10000 + (high - 0xD800) * 0x400 + (low - 0xDC00)) :
      SpellsChar ('\\' :: 'u' :: (ds ++ '\\' :: 'u' :: es)) c

/-- What may stand in a string for characters, one after the other. -/
inductive SpellsChars : List Char → List Char → Prop where
  | nil : SpellsChars [] []
  | cons {us vs : List Char} {c : Char} {cs : List Char} (first : SpellsChar us c)
      (rest : SpellsChars vs cs) : SpellsChars (us ++ vs) (c :: cs)

/-- A string between double quotes. -/
inductive IsString : List Char → String → Prop where
  | quoted {us : List Char} {s : String} (content : SpellsChars us s.toList) :
      IsString ('\x22' :: (us ++ ['\x22'])) s

/-! ## Values -/

mutual

/-- A text without gaps around it that has a value. -/
inductive IsValue : List Char → Json → Prop where
  | null : IsValue ['n', 'u', 'l', 'l'] .null
  | int {cs : List Char} {n : Int} (integer : IsInteger cs n) : IsValue cs (.int n)
  | str {cs : List Char} {s : String} (string : IsString cs s) : IsValue cs (.str s)
  | emptyArr {w : List Char} (gap : IsGap w) : IsValue ('[' :: (w ++ [']'])) (.arr .nil)
  | arr {cs : List Char} {items : Items} (inside : IsItems cs items) :
      IsValue ('[' :: (cs ++ [']'])) (.arr items)
  | emptyObj {w : List Char} (gap : IsGap w) : IsValue ('\x7b' :: (w ++ ['\x7d'])) (.obj .nil)
  | obj {cs : List Char} {fields : Fields} (inside : IsFields cs fields) :
      IsValue ('\x7b' :: (cs ++ ['\x7d'])) (.obj fields)

/-- A text that has a value. -/
inductive IsElement : List Char → Json → Prop where
  | spaced {w cs w' : List Char} {j : Json} (before : IsGap w) (value : IsValue cs j)
      (after : IsGap w') : IsElement (w ++ (cs ++ w')) j

/-- Elements with commas between them. -/
inductive IsItems : List Char → Items → Prop where
  | last {cs : List Char} {j : Json} (item : IsElement cs j) : IsItems cs (.cons j .nil)
  | cons {cs ds : List Char} {j : Json} {rest : Items} (item : IsElement cs j)
      (others : IsItems ds rest) : IsItems (cs ++ ',' :: ds) (.cons j rest)

/-- A key with its element. -/
inductive IsField : List Char → String → Json → Prop where
  | spaced {w us w' cs : List Char} {key : String} {j : Json} (before : IsGap w)
      (name : IsString us key) (after : IsGap w') (value : IsElement cs j) :
      IsField (w ++ (us ++ (w' ++ ':' :: cs))) key j

/-- Fields with commas between them. -/
inductive IsFields : List Char → Fields → Prop where
  | last {cs : List Char} {key : String} {j : Json} (field : IsField cs key j) :
      IsFields cs (.cons key j .nil)
  | cons {cs ds : List Char} {key : String} {j : Json} {rest : Fields} (field : IsField cs key j)
      (others : IsFields ds rest) : IsFields (cs ++ ',' :: ds) (.cons key j rest)

end

end WhileFrontend.Json
