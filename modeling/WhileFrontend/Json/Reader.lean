import WhileFrontend.Json.Grammar

/-!
# Reading JSON

A text is read character by character. A state tells what is being read and in which arrays and
objects, and every character takes it to the next state or fails.

## Mechanism

A numeral has no end of its own: it is over at the first character that does not belong to it, which
is then read as what follows a value (`follow`). For the last character of a text this is a line
feed that is put behind it, which is a gap and changes nothing else.

Strings are read by steps of their own (`stepString`), which fail at the closing quote. The first
half of a surrogate pair is kept until the second has been read.
-/

namespace WhileFrontend.Json

/-! ## Strings -/

/-- Where in a string's next character the reader is. -/
inductive StringPlace where
  /-- In front of it. -/
  | start
  /-- Behind its backslash. -/
  | escape
  /-- In front of the last `left + 1` digits of its code; the digits before them have the value `n`.
  The first surrogate has been read if there is one. -/
  | code (high : Option Nat) (left n : Nat)
  /-- Behind the first surrogate. -/
  | pair (high : Nat)
  /-- Behind the first surrogate and a backslash. -/
  | pairEscape (high : Nat)

/-- The characters of a string read so far, and where in the next one the reader is. -/
abbrev StringState := List Char × StringPlace

/-- What comes of a code that has been read. -/
def endCode (cs : List Char) (high : Option Nat) (n : Nat) : Option StringState :=
  match high with
  | none =>
    if 0xD800 ≤ n ∧ n < 0xDC00 then some (cs, .pair n)
    else if 0xDC00 ≤ n ∧ n < 0xE000 then none
    else some (cs ++ [Char.ofNat n], .start)
  | some high =>
    if 0xDC00 ≤ n ∧ n < 0xE000 then
      some (cs ++ [Char.ofNat (0x10000 + (high - 0xD800) * 0x400 + (n - 0xDC00))], .start)
    else none

/-- Reads one character inside a string. -/
def stepString : StringState → Char → Option StringState
  | (cs, .start), c =>
    if c = '\x22' then none
    else if c = '\\' then some (cs, .escape)
    else if 0x20 ≤ c.toNat then some (cs ++ [c], .start)
    else none
  | (cs, .escape), c =>
    if c = 'u' then some (cs, .code none 3 0)
    else (shortEscape? c).map fun d => (cs ++ [d], .start)
  | (cs, .code high left n), c =>
    match Text.hexValue? c, left with
    | none, _ => none
    | some d, 0 => endCode cs high (16 * n + d)
    | some d, left + 1 => some (cs, .code high left (16 * n + d))
  | (cs, .pair high), c => if c = '\\' then some (cs, .pairEscape high) else none
  | (cs, .pairEscape high), c => if c = 'u' then some (cs, .code (some high) 3 0) else none

/-! ## Values -/

/-- What a value stands in. -/
inductive Frame where
  /-- An array, behind some items. -/
  | array (items : List Json)
  /-- An object, behind some fields and one more key. -/
  | object (fields : List (String × Json)) (key : String)

/-- What a string is read as. -/
inductive StringRole where
  | value
  /-- The key behind some fields of an object. -/
  | key (fields : List (String × Json))

/-- What is being read. -/
inductive Place where
  /-- In front of a value. -/
  | value
  /-- In front of an array's first item or its end. -/
  | firstItem
  /-- In front of an object's first key or its end. -/
  | firstKey
  /-- In front of a key, behind some fields. -/
  | key (fields : List (String × Json))
  /-- In front of a colon, behind some fields and one more key. -/
  | colon (fields : List (String × Json)) (key : String)
  /-- Inside the word for null, with some letters left. -/
  | word (left : List Char)
  /-- Behind a minus sign. -/
  | minus
  /-- Behind some digits, perhaps with a minus sign in front of them. -/
  | number (negative : Bool) (n : Nat)
  | string (role : StringRole) (state : StringState)
  /-- Behind a value. -/
  | done (j : Json)

/-- What is being read, and what it stands in, the innermost first. -/
abbrev ReaderState := Place × List Frame

/-- Reads the first character of a value. -/
def begin (frames : List Frame) (c : Char) : Option ReaderState :=
  if c = '[' then some (.firstItem, frames)
  else if c = '\x7b' then some (.firstKey, frames)
  else if c = '\x22' then some (.string .value ([], .start), frames)
  else if c = 'n' then some (.word ['u', 'l', 'l'], frames)
  else if c = '-' then some (.minus, frames)
  else (digit? c).map fun d => (.number false d, frames)

/-- Reads a character behind a value. -/
def follow (j : Json) (frames : List Frame) (c : Char) : Option ReaderState :=
  if isGap c then some (.done j, frames)
  else
    match frames with
    | [] => none
    | .array items :: rest =>
      if c = ',' then some (.value, .array (items ++ [j]) :: rest)
      else if c = ']' then some (.done (Json.array (items ++ [j])), rest)
      else none
    | .object fields key :: rest =>
      if c = ',' then some (.key (fields ++ [(key, j)]), rest)
      else if c = '\x7d' then some (.done (Json.object (fields ++ [(key, j)])), rest)
      else none

/-- What comes of a string that has been read. -/
def endString (role : StringRole) (cs : List Char) : Place :=
  match role with
  | .value => .done (.str (String.ofList cs))
  | .key fields => .colon fields (String.ofList cs)

/-- Reads one character. -/
def step : ReaderState → Char → Option ReaderState
  | (.value, frames), c => if isGap c then some (.value, frames) else begin frames c
  | (.firstItem, frames), c =>
    if isGap c then some (.firstItem, frames)
    else if c = ']' then some (.done (.arr .nil), frames)
    else begin (.array [] :: frames) c
  | (.firstKey, frames), c =>
    if isGap c then some (.firstKey, frames)
    else if c = '\x7d' then some (.done (.obj .nil), frames)
    else if c = '\x22' then some (.string (.key []) ([], .start), frames)
    else none
  | (.key fields, frames), c =>
    if isGap c then some (.key fields, frames)
    else if c = '\x22' then some (.string (.key fields) ([], .start), frames)
    else none
  | (.colon fields key, frames), c =>
    if isGap c then some (.colon fields key, frames)
    else if c = ':' then some (.value, .object fields key :: frames)
    else none
  | (.word [], frames), c => follow .null frames c
  | (.word (l :: left), frames), c => if c = l then some (.word left, frames) else none
  | (.minus, frames), c => (digit? c).map fun d => (.number true d, frames)
  | (.number negative n, frames), c =>
    match digit? c with
    | some d => if n = 0 then none else some (.number negative (10 * n + d), frames)
    | none => follow (.int (if negative then -n else n)) frames c
  | (.string role (cs, place), frames), c =>
    match stepString (cs, place) c, place with
    | some state, _ => some (.string role state, frames)
    | none, .start => if c = '\x22' then some (endString role cs, frames) else none
    | none, _ => none
  | (.done j, frames), c => follow j frames c

/-- Reads characters one after the other. -/
def run (s : ReaderState) (cs : List Char) : Option ReaderState :=
  cs.foldlM step s

/-- The value of a text. -/
def decode (text : String) : Option Json :=
  match run (.value, []) (text.toList ++ ['\n']) with
  | some (.done j, []) => some j
  | _ => none

end WhileFrontend.Json
