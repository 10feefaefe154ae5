/-!
# Lines

The lines of a text, cut at every character that Unicode has for a line break: line feed, line
tabulation, form feed, carriage return, the separator controls U+001C to U+001E, U+0085, U+2028 and
U+2029. A carriage return and the line feed behind it are one line break. No line follows a line
break at the end.
-/

namespace WhileFrontend.Text

/-- The code points of line breaks. -/
def lineBreaks : List Nat :=
  [0xA, 0xB, 0xC, 0xD, 0x1C, 0x1D, 0x1E, 0x85, 0x2028, 0x2029]

/-- The characters that end a line. -/
def isLineBreak (c : Char) : Bool :=
  lineBreaks.contains c.toNat

/-- The lines of a text, without their line breaks. -/
def splitLines : List Char → List (List Char)
  | [] => []
  | '\r' :: '\n' :: rest => [] :: splitLines rest
  | c :: rest =>
    if isLineBreak c then [] :: splitLines rest
    else
      match splitLines rest with
      | [] => [[c]]
      | line :: lines => (c :: line) :: lines

/-- The text holds no line break. -/
def OnOneLine (cs : List Char) : Prop :=
  ∀ c ∈ cs, isLineBreak c = false

instance (cs : List Char) : Decidable (OnOneLine cs) :=
  List.decidableBAll (fun c => isLineBreak c = false) cs

theorem OnOneLine.append {cs ds : List Char} (hcs : OnOneLine cs) (hds : OnOneLine ds) :
    OnOneLine (cs ++ ds) :=
  List.forall_mem_append.mpr ⟨hcs, hds⟩

theorem OnOneLine.cons {c : Char} {cs : List Char} (hc : isLineBreak c = false)
    (hcs : OnOneLine cs) : OnOneLine (c :: cs) :=
  List.forall_mem_cons.mpr ⟨hc, hcs⟩

/-- A character that ends no line belongs to the first line. -/
theorem splitLines_cons {c : Char} (hc : isLineBreak c = false) (rest : List Char) :
    splitLines (c :: rest) =
      match splitLines rest with
      | [] => [[c]]
      | line :: lines => (c :: line) :: lines := by
  rw [splitLines, if_neg (by simp [hc])]
  rintro rest rfl
  cases hc

/-- A line feed ends the line in front of it. -/
theorem splitLines_append {l : List Char} (hl : OnOneLine l) (rest : List Char) :
    splitLines (l ++ '\n' :: rest) = l :: splitLines rest := by
  induction l with
  | nil => rfl
  | cons c l ih =>
    obtain ⟨hc, hl⟩ := List.forall_mem_cons.mp hl
    rw [List.cons_append, splitLines_cons hc, ih hl]

/-- Lines that are set below each other are told apart again. -/
theorem splitLines_intercalate {ls : List (List Char)} (hls : ∀ l ∈ ls, OnOneLine l)
    (hne : ls ≠ []) : splitLines (['\n'].intercalate ls ++ ['\n']) = ls := by
  induction ls with
  | nil => exact absurd rfl hne
  | cons l ls ih =>
    obtain ⟨hl, hls⟩ := List.forall_mem_cons.mp hls
    cases ls with
    | nil =>
      rw [List.intercalate_singleton, splitLines_append hl]
      rfl
    | cons l' ls =>
      rw [List.intercalate_cons_cons, List.append_assoc, List.append_assoc, List.singleton_append,
        splitLines_append hl, ih hls (List.cons_ne_nil l' ls)]

/-- A carriage return before a line feed ends no line of its own, and a blank line counts. -/
example : splitLines ['a', '\r', '\n', '\n', 'b', '\u2028'] = [['a'], [], ['b']] := by
  decide

end WhileFrontend.Text
