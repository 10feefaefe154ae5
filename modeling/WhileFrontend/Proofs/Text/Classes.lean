import WhileFrontend.Text.Blank
import WhileFrontend.Text.Digit
import WhileFrontend.Text.Letter

/-!
# Character classes apart from each other

Letters, digits and blanks have no character in common, nor have blanks and other numerals. The
classes are tables of code points, so this is computed from the tables.

## Mechanism

`apart` goes through two tables side by side. At each range of the first, the ranges of the second
that end before it are dropped for good, and the next one has to start after it. Each range is
looked at once, whereas a comparison of every pair would be too slow to be checked.
-/

namespace WhileFrontend.Text

/-! ## Tables -/

namespace Ranges

/-- The ranges that do not end below `n`, from the first such range on. -/
def dropBelow (rs : Ranges) (n : Nat) : Ranges :=
  rs.dropWhile fun r => r.2 < n

/-- Whether the ranges of two rising tables do not meet. -/
def apart : Ranges → Ranges → Bool
  | [], _ => true
  | r :: rs, ss =>
    decide (r.1 ≤ r.2) &&
      match ss.dropBelow r.1 with
      | [] => true
      | s :: ss => decide (r.2 < s.1 ∧ s.1 ≤ s.2) && apart rs (s :: ss)

/-- What ends below `n` holds nothing from `n` on. -/
theorem contains_dropBelow {rs : Ranges} {n m : Nat} (h : n ≤ m) :
    (rs.dropBelow n).contains m = rs.contains m := by
  induction rs with
  | nil => rfl
  | cons r rs ih =>
    rw [dropBelow] at ih ⊢
    by_cases hr : r.2 < n
    · rw [List.dropWhile_cons, if_pos (decide_eq_true hr), ih, contains, if_neg (by omega)]
    · rw [List.dropWhile_cons, if_neg (by simpa using hr)]

/-- Tables that do not meet have no member in common. -/
theorem not_contains_of_apart {rs ss : Ranges} {n : Nat} (h : apart rs ss = true)
    (hr : rs.contains n = true) : ss.contains n = false := by
  induction rs generalizing ss with
  | nil => cases hr
  | cons r rs ih =>
    rw [apart, Bool.and_eq_true, decide_eq_true_eq] at h
    obtain ⟨hle, h⟩ := h
    rw [contains] at hr
    have hn : r.1 ≤ n := by
      split at hr
      · exact of_decide_eq_true hr
      · omega
    rw [← contains_dropBelow hn]
    cases hd : ss.dropBelow r.1 with
    | nil => rfl
    | cons s ss' =>
      simp only [hd, Bool.and_eq_true, decide_eq_true_eq] at h
      obtain ⟨⟨hlt, hsle⟩, h⟩ := h
      split at hr
      · rw [contains, if_pos (by omega)]
        exact decide_eq_false (by omega)
      · exact ih h hr

end Ranges

/-- The blocks of ten code points that start at `zeros`. -/
def blocks (zeros : List Nat) : Ranges :=
  zeros.map fun z => (z, z + 9)

theorem contains_blocks {zeros : List Nat} {n v : Nat} (h : valueInBlocks zeros n = some v) :
    (blocks zeros).contains n = true := by
  induction zeros with
  | nil => cases h
  | cons z zeros ih =>
    rw [valueInBlocks] at h
    rw [blocks, List.map_cons, Ranges.contains]
    split at h
    · cases h
    · split at h
      · rw [if_pos (by omega)]
        exact decide_eq_true (by omega)
      · rw [if_neg (by omega)]
        exact ih h

/-! ## Classes -/

theorem apart_letter_digit : letterRanges.apart (blocks digitZeros) = true := by
  decide +kernel

theorem apart_letter_blank : letterRanges.apart blankRanges = true := by
  decide +kernel

theorem apart_digit_blank : (blocks digitZeros).apart blankRanges = true := by
  decide +kernel

theorem apart_otherNumeral_blank : otherNumeralRanges.apart blankRanges = true := by
  decide +kernel

/-- A letter is no digit. -/
theorem isDigit_of_isLetter {c : Char} (h : isLetter c = true) : isDigit c = false := by
  rw [isDigit]
  cases hv : digitValue? c with
  | none => rfl
  | some v =>
    have hno := Ranges.not_contains_of_apart apart_letter_digit h
    rw [contains_blocks hv] at hno
    cases hno

/-- A letter is no blank. -/
theorem isBlank_of_isLetter {c : Char} (h : isLetter c = true) : isBlank c = false :=
  Ranges.not_contains_of_apart apart_letter_blank h

/-- A digit is no blank. -/
theorem isBlank_of_isDigit {c : Char} (h : isDigit c = true) : isBlank c = false := by
  obtain ⟨v, hv⟩ := Option.isSome_iff_exists.mp h
  exact Ranges.not_contains_of_apart apart_digit_blank (contains_blocks hv)

/-- A numeral that is no digit is no blank either. -/
theorem isBlank_of_isOtherNumeral {c : Char} (h : isOtherNumeral c = true) : isBlank c = false :=
  Ranges.not_contains_of_apart apart_otherNumeral_blank h

/-- The characters `0` to `9` are digits, and their values are what they seem. -/
theorem digitValue?_of_ascii {c : Char} (h : c.isDigit = true) :
    digitValue? c = some (c.toNat - '0'.toNat) := by
  obtain ⟨h1, h2⟩ : 48 ≤ c.toNat ∧ c.toNat ≤ 57 := by
    simpa [Char.isDigit, UInt32.le_iff_toNat_le] using h
  rw [digitValue?, digitZeros, valueInBlocks, if_neg (by omega), if_pos (by omega)]
  rfl

end WhileFrontend.Text
