import Mathlib.Algebra.Group.Nat.Defs
import WhileFrontend.Text.Quoted

/-!
# Quoted texts are told apart

Texts that stand one after the other are told apart if each shows where it ends. A text without some
character ends where that character first stands (`append_cons_inj`). The escape of a character can
be read back without knowing where it ends (`unescape?_escapeChar`), and no escape starts with the
quote in use (`escapeChar_append_ne`). So a quoted text ends at its closing quote, whatever follows,
and the text can be told from it (`quoteChars_append_inj`).
-/

namespace WhileFrontend.Text

/-! ## Characters as separators -/

/-- Where a character first stands, what is in front of it is told from what is behind. -/
theorem append_cons_inj {a : Char} {us vs r s : List Char} (hus : a ∉ us) (hvs : a ∉ vs)
    (h : us ++ a :: r = vs ++ a :: s) : us = vs ∧ r = s := by
  induction us generalizing vs with
  | nil =>
    cases vs with
    | nil => exact ⟨rfl, (List.cons.inj h).2⟩
    | cons v vs =>
      obtain rfl := (List.cons.inj h).1
      exact absurd List.mem_cons_self hvs
  | cons u us ih =>
    cases vs with
    | nil =>
      obtain rfl := (List.cons.inj h).1
      exact absurd List.mem_cons_self hus
    | cons v vs =>
      obtain ⟨rfl, htail⟩ := List.cons.inj h
      obtain ⟨rfl, hr⟩ := ih (List.not_mem_of_not_mem_cons hus) (List.not_mem_of_not_mem_cons hvs)
        htail
      exact ⟨rfl, hr⟩

/-! ## Hexadecimal numerals -/

/-- Hexadecimal digits are read to the number that they are the last digits of. -/
theorem foldlM_hexValue?_hex (width n k : Nat) :
    (hex width n).foldlM (fun n c => (hexValue? c).map (16 * n + ·)) k
      = some (16 ^ width * k + n % 16 ^ width) := by
  induction width generalizing n with
  | zero => simp [hex, Nat.mod_one]
  | succ width ih =>
    have hdigit : hexValue? (hexDigit (n % 16)) = some (n % 16) :=
      hexValue?_hexDigit (Nat.mod_lt n (by decide))
    have hmod : n % 16 ^ (width + 1) = 16 * (n / 16 % 16 ^ width) + n % 16 := by
      rw [Nat.pow_succ, Nat.mul_comm, Nat.mod_mul, Nat.add_comm]
    have hpow : 16 ^ (width + 1) * k = 16 * (16 ^ width * k) := by
      rw [Nat.pow_succ, Nat.mul_comm _ 16, Nat.mul_assoc]
    rw [hex, List.foldlM_append, ih]
    show ((hexValue? (hexDigit (n % 16))).map _).bind pure = _
    rw [hdigit, hmod, hpow, ← Nat.add_assoc, ← Nat.mul_add]
    rfl

/-- The character whose code the next `width` hexadecimal digits give, and what is left. -/
def readCode? (width : Nat) (cs : List Char) : Option (Char × List Char) :=
  ((cs.take width).foldlM (fun n c => (hexValue? c).map (16 * n + ·)) 0).map fun n =>
    (Char.ofNat n, cs.drop width)

theorem readCode?_hex {width : Nat} {c : Char} (h : c.toNat < 16 ^ width) (rest : List Char) :
    readCode? width (hex width c.toNat ++ rest) = some (c, rest) := by
  have hlength : (hex width c.toNat).length = width := length_hex width c.toNat
  rw [readCode?, List.take_left' hlength, List.drop_left' hlength, foldlM_hexValue?_hex,
    Nat.mod_eq_of_lt h, Nat.mul_zero, Nat.zero_add, Option.map_some, Char.ofNat_toNat]

/-! ## Escapes -/

/-- The character that stands next between quotes, escaped or plain, and what is left. -/
def unescape? : List Char → Option (Char × List Char)
  | '\\' :: 't' :: rest => some ('\t', rest)
  | '\\' :: 'n' :: rest => some ('\n', rest)
  | '\\' :: 'r' :: rest => some ('\r', rest)
  | '\\' :: 'x' :: rest => readCode? 2 rest
  | '\\' :: 'u' :: rest => readCode? 4 rest
  | '\\' :: 'U' :: rest => readCode? 8 rest
  | '\\' :: c :: rest => some (c, rest)
  | c :: rest => some (c, rest)
  | [] => none

theorem unescape?_cons {c : Char} (h : c ≠ '\\') (rest : List Char) :
    unescape? (c :: rest) = some (c, rest) := by
  simp [unescape?, h]

/-- The quotes that may stand around a text. -/
def IsMark (c : Char) : Prop :=
  c = '\x27' ∨ c = '\x22'

theorem isMark_quoteMark (cs : List Char) : IsMark (quoteMark cs) := by
  unfold quoteMark
  split
  · exact .inr rfl
  · exact .inl rfl

variable {mark : Char}

theorem IsMark.ne_backslash (h : IsMark mark) : mark ≠ '\\' := by
  rcases h with rfl | rfl <;> decide

theorem unescape?_escapeChar (hmark : IsMark mark) (c : Char) (rest : List Char) :
    unescape? (escapeChar mark c ++ rest) = some (c, rest) := by
  unfold escapeChar
  split
  · next hescaped =>
    obtain rfl | rfl := hescaped
    · rfl
    · rcases hmark with rfl | rfl <;> rfl
  next hplain =>
  split
  · next h => rw [h]; rfl
  split
  · next h => rw [h]; rfl
  split
  · next h => rw [h]; rfl
  split
  · exact unescape?_cons (fun h => hplain (.inl h)) rest
  split
  · next h => exact readCode?_hex h rest
  split
  · next h => exact readCode?_hex h rest
  · have hvalid : c.toNat < 16 ^ 8 := by
      have hchar : c.toNat < 0xD800 ∨ 0xDFFF < c.toNat ∧ c.toNat < 0x110000 := c.valid
      omega
    exact readCode?_hex hvalid rest

/-- No escape starts with the quote in use. -/
theorem escapeChar_append_ne (hmark : IsMark mark) (c : Char) (us vs : List Char) :
    escapeChar mark c ++ us ≠ mark :: vs := by
  intro h
  have hread := unescape?_escapeChar hmark c us
  rw [h, unescape?_cons hmark.ne_backslash] at hread
  obtain ⟨rfl, -⟩ := Prod.mk.inj (Option.some.inj hread)
  rw [escapeChar, if_pos (.inr rfl)] at h
  exact hmark.ne_backslash (List.cons.inj h).1.symm

/-! ## Quoted texts -/

theorem flatMap_escapeChar_inj (hmark : IsMark mark) {cs ds r s : List Char}
    (h : cs.flatMap (escapeChar mark) ++ mark :: r = ds.flatMap (escapeChar mark) ++ mark :: s) :
    cs = ds ∧ r = s := by
  induction cs generalizing ds with
  | nil =>
    cases ds with
    | nil => exact ⟨rfl, (List.cons.inj h).2⟩
    | cons d ds =>
      rw [List.flatMap_cons, List.append_assoc] at h
      exact absurd h.symm (escapeChar_append_ne hmark d _ _)
  | cons c cs ih =>
    cases ds with
    | nil =>
      rw [List.flatMap_cons, List.append_assoc] at h
      exact absurd h (escapeChar_append_ne hmark c _ _)
    | cons d ds =>
      rw [List.flatMap_cons, List.append_assoc, List.flatMap_cons, List.append_assoc] at h
      have hread := unescape?_escapeChar hmark c (cs.flatMap (escapeChar mark) ++ mark :: r)
      -- the character that is read next is the same on both sides, and so is what is left
      rw [h, unescape?_escapeChar hmark] at hread
      obtain ⟨rfl, hrest⟩ := Prod.mk.inj (Option.some.inj hread)
      obtain ⟨rfl, hr⟩ := ih hrest.symm
      exact ⟨rfl, hr⟩

/-- **A quoted text is told from what follows it, and its text from it.** -/
theorem quoteChars_append_inj {cs ds r s : List Char}
    (h : quoteChars cs ++ r = quoteChars ds ++ s) : cs = ds ∧ r = s := by
  simp only [quoteChars, List.cons_append, List.append_assoc] at h
  obtain ⟨hmark, hinside⟩ := List.cons.inj h
  rw [← hmark] at hinside
  exact flatMap_escapeChar_inj (isMark_quoteMark cs) hinside

end WhileFrontend.Text
