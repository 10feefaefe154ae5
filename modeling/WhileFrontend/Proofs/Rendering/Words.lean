import WhileFrontend.Proofs.Text.Classes
import WhileFrontend.Proofs.Token.Munch
import WhileFrontend.Proofs.Tree.Expressible

/-!
# Words of a rendered program

What a rendered program is put together from — keywords, names, numerals, symbols and blanks — is
read back piece by piece. A word or a numeral is cut off where the text goes on with no name
character, and a symbol before a blank or where no longer symbol begins with it.

`Spells cs ts` says that `cs` stands for the tokens `ts` in front of everything that does not go on
with a name character. It is the form in which the pieces are put together.
-/

namespace WhileFrontend.Lexer

open Text

/-! ## Where lexemes stop -/

theorem stops_nil (p : Char → Bool) : Stops p [] := by
  intro c hc
  cases hc

theorem stops_cons {p : Char → Bool} {c : Char} (h : p c = false) (cs : List Char) :
    Stops p (c :: cs) := by
  intro d hd
  obtain rfl := Option.some.inj hd
  exact h

theorem stops_isDigit {cs : List Char} (h : Stops isNameChar cs) : Stops isDigit cs := by
  intro c hc
  have hname := h c hc
  simp only [isNameChar, Bool.or_eq_false_iff] at hname
  exact hname.1.2

/-! ## Symbols -/

theorem classes_of_mem_spelling {s : Symbol} {c : Char} (h : c ∈ s.spelling) :
    isBlank c = false ∧ isDigit c = false ∧ isLetter c = false := by
  -- a decision for all members of a list, not for all characters there are
  have hall : s.spelling.all (fun c => !isBlank c && !isDigit c && !isLetter c) = true := by
    cases s <;> decide
  simpa [and_assoc] using List.all_eq_true.mp hall c h

/-- A text goes on with no symbol if its first character is in none. -/
theorem noSymbol_of_first {c : Char} (h : ∀ s : Symbol, c ∉ s.spelling) (cs : List Char) :
    NoSymbol (c :: cs) := by
  rintro s ⟨rest, hrest⟩
  obtain ⟨d, ds, hd⟩ := List.exists_cons_of_length_pos (Symbol.one_le_length s)
  rw [hd] at hrest
  obtain ⟨rfl, -⟩ := List.cons.inj hrest
  exact h s (by rw [hd]; exact List.mem_cons_self)

theorem noSymbol_of_isLetter {c : Char} (h : isLetter c = true) (cs : List Char) :
    NoSymbol (c :: cs) := by
  refine noSymbol_of_first (fun s hs => ?_) cs
  rw [(classes_of_mem_spelling hs).2.2] at h
  cases h

theorem noSymbol_of_isDigit {c : Char} (h : isDigit c = true) (cs : List Char) :
    NoSymbol (c :: cs) := by
  refine noSymbol_of_first (fun s hs => ?_) cs
  rw [(classes_of_mem_spelling hs).2.1] at h
  cases h

theorem stops_spelling (s : Symbol) : Stops isBlank s.spelling := by
  intro c hc
  exact (classes_of_mem_spelling (List.mem_of_mem_head? hc)).1

theorem tokens_blank (rest : List Char) : tokens (' ' :: rest) = tokens rest :=
  tokens_blanks_append (w := [' ']) (List.forall_mem_singleton.mpr rfl) rest

/-- The text goes on with a blank, if at all. -/
def Separated (cs : List Char) : Prop :=
  ∀ c ∈ cs.head?, isBlank c = true

/-- No symbol reaches over a blank. -/
theorem prefix_of_separated {s : Symbol} {cs rest : List Char} (hrest : Separated rest)
    (h : s.spelling <+: cs ++ rest) : s.spelling <+: cs := by
  by_cases hle : s.spelling.length ≤ cs.length
  · exact List.prefix_of_prefix_length_le h (List.prefix_append cs rest) hle
  · -- a longer symbol would hold the blank
    obtain ⟨us, hus⟩ := List.prefix_of_prefix_length_le (List.prefix_append cs rest) h (by omega)
    rw [← hus, List.prefix_append_right_inj] at h
    cases us with
    | nil => exact absurd (congrArg List.length hus) (by simp; omega)
    | cons d ds =>
      obtain ⟨vs, rfl⟩ := h
      have hblank : isBlank d = true := hrest d rfl
      have hd : d ∈ s.spelling := by simp [← hus]
      rw [(classes_of_mem_spelling hd).1] at hblank
      cases hblank

/-- A symbol ends where a blank follows, or nothing. -/
theorem tokens_symbol_separated (s : Symbol) {rest : List Char} (hrest : Separated rest) :
    tokens (s.spelling ++ rest) = .symbol s :: tokens rest := by
  have hlexeme : IsLexeme s.spelling rest :=
    .symbol s fun s' hs' => (prefix_of_separated hrest hs').length_le
  rw [tokens_lexeme_append (stops_spelling s) hlexeme, lexemeToken_symbol]

/-- A symbol ends before a blank. -/
theorem tokens_symbol_blank (s : Symbol) (rest : List Char) :
    tokens (s.spelling ++ ' ' :: rest) = .symbol s :: tokens rest := by
  have hsep : Separated (' ' :: rest) := by
    intro c hc
    obtain rfl := Option.some.inj hc
    rfl
  rw [tokens_symbol_separated s hsep, tokens_blank]

/-- A symbol with which no other begins ends at once. -/
theorem tokens_symbol_append {s : Symbol} (h : ∀ s' : Symbol, s.spelling <+: s'.spelling → s' = s)
    (rest : List Char) : tokens (s.spelling ++ rest) = .symbol s :: tokens rest := by
  have hlexeme : IsLexeme s.spelling rest := by
    refine .symbol s fun s' hs' => ?_
    by_contra hlt
    rw [h s' (List.prefix_of_prefix_length_le (List.prefix_append _ _) hs' (by omega))] at hlt
    exact hlt (Nat.le_refl _)
  rw [tokens_lexeme_append (stops_spelling s) hlexeme, lexemeToken_symbol]

theorem tokens_lparen (rest : List Char) :
    tokens ('(' :: rest) = .symbol .lparen :: tokens rest :=
  tokens_symbol_append (s := .lparen) (by intro s'; cases s' <;> decide) rest

theorem tokens_rparen (rest : List Char) :
    tokens (')' :: rest) = .symbol .rparen :: tokens rest :=
  tokens_symbol_append (s := .rparen) (by intro s'; cases s' <;> decide) rest

theorem tokens_semicolon (rest : List Char) :
    tokens (';' :: rest) = .symbol .semicolon :: tokens rest :=
  tokens_symbol_append (s := .semicolon) (by intro s'; cases s' <;> decide) rest

/-! ## Words -/

/-- In front of whatever does not go on with a name character, the text stands for the tokens. -/
def Spells (cs : List Char) (ts : List Token) : Prop :=
  ∀ rest, Stops isNameChar rest → tokens (cs ++ rest) = ts ++ tokens rest

theorem spells_word {cs : List Char} (h : IsWord cs) : Spells cs [wordToken cs] := by
  intro rest hrest
  cases cs with
  | nil => exact h.elim
  | cons c cs =>
    obtain ⟨hfirst, hchars⟩ := h
    have hno := noSymbol_of_isLetter hfirst (cs ++ rest)
    have hlexeme : IsLexeme (c :: cs) rest :=
      .word hno (isDigit_of_isLetter hfirst) hfirst hchars hrest
    have hblank : Stops isBlank (c :: cs) := stops_cons (isBlank_of_isLetter hfirst) cs
    rw [tokens_lexeme_append hblank hlexeme, lexemeToken_of_noSymbol hno, if_pos hfirst,
      isDigit_of_isLetter hfirst]
    rfl

theorem spells_keyword (k : Keyword) : Spells k.spelling [.keyword k] := by
  have hword : IsWord k.spelling := by
    cases k <;> decide +kernel
  have hspells := spells_word hword
  rwa [wordToken, Keyword.ofSpelling?_spelling] at hspells

theorem spells_name {x : String} (h : IsName x) : Spells x.toList [⟨.ident, some (.text x)⟩] := by
  obtain ⟨hword, hnone⟩ := h
  have hspells := spells_word hword
  rwa [wordToken, hnone, Token.ident, String.ofList_toList] at hspells

/-! ## Numerals -/

/-- Digits are added up in the same way here and where numbers are written. -/
theorem foldl_eq_ofDigitChars {cs : List Char} (hcs : ∀ c ∈ cs, c.isDigit = true) (m : Nat) :
    cs.foldl (fun n c => n * 10 + (digitValue? c).getD 0) m = Nat.ofDigitChars 10 cs m := by
  induction cs generalizing m with
  | nil => rw [List.foldl_nil, Nat.ofDigitChars_nil]
  | cons c cs ih =>
    obtain ⟨hc, hcs⟩ := List.forall_mem_cons.mp hcs
    rw [List.foldl_cons, Nat.ofDigitChars_cons, ih hcs, digitValue?_of_ascii hc,
      Option.getD_some, Nat.mul_comm]

theorem isDigit_of_mem_toDigits {n : Nat} {c : Char} (h : c ∈ Nat.toDigits 10 n) :
    isDigit c = true := by
  have hascii := Nat.isDigit_of_mem_toDigits (by decide) (by decide) h
  rw [isDigit, digitValue?_of_ascii hascii]
  rfl

theorem decimalValue_toDigits (n : Nat) : decimalValue (Nat.toDigits 10 n) = n := by
  have hascii : ∀ c ∈ Nat.toDigits 10 n, c.isDigit = true := by
    intro c hc
    exact Nat.isDigit_of_mem_toDigits (by decide) (by decide) hc
  rw [← numeral_eq_decimalValue, numeral, foldl_eq_ofDigitChars hascii,
    Nat.ofDigitChars_ten_toDigits]

/-- The decimal numeral of a number stands for that number. -/
theorem spells_numeral {n : Int} (h : 0 ≤ n) :
    Spells (toString n).toList [⟨.number, some (.int n)⟩] := by
  intro rest hrest
  obtain ⟨m, rfl⟩ := Int.eq_ofNat_of_zero_le h
  have htext : (toString (m : Int)).toList = Nat.toDigits 10 m := Nat.toList_repr
  have hdigits : ∀ c ∈ Nat.toDigits 10 m, isDigit c = true := fun c => isDigit_of_mem_toDigits
  have hvalue := decimalValue_toDigits m
  rw [htext]
  cases hcs : Nat.toDigits 10 m with
  | nil => exact absurd hcs Nat.toDigits_ne_nil
  | cons c cs =>
    rw [hcs] at hdigits hvalue
    obtain ⟨hfirst, hcs⟩ := List.forall_mem_cons.mp hdigits
    have hno := noSymbol_of_isDigit hfirst (cs ++ rest)
    have hlexeme : IsLexeme (c :: cs) rest := .number hno hfirst hcs (stops_isDigit hrest)
    have hblank : Stops isBlank (c :: cs) := stops_cons (isBlank_of_isDigit hfirst) cs
    rw [tokens_lexeme_append hblank hlexeme, lexemeToken_of_noSymbol hno, if_pos hfirst, hvalue]
    rfl

/-! ## Putting pieces together -/

namespace Spells

variable {cs ds : List Char} {ts us : List Token}

/-- A text reads as it would alone. -/
theorem tokens_eq (h : Spells cs ts) : tokens cs = ts := by
  have htokens := h [] (stops_nil _)
  have hnil : tokens [] = [] := tokens_of_skipBlanks_nil rfl
  rwa [List.append_nil, hnil, List.append_nil] at htokens

/-- A blank cuts off whatever stands before it. -/
theorem blank (h : Spells cs ts) (rest : List Char) :
    tokens (cs ++ ' ' :: rest) = ts ++ tokens rest := by
  rw [h _ (stops_cons (by decide) _), tokens_blank]

/-- Two texts with a blank between them stand for the tokens of both. -/
theorem append (h : Spells cs ts) (h' : Spells ds us) : Spells (cs ++ ' ' :: ds) (ts ++ us) := by
  intro rest hrest
  rw [List.append_assoc, List.cons_append, h.blank, h' rest hrest, List.append_assoc]

/-- A text in parentheses. -/
theorem inParens (h : Spells cs ts) :
    Spells ('(' :: (cs ++ [')'])) (.symbol .lparen :: (ts ++ [.symbol .rparen])) := by
  intro rest hrest
  rw [List.cons_append, tokens_lparen, List.append_assoc, List.singleton_append,
    h _ (stops_cons (by decide) _), tokens_rparen]
  simp

/-- A text that a semicolon ends. -/
theorem ended (h : Spells cs ts) : Spells (cs ++ [';']) (ts ++ [.symbol .semicolon]) := by
  intro rest hrest
  rw [List.append_assoc, List.singleton_append, h _ (stops_cons (by decide) _), tokens_semicolon]
  simp

end Spells

end WhileFrontend.Lexer
