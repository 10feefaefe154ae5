import Mathlib.Data.List.Basic
import WhileFrontend.Proofs.Rendering.Spelling

/-!
# Lexing a text in two parts

Where two texts are put together, the tokens are those of the one and then those of the other, with
one exception: the last lexeme of the first text reaches its end and goes on into the second
(`Glue`). It does so where a digit follows a number, where a name character follows a word, and
where the next character makes a symbol of two characters out of it.

All other lexemes are the same whatever follows the text, since no lexeme but a maximal run depends
on more than one character behind it, and no symbol is longer than two (`IsLexeme.append`).
-/

namespace WhileFrontend

open Text

namespace Lexer

/-! ## What a lexeme takes from behind it -/

/-- The lexeme goes on with the character: a number with a digit, a word with a name character, and
the first half of a symbol with the other half. -/
def Sticks (l : List Char) (c : Char) : Prop :=
  ((lexemeToken l).kind = .number ∧ isDigit c = true) ∨
  (((lexemeToken l).kind = .ident ∨ ∃ k, (lexemeToken l).kind = .keyword k) ∧
    isNameChar c = true) ∨
  ∃ s : Symbol, s.spelling = l ++ [c]

/-- The symbols of two characters, by their halves. -/
theorem exists_spelling_concat_iff {l : List Char} {c : Char} (hl : l ≠ []) :
    (∃ s : Symbol, s.spelling = l ++ [c]) ↔
      (l = [':'] ∨ l = ['<'] ∨ l = ['>']) ∧ c = '=' ∨ l = ['<'] ∧ c = '>' := by
  obtain ⟨d, ds, rfl⟩ := List.exists_cons_of_ne_nil hl
  constructor
  · rintro ⟨s, hs⟩
    obtain rfl : ds = [] := by
      have htwo := Symbol.length_le_two s
      rw [hs] at htwo
      exact List.length_eq_zero_iff.mp (by simpa using htwo)
    have hs : [d, c] = s.spelling := hs.symm
    cases s <;> simp_all [Symbol.spelling]
  · rintro (⟨hfirst | hfirst | hfirst, rfl⟩ | ⟨hfirst, rfl⟩) <;> rw [hfirst]
    · exact ⟨.assign, rfl⟩
    · exact ⟨.leq, rfl⟩
    · exact ⟨.geq, rfl⟩
    · exact ⟨.neq, rfl⟩

theorem isNameChar_of_mem_spelling {s : Symbol} {c : Char} (h : c ∈ s.spelling) :
    isNameChar c = false := by
  have hall : s.spelling.all (fun c => !isNameChar c) = true := by
    cases s <;> decide
  simpa using List.all_eq_true.mp hall c h

/-- A symbol at the front of a text lies within its first two characters. -/
theorem symbol_prefix_of_append {s : Symbol} {cs rest : List Char} (hlen : 2 ≤ cs.length)
    (h : s.spelling <+: cs ++ rest) : s.spelling <+: cs :=
  List.prefix_of_prefix_length_le h (List.prefix_append cs rest)
    (Nat.le_trans (Symbol.length_le_two s) hlen)

/-- A symbol that starts with a lexeme is in it, or ends with the next character. -/
theorem symbol_prefix_of_cons {s : Symbol} {l rest : List Char} {c : Char} (hl : l ≠ [])
    (h : s.spelling <+: l ++ c :: rest) : s.spelling = l ++ [c] ∨ s.spelling <+: l := by
  have hlen : 2 ≤ (l ++ [c]).length := by
    have hpos := List.length_pos_iff.mpr hl
    simp only [List.length_append, List.length_singleton]
    omega
  have htext : l ++ c :: rest = (l ++ [c]) ++ rest := by simp
  rw [htext] at h
  exact List.prefix_concat_iff.mp (symbol_prefix_of_append hlen h)

theorem stops_append {p : Char → Bool} {cs : List Char} (hne : cs ≠ []) (h : Stops p cs)
    (rest : List Char) : Stops p (cs ++ rest) := by
  obtain ⟨c, cs, rfl⟩ := List.exists_cons_of_ne_nil hne
  exact stops_cons (h c rfl) (cs ++ rest)

theorem noSymbol_append {cs : List Char} (hlen : 2 ≤ cs.length) (h : NoSymbol cs)
    (rest : List Char) : NoSymbol (cs ++ rest) :=
  fun s hs => h s (symbol_prefix_of_append hlen hs)

/-- What follows a lexeme and is not empty can be lengthened at its end. -/
theorem IsLexeme.append {l cs : List Char} (h : IsLexeme l cs) (hne : cs ≠ [])
    (rest : List Char) : IsLexeme l (cs ++ rest) := by
  have hlen : ∀ c ds, 2 ≤ (c :: (ds ++ cs)).length := by
    intro c ds
    have hpos := List.length_pos_iff.mpr hne
    simp only [List.length_cons, List.length_append]
    omega
  cases h with
  | symbol s longest =>
    refine .symbol s fun s' hs' => longest s' ?_
    rw [← List.append_assoc] at hs'
    refine symbol_prefix_of_append ?_ hs'
    have hpos := List.length_pos_iff.mpr hne
    have hone := Symbol.one_le_length s
    simp only [List.length_append]
    omega
  | @number c ds _ noSymbol first digits maximal =>
    refine .number ?_ first digits (stops_append hne maximal rest)
    simpa using noSymbol_append (hlen c ds) noSymbol rest
  | @word c ds _ noSymbol noDigit first chars maximal =>
    refine .word ?_ noDigit first chars (stops_append hne maximal rest)
    simpa using noSymbol_append (hlen c ds) noSymbol rest
  | @single c _ noSymbol noDigit noLetter =>
    refine .single ?_ noDigit noLetter
    simpa using noSymbol_append (hlen c []) noSymbol rest

/-! ## The last lexeme of a text -/

theorem kind_of_isDigit {c : Char} {cs rest : List Char} (h : NoSymbol (c :: (cs ++ rest)))
    (hc : isDigit c = true) : (lexemeToken (c :: cs)).kind = .number := by
  rw [lexemeToken_of_noSymbol h, if_pos hc]
  rfl

theorem kind_of_isLetter {c : Char} {cs rest : List Char} (h : NoSymbol (c :: (cs ++ rest)))
    (hdigit : isDigit c = false) (hc : isLetter c = true) :
    (lexemeToken (c :: cs)).kind = .ident ∨ ∃ k, (lexemeToken (c :: cs)).kind = .keyword k := by
  rw [lexemeToken_of_noSymbol h]
  simp only [hdigit, hc, Bool.false_eq_true, if_false, if_true, wordToken]
  cases Keyword.ofSpelling? (c :: cs) with
  | some k => exact .inr ⟨k, rfl⟩
  | none => exact .inl rfl

/-- A lexeme at the end of a text stays one in front of what it does not stick to. -/
theorem IsLexeme.append_of_not_sticks {l rest : List Char} (h : IsLexeme l [])
    (hstick : ∀ c ∈ rest.head?, ¬ Sticks l c) : IsLexeme l rest := by
  have hne := h.ne_nil
  cases rest with
  | nil => exact h
  | cons c rest =>
    have hstick : ¬ Sticks l c := hstick c rfl
    have hsymbol : ∀ s : Symbol, s.spelling <+: l ++ c :: rest → s.spelling <+: l := fun s hs =>
      (symbol_prefix_of_cons hne hs).resolve_left fun heq => hstick (.inr (.inr ⟨s, heq⟩))
    cases h with
    | symbol s longest => exact .symbol s fun s' hs' => (hsymbol s' hs').length_le
    | number noSymbol first digits maximal =>
      have hkind := kind_of_isDigit noSymbol first
      refine .number (noSymbol_of_isDigit first _) first digits (stops_cons ?_ rest)
      by_contra hc
      exact hstick (.inl ⟨hkind, Bool.of_not_eq_false hc⟩)
    | word noSymbol noDigit first chars maximal =>
      have hkind := kind_of_isLetter noSymbol noDigit first
      refine .word (noSymbol_of_isLetter first _) noDigit first chars (stops_cons ?_ rest)
      by_contra hc
      exact hstick (.inr (.inl ⟨hkind, Bool.of_not_eq_false hc⟩))
    | single noSymbol noDigit noLetter =>
      exact .single (fun s hs => noSymbol s (hsymbol s hs)) noDigit noLetter

end Lexer

open Lexer

/-! ## Texts in two parts -/

namespace Split

/-- The blanks behind the last lexeme. -/
def trailing : Split → List Char
  | last w => w
  | cons _ _ m => m.trailing

/-- A text that ends where its cut has not begun is empty, and has no lexeme. -/
theorem IsMunch.eq_last {m : Split} (h : m.IsMunch) (htext : m.text = []) : m = last [] := by
  cases m with
  | last w => exact congrArg last htext
  | cons w l m =>
    obtain ⟨-, -, hlexeme, -⟩ := h
    have hl := (List.append_eq_nil_iff.mp (List.append_eq_nil_iff.mp htext).2).1
    exact absurd hl hlexeme.ne_nil

/-- The text ends with a lexeme that goes on in front of `rest`. -/
def GluesTo (m : Split) (rest : List Char) : Prop :=
  m.trailing = [] ∧ ∃ l ∈ m.lexemes.getLast?, ∃ c ∈ rest.head?, Sticks l c

theorem gluesTo_cons {w l : List Char} {m : Split} {rest : List Char} (h : m.GluesTo rest) :
    (cons w l m).GluesTo rest := by
  obtain ⟨htrailing, l', hl', hstick⟩ := h
  exact ⟨htrailing, l', List.mem_getLast?_cons hl', hstick⟩

/-- The tokens of a text in front of another one that it does not glue to. -/
theorem IsMunch.tokens_append {m : Split} (h : m.IsMunch) {rest : List Char}
    (hglue : ¬ m.GluesTo rest) :
    tokens (m.text ++ rest) = m.lexemes.map lexemeToken ++ tokens rest := by
  induction m with
  | last w => exact tokens_blanks_append h rest
  | cons w l m ih =>
    obtain ⟨hw, hl, hlexeme, hm⟩ := h
    have hlexeme' : IsLexeme l (m.text ++ rest) := by
      by_cases htext : m.text = []
      · obtain rfl := hm.eq_last htext
        refine IsLexeme.append_of_not_sticks hlexeme fun c hc hstick => ?_
        exact hglue ⟨rfl, l, rfl, c, hc, hstick⟩
      · exact hlexeme.append htext rest
    have hcut : (cons w l m).text ++ rest = w ++ (l ++ (m.text ++ rest)) := by simp [text]
    rw [hcut, tokens_blanks_append hw, tokens_lexeme_append hl hlexeme',
      ih hm fun h => hglue (gluesTo_cons h)]
    rfl

/-- Whatever is put behind a text that ends with a lexeme, the lexemes in front of that one stay. -/
theorem IsMunch.of_trailing {m : Split} (h : m.IsMunch) (htrailing : m.trailing = [])
    {l : List Char} (hlast : l ∈ m.lexemes.getLast?) :
    IsLexeme l [] ∧ ∀ rest, tokens (m.text ++ rest)
      = m.lexemes.dropLast.map lexemeToken ++ tokens (l ++ rest) := by
  induction m with
  | last w => cases hlast
  | cons w l' m ih =>
    obtain ⟨hw, hl, hlexeme, hm⟩ := h
    have hcut : ∀ rest, (cons w l' m).text ++ rest = w ++ (l' ++ (m.text ++ rest)) := by
      simp [text]
    cases hm' : m with
    | last w' =>
      obtain rfl : w' = [] := by simpa [hm', trailing] using htrailing
      obtain rfl : l' = l := by simpa [hm', lexemes] using hlast
      subst hm'
      refine ⟨hlexeme, fun rest => ?_⟩
      rw [hcut, tokens_blanks_append hw]
      rfl
    | cons w₂ l₂ m₂ =>
      have htext : m.text ≠ [] := by
        intro hnil
        have hempty := hm.eq_last hnil
        rw [hm'] at hempty
        cases hempty
      have hlast' : l ∈ m.lexemes.getLast? := by
        simpa [hm', lexemes, List.getLast?_cons_cons] using hlast
      obtain ⟨hlexeme', ih⟩ := ih hm htrailing hlast'
      refine ⟨hlexeme', fun rest => ?_⟩
      rw [← hm', hcut, tokens_blanks_append hw,
        tokens_lexeme_append hl (hlexeme.append htext rest), ih]
      simp [hm', lexemes]

theorem mem_text {m : Split} {l : List Char} (hl : l ∈ m.lexemes) : ∀ c ∈ l, c ∈ m.text := by
  induction m with
  | last w => cases hl
  | cons w l' m ih =>
    intro c hc
    rcases List.mem_cons.mp hl with rfl | hl
    · simp [text, hc]
    · simp [text, ih hl c hc]

/-- A run of name characters has tokens, and it glues to nothing but name characters. -/
theorem IsMunch.of_nameChars {m : Split} (h : m.IsMunch) (hne : m.text ≠ [])
    (hname : ∀ c ∈ m.text, isNameChar c = true) {rest : List Char}
    (hrest : Stops isNameChar rest) : m.lexemes ≠ [] ∧ ¬ m.GluesTo rest := by
  constructor
  · cases m with
    | last w =>
      obtain ⟨c, cs, hw⟩ := List.exists_cons_of_ne_nil hne
      have hc : c ∈ (last w).text := by rw [hw]; exact List.mem_cons_self
      have hblank := isNameChar_of_isBlank (h c hc)
      rw [hname c hc] at hblank
      cases hblank
    | cons w l m => exact List.cons_ne_nil _ _
  · rintro ⟨-, l, hlast, c, hc, hstick⟩
    have hl : l ∈ m.lexemes := List.mem_of_getLast? hlast
    have hstop := hrest c hc
    rcases hstick with ⟨-, hdigit⟩ | ⟨-, hchar⟩ | ⟨s, hs⟩
    · simp [isNameChar, hdigit] at hstop
    · rw [hchar] at hstop
      cases hstop
    · -- a symbol has no name character, and the lexeme has nothing else
      obtain ⟨-, rest', hlexeme⟩ := h.exists_isLexeme l hl
      obtain ⟨d, ds, rfl⟩ := List.exists_cons_of_ne_nil hlexeme.ne_nil
      have hsymbol := isNameChar_of_mem_spelling (s := s) (c := d) (by simp [hs])
      rw [hname d (mem_text hl d List.mem_cons_self)] at hsymbol
      cases hsymbol

end Split

/-! ## Where texts glue -/

namespace Lexer

/-- What a lexeme is made of, by the kind of its token. -/
theorem IsLexeme.kind_cases {l rest : List Char} (h : IsLexeme l rest) :
    (∃ s, (lexemeToken l).kind = .symbol s) ∨
    ((lexemeToken l).kind = .number ∧ ∀ d ∈ l, isDigit d = true) ∨
    (((lexemeToken l).kind = .ident ∨ ∃ k, (lexemeToken l).kind = .keyword k) ∧ IsWord l) ∨
    (lexemeToken l).kind = .unknown := by
  cases h with
  | symbol s => exact .inl ⟨s, by rw [lexemeToken_symbol]; rfl⟩
  | number noSymbol first digits =>
    exact .inr (.inl ⟨kind_of_isDigit noSymbol first, List.forall_mem_cons.mpr ⟨first, digits⟩⟩)
  | word noSymbol noDigit first chars =>
    exact .inr (.inr (.inl ⟨kind_of_isLetter noSymbol noDigit first, first, chars⟩))
  | @single c _ noSymbol noDigit noLetter =>
    have hno : NoSymbol (c :: ([] ++ rest)) := noSymbol
    refine .inr (.inr (.inr ?_))
    rw [lexemeToken_of_noSymbol hno]
    simp only [noDigit, noLetter, Bool.false_eq_true, if_false]
    rfl

theorem IsLexeme.forall_isDigit {l rest : List Char} (h : IsLexeme l rest)
    (hkind : (lexemeToken l).kind = .number) : ∀ d ∈ l, isDigit d = true := by
  rcases h.kind_cases with ⟨s, hs⟩ | ⟨-, hdigits⟩ | ⟨hi | ⟨k, hk⟩, -⟩ | hu
  · simp [hs] at hkind
  · exact hdigits
  · simp [hi] at hkind
  · simp [hk] at hkind
  · simp [hu] at hkind

theorem IsLexeme.isWord {l rest : List Char} (h : IsLexeme l rest)
    (hkind : (lexemeToken l).kind = .ident ∨ ∃ k, (lexemeToken l).kind = .keyword k) :
    IsWord l := by
  rcases h.kind_cases with ⟨s, hs⟩ | ⟨hn, -⟩ | ⟨-, hword⟩ | hu
  · simp [hs] at hkind
  · simp [hn] at hkind
  · exact hword
  · simp [hu] at hkind

/-- A lexeme that is read together with a run behind it is not read alone, where the run has tokens
of its own. -/
theorem tokens_append_ne {l run rest : List Char} (hl : Stops isBlank (l ++ run))
    (hlexeme : IsLexeme (l ++ run) rest)
    (hrun : (tokens rest).length < (tokens (run ++ rest)).length) :
    tokens (l ++ (run ++ rest)) ≠ lexemeToken l :: tokens (run ++ rest) := by
  intro h
  have hlength := congrArg List.length h
  rw [← List.append_assoc, tokens_lexeme_append hl hlexeme, List.length_cons,
    List.length_cons] at hlength
  omega

/-- A row of digits that is cut in two is one number, not two. -/
theorem tokens_digits_ne {l run rest : List Char} (hl : l ≠ []) (hrun : run ≠ [])
    (hdigits : ∀ d ∈ l ++ run, isDigit d = true) (hrest : Stops isDigit rest) :
    tokens (l ++ (run ++ rest)) ≠ lexemeToken l :: tokens (run ++ rest) := by
  have hnumber : ∀ ds : List Char, ds ≠ [] → (∀ d ∈ ds, isDigit d = true) →
      Stops isBlank ds ∧ IsLexeme ds rest := by
    intro ds hne hds
    obtain ⟨c, cs, rfl⟩ := List.exists_cons_of_ne_nil hne
    obtain ⟨hc, hcs⟩ := List.forall_mem_cons.mp hds
    exact ⟨stops_cons (isBlank_of_isDigit hc) cs,
      .number (noSymbol_of_isDigit hc _) hc hcs hrest⟩
  obtain ⟨hblank, hlexeme⟩ := hnumber (l ++ run) (by simp [hl]) hdigits
  obtain ⟨hblank', hlexeme'⟩ :=
    hnumber run hrun fun d hd => hdigits d (List.mem_append_right l hd)
  refine tokens_append_ne hblank hlexeme ?_
  rw [tokens_lexeme_append hblank' hlexeme']
  exact Nat.lt_succ_self _

/-- A word that is cut in two is one token, not more. -/
theorem tokens_word_ne {l run rest : List Char} (hl : IsWord l) (hne : run ≠ [])
    (hrun : ∀ c ∈ run, isNameChar c = true) (hrest : Stops isNameChar rest) :
    tokens (l ++ (run ++ rest)) ≠ lexemeToken l :: tokens (run ++ rest) := by
  cases l with
  | nil => cases hl
  | cons c cs =>
    obtain ⟨hc, hcs⟩ := hl
    have hlexeme : IsLexeme (c :: (cs ++ run)) rest :=
      .word (noSymbol_of_isLetter hc _) (isDigit_of_isLetter hc) hc
        (List.forall_mem_append.mpr ⟨hcs, hrun⟩) hrest
    refine tokens_append_ne (stops_cons (isBlank_of_isLetter hc) _) hlexeme ?_
    obtain ⟨m, rfl, hm⟩ := Split.exists_isMunch run
    obtain ⟨hlexemes, hglue⟩ := hm.of_nameChars hne hrun hrest
    have hpos := List.length_pos_iff.mpr hlexemes
    rw [hm.tokens_append hglue, List.length_append, List.length_map]
    omega

/-- Only a symbol's spelling has the symbol for its token. -/
theorem eq_spelling_of_lexemeToken {l : List Char} (hl : l ≠ []) {s : Symbol}
    (h : lexemeToken l = .symbol s) : l = s.spelling := by
  obtain ⟨c, cs, rfl⟩ := List.exists_cons_of_ne_nil hl
  rw [lexemeToken] at h
  split at h
  · next s' hfound =>
    obtain rfl : s' = s := by simpa [Token.symbol] using h
    exact (Symbol.spelling_of_ofSpelling? hfound).symm
  · split at h
    · cases h
    · split at h
      · split at h <;> cases h
      · cases h

/-- A symbol of two characters is not read one character at a time. -/
theorem tokens_symbol_ne {l rest : List Char} {c : Char} (hl : l ≠ []) {s : Symbol}
    (hs : s.spelling = l ++ [c]) :
    tokens (l ++ c :: rest) ≠ lexemeToken l :: tokens (c :: rest) := by
  have hlexeme : IsLexeme s.spelling rest := by
    refine .symbol s fun s' _ => ?_
    have hpos := List.length_pos_iff.mpr hl
    have htwo := Symbol.length_le_two s'
    rw [hs, List.length_append, List.length_singleton]
    omega
  have hsplit : l ++ c :: rest = s.spelling ++ rest := by simp [hs]
  rw [hsplit, tokens_lexeme_append (stops_spelling s) hlexeme, lexemeToken_symbol]
  intro h
  have hspelling := eq_spelling_of_lexemeToken hl (List.cons.inj h).1.symm
  rw [← hspelling] at hs
  exact absurd (congrArg List.length hs) (by simp)

/-- A lexeme that sticks to what follows is read together with it. -/
theorem tokens_ne_of_sticks {l rest : List Char} {c : Char} (h : IsLexeme l [])
    (hstick : Sticks l c) :
    tokens (l ++ c :: rest) ≠ lexemeToken l :: tokens (c :: rest) := by
  have hcut : ∀ p : Char → Bool, p c = true →
      c :: rest = (c :: rest.takeWhile p) ++ rest.dropWhile p ∧
        ∀ d ∈ c :: rest.takeWhile p, p d = true := by
    intro p hc
    exact ⟨by simp, List.forall_mem_cons.mpr ⟨hc, List.all_eq_true.mp List.all_takeWhile⟩⟩
  rcases hstick with ⟨hkind, hc⟩ | ⟨hkind, hc⟩ | ⟨s, hs⟩
  · obtain ⟨hrest, hrun⟩ := hcut isDigit hc
    rw [hrest]
    exact tokens_digits_ne h.ne_nil (List.cons_ne_nil _ _)
      (List.forall_mem_append.mpr ⟨h.forall_isDigit hkind, hrun⟩) (stops_dropWhile _ _)
  · obtain ⟨hrest, hrun⟩ := hcut isNameChar hc
    rw [hrest]
    exact tokens_word_ne (h.isWord hkind) (List.cons_ne_nil _ _) hrun (stops_dropWhile _ _)
  · exact tokens_symbol_ne h.ne_nil hs

end Lexer

/-! ## Texts put together -/

/-- The last lexeme of the first text reaches its end and sticks to the first character of the
second. -/
def Glue (s t : String) : Prop :=
  ∃ m : Split, m.text = s.toList ∧ m.IsMunch ∧ m.GluesTo t.toList

theorem tokenize_append_of_not_glue {s t : String} (h : ¬ Glue s t) :
    tokenize (s ++ t) = tokenize s ++ tokenize t := by
  obtain ⟨m, htext, hm⟩ := Split.exists_isMunch s.toList
  have hglue : ¬ m.GluesTo t.toList := fun hm' => h ⟨m, htext, hm, hm'⟩
  rw [tokenize, tokenize, tokenize, String.toList_append, ← htext, hm.tokens_append hglue,
    Split.tokens_text hm]

/-- No lexeme goes on with a blank. -/
theorem not_sticks_of_isBlank {l : List Char} {c : Char} (hc : isBlank c = true) :
    ¬ Sticks l c := by
  have hname := isNameChar_of_isBlank hc
  rintro (⟨-, hdigit⟩ | ⟨-, hchar⟩ | ⟨s, hs⟩)
  · simp [isNameChar, hdigit] at hname
  · rw [hchar] at hname
    cases hname
  · have hmem : c ∈ s.spelling := by simp [hs]
    rw [(classes_of_mem_spelling hmem).1] at hc
    cases hc

/-- Blanks between two texts keep them apart. -/
theorem tokenize_append_blanks {s t w : String} (hw : ∀ c ∈ w.toList, isBlank c = true)
    (hne : w ≠ "") : tokenize (s ++ w ++ t) = tokenize s ++ tokenize t := by
  have hglue : ¬ Glue s (w ++ t) := by
    rintro ⟨m, -, -, -, l, -, c, hc, hstick⟩
    refine not_sticks_of_isBlank (hw c ?_) hstick
    obtain ⟨d, ds, hd⟩ := List.exists_cons_of_ne_nil (mt String.toList_eq_nil_iff.mp hne)
    rw [String.toList_append, hd] at hc
    rw [hd, ← Option.some.inj hc]
    exact List.mem_cons_self
  rw [String.append_assoc, tokenize_append_of_not_glue hglue]
  rw [tokenize, tokenize, tokenize, String.toList_append, tokens_blanks_append hw]

/--
**Lexing splits over concatenation, unless the texts glue.** The tokens of two texts put together
are those of the first and then those of the second exactly if the last lexeme of the first does not
reach into the second. If it does, all tokens of the first text but the last stay. So blanks between
two texts always separate them, and it does not matter which blanks they are.
-/
theorem tokenize_append (s t : String) :
    (tokenize (s ++ t) = tokenize s ++ tokenize t ↔ ¬ Glue s t) ∧
    (tokenize s).dropLast <+: tokenize (s ++ t) ∧
    ∀ w : String, w ≠ "" → (∀ c ∈ w.toList, isBlank c = true) →
      tokenize (s ++ w ++ t) = tokenize s ++ tokenize t ∧
      ∀ w' : String, w' ≠ "" → (∀ c ∈ w'.toList, isBlank c = true) →
        tokenize (s ++ w' ++ t) = tokenize (s ++ w ++ t) := by
  refine ⟨⟨?_, tokenize_append_of_not_glue⟩, ?_, ?_⟩
  · rintro htokens ⟨m, htext, hm, htrailing, l, hlast, c, hc, hstick⟩
    obtain ⟨hlexeme, hfront⟩ := hm.of_trailing htrailing hlast
    obtain ⟨rest, hrest⟩ := List.head?_eq_some_iff.mp hc
    have hlexemes : m.lexemes = m.lexemes.dropLast ++ [l] :=
      (List.dropLast_append_getLast? l hlast).symm
    rw [tokenize, tokenize, tokenize, String.toList_append, ← htext, hfront, Split.tokens_text hm,
      hlexemes, hrest] at htokens
    simp only [List.dropLast_concat, List.map_append, List.append_assoc] at htokens
    exact tokens_ne_of_sticks hlexeme hstick (List.append_cancel_left htokens)
  · by_cases hglue : Glue s t
    · obtain ⟨m, htext, hm, htrailing, l, hlast, -⟩ := hglue
      rw [tokenize, tokenize, String.toList_append, ← htext, (hm.of_trailing htrailing hlast).2,
        Split.tokens_text hm, ← List.map_dropLast]
      exact List.prefix_append _ _
    · rw [tokenize_append_of_not_glue hglue]
      exact (List.dropLast_prefix _).trans (List.prefix_append _ _)
  · intro w hne hw
    refine ⟨tokenize_append_blanks hw hne, fun w' hne' hw' => ?_⟩
    rw [tokenize_append_blanks hw hne, tokenize_append_blanks hw' hne']

/-- Two signs that make a symbol together, and blanks that keep them apart. -/
theorem tokenize_append_signs :
    Glue "x<" ">=1" ∧ ¬ Glue "x<" "y" ∧ "\t\n" ≠ "" ∧
    (∀ c ∈ "\t\n".toList, isBlank c = true) ∧
    tokenize ("x<" ++ "\t\n" ++ ">=1") = tokenize "x<" ++ tokenize ">=1" := by
  have hblank : ∀ c ∈ "\t\n".toList, isBlank c = true := List.all_eq_true.mp (by decide)
  have hne : "\t\n" ≠ "" := by decide
  have hglued : tokenize ("x<" ++ ">=1") ≠ tokenize "x<" ++ tokenize ">=1" := by decide +kernel
  have happart : tokenize ("x<" ++ "y") = tokenize "x<" ++ tokenize "y" := by decide +kernel
  refine ⟨?_, (tokenize_append "x<" "y").1.mp happart, hne, hblank, ?_⟩
  · by_contra hglue
    exact hglued ((tokenize_append "x<" ">=1").1.mpr hglue)
  · exact ((tokenize_append "x<" ">=1").2.2 "\t\n" hne hblank).1

end WhileFrontend
