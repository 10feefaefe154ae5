import WhileFrontend.Proofs.Rendering.Spelling
import WhileFrontend.Text.Newline

/-!
# Line ends leave no trace

A carriage return is a blank, and so is the line feed that is read in its place. No lexeme holds
one, so the lexer takes the same lexemes where line ends are unified (`Lexer.next_unifyNewlines`),
and only the blanks between them change (`tokenize_unifyNewlines`).
-/

namespace WhileFrontend

namespace Text

/-! ## Unified line ends -/

theorem unifyNewlines_cons {c : Char} (h : c ≠ '\r') (cs : List Char) :
    unifyNewlines (c :: cs) = c :: unifyNewlines cs := by
  rw [unifyNewlines, if_neg h]
  intro rest hc
  exact absurd hc h

theorem unifyNewlines_append {l : List Char} (h : ∀ c ∈ l, c ≠ '\r') (rest : List Char) :
    unifyNewlines (l ++ rest) = l ++ unifyNewlines rest := by
  induction l with
  | nil => rfl
  | cons c l ih =>
    obtain ⟨hc, hl⟩ := List.forall_mem_cons.mp h
    rw [List.cons_append, unifyNewlines_cons hc, ih hl, List.cons_append]

/-- The first character is kept, or it is a line feed in place of a carriage return. -/
theorem head?_unifyNewlines {c : Char} {cs : List Char} (h : c ∈ (unifyNewlines cs).head?) :
    c ∈ cs.head? ∨ c = '\n' := by
  unfold unifyNewlines at h
  split at h
  · exact .inl h
  · exact .inr (Option.some.inj h).symm
  · have hc := (Option.some.inj h).symm
    split at hc
    · exact .inr hc
    · exact .inl (congrArg some hc.symm)

/-- What holds no line feed and stands at the front with line ends unified stood there before. -/
theorem prefix_of_prefix_unifyNewlines {xs cs : List Char} (hxs : ∀ c ∈ xs, c ≠ '\n')
    (h : xs <+: unifyNewlines cs) : xs <+: cs := by
  induction xs generalizing cs with
  | nil => exact List.nil_prefix
  | cons x xs ih =>
    obtain ⟨hx, hxs⟩ := List.forall_mem_cons.mp hxs
    unfold unifyNewlines at h
    split at h
    · exact h
    · exact absurd (List.cons_prefix_cons.mp h).1 hx
    · next c rest _ =>
      obtain ⟨hfirst, htail⟩ := List.cons_prefix_cons.mp h
      split at hfirst
      · exact absurd hfirst hx
      · rw [hfirst]
        exact List.cons_prefix_cons.mpr ⟨rfl, ih hxs htail⟩

end Text

open Text

namespace Lexer

/-! ## Blanks -/

theorem ne_of_isBlank_eq_false {c d : Char} (hc : isBlank c = false) (hd : isBlank d = true) :
    c ≠ d := by
  rintro rfl
  rw [hc] at hd
  cases hd

/-- Unified line ends are skipped as the line ends were. -/
theorem skipBlanks_unifyNewlines (cs : List Char) :
    skipBlanks (unifyNewlines cs) = unifyNewlines (skipBlanks cs) := by
  fun_induction unifyNewlines cs with
  | case1 => rfl
  | case2 rest ih => exact ih
  | case3 c rest hpair ih =>
    by_cases hblank : isBlank c = true
    · have hfirst : isBlank (if c = '\r' then '\n' else c) = true := by
        split
        · rfl
        · exact hblank
      rw [skipBlanks, List.dropWhile_cons_of_pos hfirst, skipBlanks,
        List.dropWhile_cons_of_pos hblank]
      exact ih
    · have hne : c ≠ '\r' := ne_of_isBlank_eq_false (Bool.of_not_eq_true hblank) rfl
      rw [if_neg hne, skipBlanks, List.dropWhile_cons_of_neg hblank, skipBlanks,
        List.dropWhile_cons_of_neg hblank, unifyNewlines_cons hne]

/-! ## Lexemes -/

/-- No lexeme holds a blank. -/
theorem isBlank_of_mem_lexeme {l rest : List Char} (hl : Stops isBlank l) (h : IsLexeme l rest) :
    ∀ c ∈ l, isBlank c = false := by
  cases h with
  | symbol s longest => exact fun c hc => (classes_of_mem_spelling hc).1
  | @number c cs _ noSymbol first digits maximal =>
    exact List.forall_mem_cons.mpr ⟨hl c rfl, fun d hd => isBlank_of_isDigit (digits d hd)⟩
  | @word c cs _ noSymbol noDigit first chars maximal =>
    refine List.forall_mem_cons.mpr ⟨hl c rfl, fun d hd => ?_⟩
    by_contra hblank
    have hname := isNameChar_of_isBlank (Bool.of_not_eq_false hblank)
    rw [chars d hd] at hname
    cases hname
  | @single c _ noSymbol noDigit noLetter => exact List.forall_mem_singleton.mpr (hl c rfl)

theorem stops_unifyNewlines {p : Char → Bool} {cs : List Char} (hp : p '\n' = false)
    (h : Stops p cs) : Stops p (unifyNewlines cs) := by
  intro c hc
  rcases head?_unifyNewlines hc with hmem | rfl
  · exact h c hmem
  · exact hp

/-- A symbol reaches over no line end, unified or not. -/
theorem symbol_prefix_of_unifyNewlines {s : Symbol} {cs : List Char}
    (h : s.spelling <+: unifyNewlines cs) : s.spelling <+: cs := by
  refine prefix_of_prefix_unifyNewlines (fun c hc => ?_) h
  exact ne_of_isBlank_eq_false (classes_of_mem_spelling hc).1 rfl

theorem noSymbol_unifyNewlines {cs : List Char} (h : NoSymbol cs) : NoSymbol (unifyNewlines cs) :=
  fun s hs => h s (symbol_prefix_of_unifyNewlines hs)

/-- A lexeme stays one where the line ends behind it are unified. -/
theorem IsLexeme.unifyNewlines {l rest : List Char} (hl : ∀ c ∈ l, c ≠ '\r')
    (h : IsLexeme l rest) : IsLexeme l (unifyNewlines rest) := by
  have htext : Text.unifyNewlines (l ++ rest) = l ++ Text.unifyNewlines rest :=
    unifyNewlines_append hl rest
  cases h with
  | symbol s longest =>
    refine .symbol s fun s' hs' => longest s' ?_
    rw [← htext] at hs'
    exact symbol_prefix_of_unifyNewlines hs'
  | number noSymbol first digits maximal =>
    refine .number ?_ first digits (stops_unifyNewlines rfl maximal)
    have hno := noSymbol_unifyNewlines noSymbol
    rwa [← List.cons_append, htext] at hno
  | word noSymbol noDigit first chars maximal =>
    refine .word ?_ noDigit first chars (stops_unifyNewlines rfl maximal)
    have hno := noSymbol_unifyNewlines noSymbol
    rwa [← List.cons_append, htext] at hno
  | @single c _ noSymbol noDigit noLetter =>
    refine .single ?_ noDigit noLetter
    have hno := noSymbol_unifyNewlines noSymbol
    rwa [← List.singleton_append, htext] at hno

/-- The lexer takes the same token and leaves the same rest, with its line ends unified. -/
theorem next_unifyNewlines {c : Char} (hc : isBlank c = false) (cs : List Char) :
    next c (unifyNewlines cs) = ((next c cs).1, unifyNewlines (next c cs).2) := by
  obtain ⟨l, htext, hlexeme⟩ := exists_isLexeme c cs
  generalize (next c cs).2 = rest at htext hlexeme
  obtain ⟨d, ds, rfl⟩ := List.exists_cons_of_ne_nil hlexeme.ne_nil
  obtain ⟨rfl, htail⟩ := List.cons.inj htext
  have hcr : ∀ d ∈ c :: ds, d ≠ '\r' := fun d hd =>
    ne_of_isBlank_eq_false (isBlank_of_mem_lexeme (stops_cons hc ds) hlexeme d hd) rfl
  have hds : ∀ d ∈ ds, d ≠ '\r' := (List.forall_mem_cons.mp hcr).2
  have htail' : cs = ds ++ rest := htail
  rw [htail', unifyNewlines_append hds, next_of_isLexeme (hlexeme.unifyNewlines hcr) rfl,
    next_of_isLexeme hlexeme rfl]

theorem tokens_unifyNewlines (cs : List Char) : tokens (unifyNewlines cs) = tokens cs := by
  have hskip := skipBlanks_unifyNewlines cs
  fun_induction tokens cs with
  | case1 cs hnil =>
    rw [hnil] at hskip
    exact tokens_of_skipBlanks_nil hskip
  | case2 cs c rest hcons ih =>
    have hc : isBlank c = false := by
      have hstops := stops_dropWhile isBlank cs
      rw [← skipBlanks, hcons] at hstops
      exact hstops c rfl
    rw [hcons, unifyNewlines_cons (ne_of_isBlank_eq_false hc rfl)] at hskip
    rw [tokens_of_skipBlanks_cons hskip, next_unifyNewlines hc,
      ih (skipBlanks_unifyNewlines _)]

end Lexer

/-- **Unifying the line ends of a text changes none of its tokens.** -/
theorem tokenize_unifyNewlines (cs : List Char) :
    tokenize (String.ofList (unifyNewlines cs)) = tokenize (String.ofList cs) := by
  rw [tokenize, tokenize, String.toList_ofList, String.toList_ofList]
  exact Lexer.tokens_unifyNewlines cs

end WhileFrontend
