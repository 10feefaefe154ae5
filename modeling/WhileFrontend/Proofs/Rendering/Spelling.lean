import WhileFrontend.Proofs.Rendering.Words

/-!
# Spelling out token lists

A token that stands in some text can be spelled: a symbol and a keyword as the tables have them, a
number in decimal, a name and a stray character as themselves (`Token.spelling`). Which tokens these
are is said of the tokens alone (`Token.IsOfText`), and a token list is that of some text exactly if
all its tokens are of this sort.

Spelled-out tokens have to be set apart by blanks, since two of them side by side may be read as one
(`<` and `=`, or two names). With a blank after each of them the classes of characters keep them
apart: no symbol, numeral or word reaches over a blank.
-/

namespace WhileFrontend

open Text Lexer

/-! ## Tokens of texts -/

/-- The tokens that texts are made of. -/
inductive Token.IsOfText : Token → Prop where
  | symbol (s : Symbol) : IsOfText (.symbol s)
  | keyword (k : Keyword) : IsOfText (.keyword k)
  | number {n : Int} (h : 0 ≤ n) : IsOfText ⟨.number, some (.int n)⟩
  | name {x : String} (h : IsName x) : IsOfText ⟨.ident, some (.text x)⟩
  | unknown {c : Char} (noBlank : isBlank c = false) (noDigit : isDigit c = false)
    (noLetter : isLetter c = false) (noSymbol : ∀ s : Symbol, s.spelling ≠ [c]) :
    IsOfText (.unknown c)

/-- A character at which no symbol starts is no symbol by itself. -/
theorem spelling_ne_of_noSymbol {c : Char} {rest : List Char} (h : NoSymbol (c :: rest))
    (s : Symbol) : s.spelling ≠ [c] := by
  intro hs
  have hprefix : s.spelling <+: c :: rest := ⟨rest, by rw [hs]; rfl⟩
  exact h s hprefix

theorem isOfText_wordToken {cs : List Char} (h : IsWord cs) : (wordToken cs).IsOfText := by
  unfold wordToken
  cases hk : Keyword.ofSpelling? cs with
  | some k => exact .keyword k
  | none =>
    have hname : IsName (String.ofList cs) := by
      simp only [IsName, String.toList_ofList]
      exact ⟨h, hk⟩
    exact .name hname

/-- The token of a lexeme is one that texts are made of. -/
theorem isOfText_lexemeToken {l rest : List Char} (hblank : Stops isBlank l)
    (h : IsLexeme l rest) : (lexemeToken l).IsOfText := by
  cases h with
  | symbol s longest =>
    rw [lexemeToken_symbol]
    exact .symbol s
  | number noSymbol first digits maximal =>
    rw [lexemeToken_of_noSymbol noSymbol, if_pos first]
    exact .number (Int.natCast_nonneg _)
  | @word c cs _ noSymbol noDigit first chars maximal =>
    rw [lexemeToken_of_noSymbol noSymbol]
    simp only [noDigit, first, Bool.false_eq_true, if_false, if_true]
    exact isOfText_wordToken ⟨first, chars⟩
  | @single c rest noSymbol noDigit noLetter =>
    have hno : NoSymbol (c :: ([] ++ rest)) := noSymbol
    rw [lexemeToken_of_noSymbol hno]
    simp only [noDigit, noLetter, Bool.false_eq_true, if_false]
    exact .unknown (hblank c rfl) noDigit noLetter (spelling_ne_of_noSymbol noSymbol)

/-- All tokens of a text are of this sort. -/
theorem isOfText_of_mem_tokenize {s : String} : ∀ t ∈ tokenize s, t.IsOfText :=
  forall_mem_tokenize fun _ _ => isOfText_lexemeToken

/-! ## Spellings -/

/-- The characters that a token stands for. -/
def Token.spelling (t : Token) : List Char :=
  match t.kind, t.value with
  | .symbol s, _ => s.spelling
  | .keyword k, _ => k.spelling
  | _, some (.int n) => (toString n).toList
  | _, some (.text x) => x.toList
  | _, none => []

/-- A blank is no name character. -/
theorem isNameChar_of_isBlank {c : Char} (h : isBlank c = true) : isNameChar c = false := by
  have hletter : isLetter c = false := by
    by_contra hc
    simp [isBlank_of_isLetter (Bool.of_not_eq_false hc)] at h
  have hdigit : isDigit c = false := by
    by_contra hc
    simp [isBlank_of_isDigit (Bool.of_not_eq_false hc)] at h
  have hnumeral : isOtherNumeral c = false := by
    by_contra hc
    simp [isBlank_of_isOtherNumeral (Bool.of_not_eq_false hc)] at h
  simp [isNameChar, hletter, hdigit, hnumeral]

theorem stops_isNameChar_of_separated {rest : List Char} (h : Separated rest) :
    Stops isNameChar rest :=
  fun c hc => isNameChar_of_isBlank (h c hc)

/-- No symbol starts with a character that is none by itself and has a blank behind it. -/
theorem noSymbol_of_separated {c : Char} {rest : List Char}
    (noSymbol : ∀ s : Symbol, s.spelling ≠ [c]) (hrest : Separated rest) :
    NoSymbol (c :: rest) := by
  intro s hs
  have hprefix : s.spelling <+: [c] := prefix_of_separated hrest hs
  rcases List.prefix_cons_iff.mp hprefix with hnil | ⟨us, hus, husnil⟩
  · have hpos := Symbol.one_le_length s
    simp [hnil] at hpos
  · rw [List.prefix_nil.mp husnil] at hus
    exact noSymbol s hus

/-- The spelling of a token is read as that token where a blank follows, or nothing. -/
theorem tokens_spelling_append {t : Token} (h : t.IsOfText) {rest : List Char}
    (hrest : Separated rest) : tokens (t.spelling ++ rest) = t :: tokens rest := by
  have hstops := stops_isNameChar_of_separated hrest
  cases h with
  | symbol s => exact tokens_symbol_separated s hrest
  | keyword k => exact spells_keyword k rest hstops
  | number hn => exact spells_numeral hn rest hstops
  | name hx => exact spells_name hx rest hstops
  | @unknown c noBlank noDigit noLetter noSymbol =>
    have hspelling : (Token.unknown c).spelling = [c] := String.toList_ofList
    have hno : NoSymbol (c :: ([] ++ rest)) := noSymbol_of_separated noSymbol hrest
    have hlexeme : IsLexeme [c] rest := .single hno noDigit noLetter
    rw [hspelling, tokens_lexeme_append (stops_cons noBlank []) hlexeme,
      lexemeToken_of_noSymbol hno]
    simp [noDigit, noLetter]

/-! ## Texts of token lists -/

/-- The text of tokens, each with what follows it, after what stands in front of them all. -/
def spelledOut (before : List Char) (items : List (Token × List Char)) : List Char :=
  before ++ items.flatMap fun i => i.1.spelling ++ i.2

/-- What follows a token in such a text starts with a blank, if there is anything. -/
theorem separated_spelledOut {gap : List Char} {items : List (Token × List Char)}
    (hgap : ∀ c ∈ gap, isBlank c = true) (hne : items ≠ [] → gap ≠ []) :
    Separated (spelledOut gap items) := by
  intro c hc
  cases gap with
  | nil =>
    have hitems : items = [] := by
      by_contra h
      exact hne h rfl
    simp [spelledOut, hitems] at hc
  | cons d ds =>
    obtain rfl : d = c := by simpa [spelledOut] using hc
    exact hgap d List.mem_cons_self

/-- Tokens that are spelled out with blanks between them are read as these tokens. -/
theorem tokens_spelledOut {before : List Char} {items : List (Token × List Char)}
    (hbefore : ∀ c ∈ before, isBlank c = true) (hitems : ∀ i ∈ items, i.1.IsOfText)
    (hblank : ∀ i ∈ items, ∀ c ∈ i.2, isBlank c = true)
    (hsep : ∀ i ∈ items.dropLast, i.2 ≠ []) :
    tokens (spelledOut before items) = items.map Prod.fst := by
  induction items generalizing before with
  | nil =>
    rw [spelledOut, tokens_blanks_append hbefore]
    exact tokens_of_skipBlanks_nil rfl
  | cons i items ih =>
    obtain ⟨hi, hitems⟩ := List.forall_mem_cons.mp hitems
    obtain ⟨hgap, hblank⟩ := List.forall_mem_cons.mp hblank
    have hne : items ≠ [] → i.2 ≠ [] := by
      intro h
      refine hsep i ?_
      rw [List.dropLast_cons_of_ne_nil h]
      exact List.mem_cons_self
    have hsep' : ∀ j ∈ items.dropLast, j.2 ≠ [] := by
      intro j hj
      have h : items ≠ [] := by
        rintro rfl
        cases hj
      refine hsep j ?_
      rw [List.dropLast_cons_of_ne_nil h]
      exact List.mem_cons_of_mem _ hj
    -- the gap behind the first token stands in front of all others
    have htext : spelledOut before (i :: items)
        = before ++ (i.1.spelling ++ spelledOut i.2 items) := by
      simp [spelledOut]
    rw [htext, tokens_blanks_append hbefore,
      tokens_spelling_append hi (separated_spelledOut hgap hne), ih hgap hitems hblank hsep']
    rfl

/--
**Texts and token lists.** A token list is that of some text exactly if each of its tokens is one
that texts are made of. Spelled out with blanks between the tokens, and any blanks before and after
them, such a list is read back.
-/
theorem tokenize_spelledOut (ts : List Token) :
    ((∃ s, tokenize s = ts) ↔ ∀ t ∈ ts, t.IsOfText) ∧
    ∀ (before : List Char) (items : List (Token × List Char)),
      (∀ t ∈ ts, t.IsOfText) → items.map Prod.fst = ts →
      (∀ c ∈ before, isBlank c = true) → (∀ i ∈ items, ∀ c ∈ i.2, isBlank c = true) →
      (∀ i ∈ items.dropLast, i.2 ≠ []) →
      tokenize (String.ofList (spelledOut before items)) = ts := by
  refine ⟨⟨?_, ?_⟩, ?_⟩
  · rintro ⟨s, rfl⟩
    exact isOfText_of_mem_tokenize
  · intro hts
    -- one blank after each token is enough
    have hread : tokens (spelledOut [] (ts.map fun t => (t, [' '])))
        = (ts.map fun t => (t, [' '])).map Prod.fst := by
      refine tokens_spelledOut (List.forall_mem_nil _) (List.forall_mem_map.mpr hts)
        (List.forall_mem_map.mpr fun t _ => List.forall_mem_singleton.mpr rfl) fun i hi => ?_
      obtain ⟨t, -, rfl⟩ := List.mem_map.mp (List.dropLast_subset _ hi)
      exact List.cons_ne_nil _ _
    refine ⟨String.ofList (spelledOut [] (ts.map fun t => (t, [' ']))), ?_⟩
    rw [tokenize, String.toList_ofList, hread, List.map_map]
    exact List.map_id ts
  · rintro before items hts rfl hbefore hblank hsep
    rw [tokenize, String.toList_ofList]
    exact tokens_spelledOut hbefore (List.forall_mem_map.mp hts) hblank hsep

/-- A number of any length, a stray half of a symbol and symbols that would run together. -/
theorem tokenize_spelledOut_mixed :
    tokenize " 18446744073709551616\t: =\n< > x1 "
      = [.number 18446744073709551616, .unknown ':', .symbol .eq, .symbol .lt, .symbol .gt,
        .ident ['x', '1']] := by
  refine (tokenize_spelledOut _).2 [' '] [(.number 18446744073709551616, ['\t']),
    (.unknown ':', [' ']), (.symbol .eq, ['\n']), (.symbol .lt, [' ']), (.symbol .gt, [' ']),
    (.ident ['x', '1'], [' '])] ?_ rfl ?_ ?_ ?_
  · have hcolon : (Token.unknown ':').IsOfText := by
      refine .unknown rfl rfl rfl fun s => ?_
      cases s <;> decide
    have hname : (Token.ident ['x', '1']).IsOfText := .name (by decide +kernel)
    simp only [List.forall_mem_cons]
    exact ⟨.number (by decide), hcolon, .symbol _, .symbol _, .symbol _, hname,
      List.forall_mem_nil _⟩
  · exact List.forall_mem_singleton.mpr rfl
  · simp only [List.forall_mem_cons, List.not_mem_nil, false_implies, implies_true, and_true]
    decide
  · decide

end WhileFrontend
