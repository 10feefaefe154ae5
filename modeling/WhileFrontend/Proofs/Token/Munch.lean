import Mathlib.Logic.ExistsUnique
import WhileFrontend.Proofs.Token.Lexeme

/-!
# The only way to cut a text into lexemes

A text is cut into blanks and lexemes in turn. There is exactly one way to do so in which every
lexeme is the one that its place asks for, and the tokens of a text are the tokens of its lexemes.
So lexing a text comes down to showing how it is cut, without running the lexer: as a whole
(`Split.tokens_text`) or one lexeme at a time (`Lexer.tokens_lexeme_append`).
-/

namespace WhileFrontend

namespace Lexer

open Text

/-! ## Tokens of a text that starts with blanks or with a lexeme -/

theorem tokens_of_skipBlanks_nil {cs : List Char} (h : skipBlanks cs = []) : tokens cs = [] := by
  rw [tokens]
  split
  · rfl
  · next c rest hcons =>
    rw [h] at hcons
    cases hcons

theorem tokens_of_skipBlanks_cons {c : Char} {cs rest : List Char}
    (h : skipBlanks cs = c :: rest) : tokens cs = (next c rest).1 :: tokens (next c rest).2 := by
  rw [tokens]
  split
  · next hnil =>
    rw [h] at hnil
    cases hnil
  · next c' rest' hcons =>
    rw [h] at hcons
    obtain ⟨rfl, rfl⟩ := List.cons.inj hcons
    rfl

/-- Blanks in front of a text leave no trace. -/
theorem tokens_blanks_append {w : List Char} (hw : ∀ c ∈ w, isBlank c = true) (cs : List Char) :
    tokens (w ++ cs) = tokens cs := by
  have hskip : skipBlanks (w ++ cs) = skipBlanks cs := List.dropWhile_append_of_pos hw
  cases h : skipBlanks cs with
  | nil => rw [tokens_of_skipBlanks_nil (hskip.trans h), tokens_of_skipBlanks_nil h]
  | cons c rest => rw [tokens_of_skipBlanks_cons (hskip.trans h), tokens_of_skipBlanks_cons h]

/-- A lexeme that starts with no blank gives its token, and the lexer goes on behind it. -/
theorem tokens_lexeme_append {l rest : List Char} (hl : Stops isBlank l) (h : IsLexeme l rest) :
    tokens (l ++ rest) = lexemeToken l :: tokens rest := by
  obtain ⟨c, cs, rfl⟩ := List.exists_cons_of_ne_nil h.ne_nil
  have hc : ¬ isBlank c = true := by simp [hl c rfl]
  have hskip : skipBlanks (c :: cs ++ rest) = c :: (cs ++ rest) :=
    List.dropWhile_cons_of_neg hc
  rw [tokens_of_skipBlanks_cons hskip, next_of_isLexeme h rfl]

end Lexer

open Lexer Text

/-- A text cut into blanks and lexemes in turn: `w₀ l₁ w₁ … lₙ wₙ`. -/
inductive Split where
  | last (blanks : List Char)
  | cons (blanks lexeme : List Char) (rest : Split)

namespace Split

/-- The text that was cut. -/
def text : Split → List Char
  | last w => w
  | cons w l m => w ++ (l ++ m.text)

/-- The lexemes in order. -/
def lexemes : Split → List (List Char)
  | last _ => []
  | cons _ l m => l :: m.lexemes

/-- Only blanks stand between the lexemes, and each lexeme starts with no blank and is the one that
its place asks for. -/
def IsMunch : Split → Prop
  | last w => ∀ c ∈ w, isBlank c = true
  | cons w l m =>
    (∀ c ∈ w, isBlank c = true) ∧ Stops isBlank l ∧ IsLexeme l m.text ∧ m.IsMunch

/-- The tokens of a text are those of its lexemes. -/
theorem tokens_text {m : Split} (h : m.IsMunch) :
    tokens m.text = m.lexemes.map lexemeToken := by
  induction m with
  | last w =>
    rw [text, ← List.append_nil w, tokens_blanks_append h, tokens_of_skipBlanks_nil rfl]
    rfl
  | cons w l m ih =>
    obtain ⟨hw, hl, hlexeme, hm⟩ := h
    rw [text, tokens_blanks_append hw, tokens_lexeme_append hl hlexeme, ih hm]
    rfl

/-- Every text can be cut. -/
theorem exists_isMunch (cs : List Char) : ∃ m : Split, m.text = cs ∧ m.IsMunch := by
  have hsplit : cs.takeWhile isBlank ++ skipBlanks cs = cs := List.takeWhile_append_dropWhile
  have hblank : ∀ c ∈ cs.takeWhile isBlank, isBlank c = true :=
    List.all_eq_true.mp List.all_takeWhile
  cases hskip : skipBlanks cs with
  | nil =>
    rw [hskip, List.append_nil] at hsplit
    exact ⟨last (cs.takeWhile isBlank), hsplit, hblank⟩
  | cons c rest =>
    have hlen : (c :: rest).length ≤ cs.length := by
      rw [← hskip]
      exact length_dropWhile_le _ _
    have hnext := length_next_le c rest
    obtain ⟨l, htext, hlexeme⟩ := exists_isLexeme c rest
    obtain ⟨m, hm, hmunch⟩ := exists_isMunch (next c rest).2
    refine ⟨cons (cs.takeWhile isBlank) l m, ?_, hblank, ?_, by rwa [hm], hmunch⟩
    · rw [text, hm, ← htext, ← hskip, hsplit]
    · -- the lexeme starts with the character at which the blanks stopped
      have hstop : Stops isBlank (c :: rest) := by
        rw [← hskip]
        exact stops_dropWhile isBlank cs
      obtain ⟨d, ds, rfl⟩ := List.exists_cons_of_ne_nil hlexeme.ne_nil
      obtain ⟨rfl, -⟩ := List.cons.inj htext
      exact hstop
termination_by cs.length
decreasing_by
  simp only [List.length_cons] at hlen
  omega

theorem stops_text {l : List Char} {m : Split} (hl : Stops isBlank l)
    (hlexeme : IsLexeme l m.text) : Stops isBlank (l ++ m.text) := by
  obtain ⟨c, cs, rfl⟩ := List.exists_cons_of_ne_nil hlexeme.ne_nil
  exact hl

/-- The blanks in front of a text end where the first character stands that is none. -/
theorem blanks_unique {w w' cs cs' : List Char} (hw : ∀ c ∈ w, isBlank c = true)
    (hw' : ∀ c ∈ w', isBlank c = true) (hcs : Stops isBlank cs) (hcs' : Stops isBlank cs')
    (h : w ++ cs = w' ++ cs') : w = w' ∧ cs = cs' := by
  have htake := congrArg (List.takeWhile isBlank) h
  have hdrop := congrArg (List.dropWhile isBlank) h
  rw [takeWhile_append_of_stops hw hcs, takeWhile_append_of_stops hw' hcs'] at htake
  rw [dropWhile_append_of_stops hw hcs, dropWhile_append_of_stops hw' hcs'] at hdrop
  exact ⟨htake, hdrop⟩

/-- A text can be cut in one way only. -/
theorem IsMunch.unique {m m' : Split} (h : m.IsMunch) (h' : m'.IsMunch)
    (htext : m.text = m'.text) : m = m' := by
  have hnil : Stops isBlank [] := by
    intro c hc
    cases hc
  induction m generalizing m' with
  | last w =>
    cases m' with
    | last w' => exact congrArg last htext
    | cons w' l' m' =>
      obtain ⟨hw', hl', hlexeme', -⟩ := h'
      have hempty := (blanks_unique h hw' hnil (stops_text hl' hlexeme')
        ((List.append_nil w).trans htext)).2
      exact absurd (List.append_eq_nil_iff.mp hempty.symm).1 hlexeme'.ne_nil
  | cons w l m ih =>
    obtain ⟨hw, hl, hlexeme, hm⟩ := h
    cases m' with
    | last w' =>
      have hempty := (blanks_unique hw h' (stops_text hl hlexeme) hnil
        (htext.trans (List.append_nil w').symm)).2
      exact absurd (List.append_eq_nil_iff.mp hempty).1 hlexeme.ne_nil
    | cons w' l' m' =>
      obtain ⟨hw', hl', hlexeme', hm'⟩ := h'
      obtain ⟨rfl, hrest⟩ :=
        blanks_unique hw hw' (stops_text hl hlexeme) (stops_text hl' hlexeme') htext
      obtain ⟨rfl, hm''⟩ := hlexeme.unique hlexeme' hrest
      rw [ih hm hm' hm'']

/-- Each lexeme takes up a character at least. -/
theorem IsMunch.length_lexemes_le {m : Split} (h : m.IsMunch) :
    m.lexemes.length ≤ m.text.length := by
  induction m with
  | last w => exact Nat.zero_le _
  | cons w l m ih =>
    obtain ⟨-, -, hlexeme, hm⟩ := h
    have hpos := List.length_pos_iff.mpr hlexeme.ne_nil
    have hle := ih hm
    simp only [lexemes, text, List.length_cons, List.length_append]
    omega

theorem IsMunch.exists_isLexeme {m : Split} (h : m.IsMunch) :
    ∀ l ∈ m.lexemes, Stops isBlank l ∧ ∃ rest, IsLexeme l rest := by
  induction m with
  | last w => exact List.forall_mem_nil _
  | cons w l m ih =>
    obtain ⟨-, hl, hlexeme, hm⟩ := h
    exact List.forall_mem_cons.mpr ⟨⟨hl, m.text, hlexeme⟩, ih hm⟩

end Split

/-- What holds of the tokens of all lexemes holds of all tokens of a text. -/
theorem forall_mem_tokenize {P : Token → Prop}
    (h : ∀ l rest, Stops isBlank l → IsLexeme l rest → P (lexemeToken l)) {s : String} :
    ∀ t ∈ tokenize s, P t := by
  obtain ⟨m, htext, hm⟩ := Split.exists_isMunch s.toList
  rw [tokenize, ← htext, Split.tokens_text hm]
  refine List.forall_mem_map.mpr fun l hl => ?_
  obtain ⟨hblank, rest, hlexeme⟩ := hm.exists_isLexeme l hl
  exact h l rest hblank hlexeme

/-- The end of a text is not marked. -/
theorem kind_ne_of_mem_tokenize {s : String} : ∀ t ∈ tokenize s, t.kind ≠ .eof :=
  forall_mem_tokenize fun _ _ _ h => lexemeToken_kind_ne h.ne_nil

/--
**Maximal munch.** There is exactly one way to cut a text into blanks and lexemes, and the tokens of
the text are those of the lexemes, in order. None is an end marker, and there are no more than the
text has characters.
-/
theorem tokenize_munch (s : String) :
    (∃! m : Split, m.text = s.toList ∧ m.IsMunch) ∧
    ∀ m : Split, m.text = s.toList → m.IsMunch →
      tokenize s = m.lexemes.map lexemeToken ∧
      (∀ t ∈ tokenize s, t.kind ≠ .eof) ∧
      (tokenize s).length ≤ s.length := by
  constructor
  · obtain ⟨m, htext, hm⟩ := Split.exists_isMunch s.toList
    refine ⟨m, ⟨htext, hm⟩, ?_⟩
    rintro m' ⟨htext', hm'⟩
    exact hm'.unique hm (htext'.trans htext.symm)
  · intro m htext hm
    have htokens : tokenize s = m.lexemes.map lexemeToken := by
      rw [tokenize, ← htext, Split.tokens_text hm]
    refine ⟨htokens, kind_ne_of_mem_tokenize, ?_⟩
    rw [htokens, List.length_map, ← String.length_toList, ← htext]
    exact hm.length_lexemes_le

end WhileFrontend
