import Mathlib.Data.Nat.Digits.Defs
import WhileFrontend.Token.Lexer

/-!
# Lexemes

What a lexeme is, said of a place in a text without scanning it: the first that applies of

1. the longest symbol with which the text goes on
2. the maximal run of digits
3. a letter with the maximal run of name characters after it
4. a single character

`IsLexeme l rest` says so of `l` in front of `rest`, and `lexemeToken` gives each lexeme its token.
The lexer reads lexemes (`exists_isLexeme`), and it reads nothing else (`next_of_isLexeme`).
-/

namespace WhileFrontend

theorem Symbol.one_le_length (s : Symbol) : 1 ≤ s.spelling.length := by
  cases s <;> decide

theorem Symbol.length_le_two (s : Symbol) : s.spelling.length ≤ 2 := by
  cases s <;> decide

namespace Lexer

open Text

/-- The text does not go on with a character of the class. -/
def Stops (p : Char → Bool) (cs : List Char) : Prop :=
  ∀ c ∈ cs.head?, p c = false

/-- The text goes on with no symbol. -/
def NoSymbol (cs : List Char) : Prop :=
  ∀ s : Symbol, ¬ s.spelling <+: cs

/-- In front of `rest`, the characters are the lexeme at their place. -/
inductive IsLexeme : List Char → List Char → Prop where
  | symbol {rest : List Char} (s : Symbol)
    (longest : ∀ s' : Symbol, s'.spelling <+: s.spelling ++ rest →
      s'.spelling.length ≤ s.spelling.length) :
    IsLexeme s.spelling rest
  | number {c : Char} {cs rest : List Char} (noSymbol : NoSymbol (c :: (cs ++ rest)))
    (first : isDigit c = true) (digits : ∀ d ∈ cs, isDigit d = true)
    (maximal : Stops isDigit rest) :
    IsLexeme (c :: cs) rest
  | word {c : Char} {cs rest : List Char} (noSymbol : NoSymbol (c :: (cs ++ rest)))
    (noDigit : isDigit c = false) (first : isLetter c = true)
    (chars : ∀ d ∈ cs, isNameChar d = true) (maximal : Stops isNameChar rest) :
    IsLexeme (c :: cs) rest
  | single {c : Char} {rest : List Char} (noSymbol : NoSymbol (c :: rest))
    (noDigit : isDigit c = false) (noLetter : isLetter c = false) :
    IsLexeme [c] rest

/-- The number that a row of digits denotes: the last digit counts once, the one before it ten
times, and so on. -/
def decimalValue (digits : List Char) : Nat :=
  Nat.ofDigits 10 (digits.reverse.map fun c => (digitValue? c).getD 0)

/-- The token of a lexeme. A lexeme is not empty. -/
def lexemeToken : List Char → Token
  | [] => .eof
  | c :: cs =>
    match Symbol.ofSpelling? (c :: cs) with
    | some s => .symbol s
    | none =>
      if isDigit c then .number (decimalValue (c :: cs))
      else if isLetter c then
        match Keyword.ofSpelling? (c :: cs) with
        | some k => .keyword k
        | none => .ident (c :: cs)
      else .unknown c

/-! ## Symbols -/

theorem symbol?_eq_none {cs : List Char} (h : symbol? cs = none) : NoSymbol cs := by
  intro s hs
  rw [List.prefix_iff_eq_take] at hs
  have hfound := Symbol.ofSpelling?_spelling s
  unfold symbol? at h
  split at h
  · cases h
  · next htwo =>
    split at h
    · cases h
    · next hone =>
      have h1 := Symbol.one_le_length s
      have h2 := Symbol.length_le_two s
      obtain hlen | hlen : s.spelling.length = 1 ∨ s.spelling.length = 2 := by omega
      · rw [hs, hlen, hone] at hfound
        cases hfound
      · rw [hs, hlen, htwo] at hfound
        cases hfound

/-- The symbol found is at the front, and none that is longer is. -/
theorem symbol?_eq_some {cs rest : List Char} {s : Symbol} (h : symbol? cs = some (s, rest)) :
    cs = s.spelling ++ rest ∧
      ∀ s' : Symbol, s'.spelling <+: cs → s'.spelling.length ≤ s.spelling.length := by
  unfold symbol? at h
  split at h
  · next s₂ htwo =>
    obtain ⟨rfl, rfl⟩ := Prod.mk.inj (Option.some.inj h)
    have hs := Symbol.spelling_of_ofSpelling? htwo
    refine ⟨by rw [hs, List.take_append_drop], fun s' hs' => ?_⟩
    have h2 := Symbol.length_le_two s'
    have hle := hs'.length_le
    rw [hs, List.length_take]
    omega
  · next htwo =>
    split at h
    · next s₁ hone =>
      obtain ⟨rfl, rfl⟩ := Prod.mk.inj (Option.some.inj h)
      have hs := Symbol.spelling_of_ofSpelling? hone
      refine ⟨by rw [hs, List.take_append_drop], fun s' hs' => ?_⟩
      have h1 := Symbol.one_le_length s₁
      have h2 := Symbol.length_le_two s'
      by_cases hlen : s'.spelling.length = 2
      · -- a symbol of two characters would have been found first
        rw [List.prefix_iff_eq_take, hlen] at hs'
        have hfound := Symbol.ofSpelling?_spelling s'
        rw [hs', htwo] at hfound
        cases hfound
      · omega
    · cases h

theorem symbol?_of_noSymbol {cs : List Char} (h : NoSymbol cs) : symbol? cs = none := by
  cases hs : symbol? cs with
  | none => rfl
  | some p =>
    obtain ⟨s, rest⟩ := p
    exact absurd ⟨rest, (symbol?_eq_some hs).1.symm⟩ (h s)

/-- Two symbols at the front of a text of which neither is the shorter are the same. -/
theorem symbol?_of_longest {rest : List Char} {s : Symbol}
    (h : ∀ s' : Symbol, s'.spelling <+: s.spelling ++ rest →
      s'.spelling.length ≤ s.spelling.length) :
    symbol? (s.spelling ++ rest) = some (s, rest) := by
  cases hs : symbol? (s.spelling ++ rest) with
  | none => exact absurd (List.prefix_append _ _) (symbol?_eq_none hs s)
  | some p =>
    obtain ⟨s', rest'⟩ := p
    obtain ⟨htext, hlongest⟩ := symbol?_eq_some hs
    have hle := h s' ⟨rest', htext.symm⟩
    have hge := hlongest s (List.prefix_append _ _)
    obtain ⟨hspell, rfl⟩ := List.append_inj htext (Nat.le_antisymm hge hle)
    have hsame := Symbol.ofSpelling?_spelling s
    rw [hspell, Symbol.ofSpelling?_spelling] at hsame
    rw [Option.some.inj hsame]

/-! ## The lexer's lexemes -/

theorem stops_dropWhile (p : Char → Bool) (cs : List Char) : Stops p (cs.dropWhile p) := by
  intro c hc
  have hstop := List.head?_dropWhile_not p cs
  rw [Option.mem_def.mp hc] at hstop
  simpa using hstop

theorem takeWhile_append_of_stops {p : Char → Bool} {cs rest : List Char} (hcs : ∀ c ∈ cs, p c)
    (hrest : Stops p rest) : (cs ++ rest).takeWhile p = cs := by
  rw [List.takeWhile_append_of_pos hcs]
  cases rest with
  | nil => simp
  | cons d rest => rw [List.takeWhile_cons_of_neg (by simp [hrest d rfl]), List.append_nil]

theorem dropWhile_append_of_stops {p : Char → Bool} {cs rest : List Char} (hcs : ∀ c ∈ cs, p c)
    (hrest : Stops p rest) : (cs ++ rest).dropWhile p = rest := by
  rw [List.dropWhile_append_of_pos hcs]
  cases rest with
  | nil => rfl
  | cons d rest => rw [List.dropWhile_cons_of_neg (by simp [hrest d rfl])]

/-- Adding up digit by digit gives the number that the row of digits denotes. -/
theorem numeral_eq_decimalValue (digits : List Char) : numeral digits = decimalValue digits := by
  rw [numeral, decimalValue, Nat.ofDigits_eq_foldr, List.foldr_map, List.foldr_reverse]
  congr 1
  funext n c
  simp [Nat.mul_comm, Nat.add_comm]

theorem next_of_noSymbol {c : Char} {cs : List Char} (h : NoSymbol (c :: cs)) :
    next c cs =
      if isDigit c then (.number (numeral (c :: cs.takeWhile isDigit)), cs.dropWhile isDigit)
      else if isLetter c then
        (wordToken (c :: cs.takeWhile isNameChar), cs.dropWhile isNameChar)
      else (.unknown c, cs) := by
  rw [next, symbol?_of_noSymbol h]

theorem lexemeToken_of_noSymbol {c : Char} {cs rest : List Char}
    (h : NoSymbol (c :: (cs ++ rest))) :
    lexemeToken (c :: cs) =
      if isDigit c then .number (decimalValue (c :: cs))
      else if isLetter c then wordToken (c :: cs)
      else .unknown c := by
  have hnone : Symbol.ofSpelling? (c :: cs) = none := by
    cases hs : Symbol.ofSpelling? (c :: cs) with
    | none => rfl
    | some s => exact absurd ⟨rest, by rw [Symbol.spelling_of_ofSpelling? hs]; rfl⟩ (h s)
  simp only [lexemeToken, hnone]
  rfl

theorem lexemeToken_symbol (s : Symbol) : lexemeToken s.spelling = .symbol s := by
  have hs := Symbol.ofSpelling?_spelling s
  cases hl : s.spelling with
  | nil => exact absurd (Symbol.one_le_length s) (by simp [hl])
  | cons c cs =>
    rw [hl] at hs
    simp only [lexemeToken, hs]

/-- The lexer reads the lexeme at its place and gives its token. -/
theorem next_of_isLexeme {c : Char} {cs l rest : List Char} (h : IsLexeme l rest)
    (hl : l = c :: cs) : next c (cs ++ rest) = (lexemeToken l, rest) := by
  cases h with
  | symbol s longest =>
    have hs := symbol?_of_longest longest
    rw [hl, List.cons_append] at hs
    rw [next, hs, lexemeToken_symbol]
  | number noSymbol first digits maximal =>
    obtain ⟨rfl, rfl⟩ := List.cons.inj hl
    rw [next_of_noSymbol noSymbol, lexemeToken_of_noSymbol noSymbol, if_pos first, if_pos first,
      takeWhile_append_of_stops digits maximal, dropWhile_append_of_stops digits maximal,
      numeral_eq_decimalValue]
  | word noSymbol noDigit first chars maximal =>
    obtain ⟨rfl, rfl⟩ := List.cons.inj hl
    rw [next_of_noSymbol noSymbol, lexemeToken_of_noSymbol noSymbol]
    simp only [noDigit, first, Bool.false_eq_true, if_false, if_true,
      takeWhile_append_of_stops chars maximal, dropWhile_append_of_stops chars maximal]
  | @single d rest noSymbol noDigit noLetter =>
    obtain ⟨rfl, rfl⟩ := List.cons.inj hl
    have hd : NoSymbol (d :: ([] ++ rest)) := noSymbol
    rw [next_of_noSymbol hd, lexemeToken_of_noSymbol hd]
    simp only [noDigit, noLetter, Bool.false_eq_true, if_false, List.nil_append]

/-- At every place where a character is left, the lexer finds a lexeme. -/
theorem exists_isLexeme (c : Char) (cs : List Char) :
    ∃ l, c :: cs = l ++ (next c cs).2 ∧ IsLexeme l (next c cs).2 := by
  cases hs : symbol? (c :: cs) with
  | some p =>
    obtain ⟨s, rest⟩ := p
    obtain ⟨htext, hlongest⟩ := symbol?_eq_some hs
    rw [htext] at hlongest
    rw [next, hs]
    exact ⟨s.spelling, htext, .symbol s hlongest⟩
  | none =>
    have hno := symbol?_eq_none hs
    rw [next_of_noSymbol hno]
    by_cases hdigit : isDigit c = true
    · have hsplit : cs = cs.takeWhile isDigit ++ cs.dropWhile isDigit :=
        List.takeWhile_append_dropWhile.symm
      rw [if_pos hdigit]
      refine ⟨c :: cs.takeWhile isDigit, congrArg (c :: ·) hsplit, .number ?_ hdigit ?_ ?_⟩
      · rwa [← hsplit]
      · exact List.all_eq_true.mp List.all_takeWhile
      · exact stops_dropWhile _ _
    · rw [if_neg hdigit]
      by_cases hletter : isLetter c = true
      · have hsplit : cs = cs.takeWhile isNameChar ++ cs.dropWhile isNameChar :=
          List.takeWhile_append_dropWhile.symm
        rw [if_pos hletter]
        refine ⟨c :: cs.takeWhile isNameChar, congrArg (c :: ·) hsplit,
          .word ?_ (by simpa using hdigit) hletter ?_ ?_⟩
        · rwa [← hsplit]
        · exact List.all_eq_true.mp List.all_takeWhile
        · exact stops_dropWhile _ _
      · rw [if_neg hletter]
        exact ⟨[c], rfl, .single hno (by simpa using hdigit) (by simpa using hletter)⟩

theorem IsLexeme.ne_nil {l rest : List Char} (h : IsLexeme l rest) : l ≠ [] := by
  cases h with
  | symbol s longest =>
    intro hs
    have hlen := Symbol.one_le_length s
    simp [hs] at hlen
  | number => exact List.cons_ne_nil _ _
  | word => exact List.cons_ne_nil _ _
  | single => exact List.cons_ne_nil _ _

/-- A text starts with one lexeme only. -/
theorem IsLexeme.unique {l rest l' rest' : List Char} (h : IsLexeme l rest)
    (h' : IsLexeme l' rest') (htext : l ++ rest = l' ++ rest') : l = l' ∧ rest = rest' := by
  obtain ⟨c, cs, rfl⟩ := List.exists_cons_of_ne_nil h.ne_nil
  obtain ⟨c', cs', rfl⟩ := List.exists_cons_of_ne_nil h'.ne_nil
  have htail : cs ++ rest = cs' ++ rest' := (List.cons.inj htext).2
  obtain rfl : c = c' := (List.cons.inj htext).1
  have hnext := next_of_isLexeme h rfl
  rw [htail, next_of_isLexeme h' rfl] at hnext
  obtain ⟨-, rfl⟩ := Prod.mk.inj hnext
  exact ⟨List.append_cancel_right htext, rfl⟩

/-- No lexeme has the end marker for its token. -/
theorem lexemeToken_kind_ne {l : List Char} (h : l ≠ []) : (lexemeToken l).kind ≠ .eof := by
  obtain ⟨c, cs, rfl⟩ := List.exists_cons_of_ne_nil h
  rw [lexemeToken]
  split
  · exact Kind.noConfusion
  · split
    · exact Kind.noConfusion
    · split
      · split <;> exact Kind.noConfusion
      · exact Kind.noConfusion

end Lexer

end WhileFrontend
