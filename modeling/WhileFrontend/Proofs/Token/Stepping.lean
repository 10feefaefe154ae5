import WhileFrontend.Proofs.Rendering.Words
import WhileFrontend.Proofs.Token.Stepwise

/-!
# Lexing in any order of steps

A scanner can be asked for the next token, for a symbol, to move past blanks, or to look at what is
ahead. In whatever order this is done, the tokens handed out are the first ones of the text, and the
tokens taken after that are the others (`Scanner.steps_take_tokens`).

## Mechanism

What no step changes is which tokens a text has in all: those handed out so far, followed by those
of what lies ahead (`act_of_isStep`). Looking and moving past blanks change neither part, and a
symbol asked for at a place is the token at that place.
-/

namespace WhileFrontend

namespace Lexer

theorem tokens_skipBlanks (cs : List Char) : tokens (skipBlanks cs) = tokens cs := by
  have hsplit : cs.takeWhile Text.isBlank ++ skipBlanks cs = cs := List.takeWhile_append_dropWhile
  have hblank : ∀ c ∈ cs.takeWhile Text.isBlank, Text.isBlank c = true :=
    List.all_eq_true.mp List.all_takeWhile
  rw [← tokens_blanks_append hblank, hsplit]

/-- A symbol that is found is the first token. -/
theorem tokens_of_symbol? {cs rest : List Char} {s : Symbol} (h : symbol? cs = some (s, rest)) :
    tokens cs = .symbol s :: tokens rest := by
  obtain ⟨rfl, hlongest⟩ := symbol?_eq_some h
  rw [tokens_lexeme_append (stops_spelling s) (.symbol s hlongest), lexemeToken_symbol]

end Lexer

namespace Scanner

/-! ## Steps -/

/-- What takes no more than the next token, or only looks. -/
def Action.IsStep : Action → Prop
  | .next | .tokens | .seek _ => False
  | .peek _ | .current | .atEnd | .skipBlanks | .nextSymbol | .nextToken => True

instance : DecidablePred Action.IsStep
  | .next | .tokens | .seek _ => .isFalse id
  | .peek _ | .current | .atEnd | .skipBlanks | .nextSymbol | .nextToken => .isTrue trivial

/-- The token that an answer hands out, if it is not the end marker. -/
def taken : Except ScanFault Answer → List Token
  | .ok (.token (some t)) => if t.kind = .eof then [] else [t]
  | _ => []

/-- The scanner after some actions. -/
def after (s : Scanner) (actions : List Action) : Scanner :=
  actions.foldl (fun s a => (s.act a).2) s

/-- The position is in the text or at its end. -/
structure Within (s : Scanner) : Prop where
  nonneg : 0 ≤ s.position
  le : s.position ≤ s.length

/-! ## One step -/

variable {s : Scanner}

theorem taken_of_ne {t : Token} (h : t.kind ≠ .eof) : taken (.ok (.token (some t))) = [t] :=
  if_neg h

theorem Within.current (h : s.Within) : s.current = .ok s.source[s.position.toNat]? :=
  if_pos h.nonneg

/-- Moving past what comes before a suffix stays in the text. -/
theorem Within.moved (h : s.Within) {rest : List Char} (hrest : rest <:+ s.ahead) :
    (s.moved (s.ahead.length - rest.length)).Within := by
  have hle := hrest.length_le
  have hlength := position_add_length_ahead h.nonneg
  rw [Int.max_eq_right h.le] at hlength
  have hpos := h.nonneg
  constructor
  · show 0 ≤ s.position + (s.ahead.length - rest.length)
    omega
  · show s.position + (s.ahead.length - rest.length) ≤ s.length
    omega

/-- The symbol asked for is the token at the position. -/
theorem nextSymbol_eq_some {sym : Symbol} {rest : List Char} (h : s.Within)
    (hsym : Lexer.symbol? s.ahead = some (sym, rest)) :
    s.nextSymbol.1 = some (.symbol sym) ∧ s.nextSymbol.2.Within ∧ s.nextSymbol.2.ahead = rest ∧
      s.nextSymbol.2.source = s.source := by
  have htext := (Lexer.symbol?_eq_some hsym).1
  have hsuffix : rest <:+ s.ahead := htext ▸ List.suffix_append _ _
  have hmoved : (sym.spelling.length : Int) = s.ahead.length - rest.length := by
    rw [htext, List.length_append]
    omega
  have hnext : s.nextSymbol
      = (some (.symbol sym), s.moved (s.ahead.length - rest.length)) := by
    rw [nextSymbol, hsym]
    simp only [hmoved]
  rw [hnext]
  exact ⟨rfl, h.moved hsuffix, ahead_moved h.nonneg hsuffix, rfl⟩

/-- **What a step preserves.** In the text a step is answered and stays in the text, and what it
hands out with the tokens ahead of it are the tokens that were ahead before. -/
theorem act_of_isStep {a : Action} (h : s.Within) (ha : a.IsStep) :
    ∃ answer, (s.act a).1 = .ok answer ∧ (s.act a).2.source = s.source ∧ (s.act a).2.Within ∧
      taken (s.act a).1 ++ Lexer.tokens (s.act a).2.ahead = Lexer.tokens s.ahead := by
  cases a with
  | next | tokens | seek _ => exact ha.elim
  | peek _ | atEnd => exact ⟨_, rfl, rfl, h, rfl⟩
  | current =>
    refine ⟨.char s.source[s.position.toNat]?, ?_, rfl, h, ?_⟩ <;> rw [act, h.current] <;> rfl
  | skipBlanks =>
    refine ⟨.moved, rfl, rfl, h.moved (List.dropWhile_suffix _), ?_⟩
    show Lexer.tokens s.skipBlanks.ahead = Lexer.tokens s.ahead
    rw [ahead_skipBlanks h.nonneg, Lexer.tokens_skipBlanks]
  | nextSymbol =>
    cases hsym : Lexer.symbol? s.ahead with
    | none =>
      have hnone : s.nextSymbol = (none, s) := by rw [nextSymbol, hsym]
      rw [act, hnone]
      exact ⟨_, rfl, rfl, h, rfl⟩
    | some found =>
      obtain ⟨sym, rest⟩ := found
      obtain ⟨htoken, hwithin, hahead, hsource⟩ := nextSymbol_eq_some h hsym
      refine ⟨.token s.nextSymbol.1, rfl, hsource, hwithin, ?_⟩
      show taken (.ok (.token s.nextSymbol.1)) ++ Lexer.tokens s.nextSymbol.2.ahead = _
      rw [htoken, hahead, taken_of_ne Kind.noConfusion, Lexer.tokens_of_symbol? hsym]
      rfl
  | nextToken =>
    cases hskip : Lexer.skipBlanks s.ahead with
    | nil =>
      have hnext := nextToken_of_blanks h.nonneg hskip
      rw [Int.max_eq_right h.le] at hnext
      have hnonneg : 0 ≤ s.length := Int.le_trans h.nonneg h.le
      have hahead : ({ s with position := s.length } : Scanner).ahead = [] := by
        rw [ahead_of_nonneg hnonneg]
        exact List.drop_length
      rw [act, hnext, Lexer.tokens_of_skipBlanks_nil hskip]
      refine ⟨_, rfl, rfl, ⟨hnonneg, Int.le_refl _⟩, ?_⟩
      show Lexer.tokens ({ s with position := s.length } : Scanner).ahead = []
      rw [hahead, Lexer.tokens_of_skipBlanks_nil rfl]
    | cons c rest =>
      obtain ⟨s', hnext, hsource, hpos, hahead, hle⟩ := nextToken_of_cons h.nonneg hskip
      have hlength : s'.length = s.length := length_congr hsource
      rw [act, hnext, Lexer.tokens_of_skipBlanks_cons hskip]
      refine ⟨_, rfl, hsource, ⟨hpos, hlength ▸ hle⟩, ?_⟩
      show taken (.ok (.token (some (Lexer.next c rest).1))) ++ Lexer.tokens s'.ahead = _
      rw [taken_of_ne (Lexer.kind_next_ne c rest), hahead]
      rfl

/-! ## Steps in any order -/

/-- Each step is answered, and what all of them hand out with the tokens that are ahead in the end
are the tokens that were ahead at first. -/
theorem actAll_of_isStep {actions : List Action} (h : s.Within) (hsteps : ∀ a ∈ actions, a.IsStep) :
    (∀ r ∈ s.actAll actions, ∃ answer, r.1 = .ok answer) ∧
      (s.after actions).source = s.source ∧ (s.after actions).Within ∧
      (s.actAll actions).flatMap (fun r => taken r.1) ++ Lexer.tokens (s.after actions).ahead
        = Lexer.tokens s.ahead := by
  induction actions generalizing s with
  | nil =>
    rw [actAll]
    exact ⟨List.forall_mem_nil _, rfl, h, rfl⟩
  | cons a rest ih =>
    obtain ⟨ha, hrest⟩ := List.forall_mem_cons.mp hsteps
    obtain ⟨answer, hanswer, hsource, hwithin, htokens⟩ := act_of_isStep h ha
    obtain ⟨hall, hsource', hwithin', htokens'⟩ := ih hwithin hrest
    refine ⟨List.forall_mem_cons.mpr ⟨⟨answer, hanswer⟩, hall⟩, hsource'.trans hsource, hwithin',
      ?_⟩
    rw [actAll, List.flatMap_cons, List.append_assoc]
    exact (congrArg (taken (s.act a).1 ++ ·) htokens').trans htokens

/-! ## At the end -/

/-- The end marker is handed out at the end of the text. -/
theorem position_of_nextToken_eof (h : s.Within) (heof : s.nextToken.1 = .ok .eof) :
    s.nextToken.2 = { s with position := s.length } := by
  cases hskip : Lexer.skipBlanks s.ahead with
  | nil => rw [nextToken_of_blanks h.nonneg hskip, Int.max_eq_right h.le]
  | cons c rest =>
    obtain ⟨s', hnext, -⟩ := nextToken_of_cons h.nonneg hskip
    rw [hnext] at heof
    exact absurd (congrArg Token.kind (Except.ok.inj heof)) (Lexer.kind_next_ne c rest)

theorem ahead_of_end (h : s.position = s.length) : s.ahead = [] := by
  have hpos : 0 ≤ s.position := h ▸ Int.natCast_nonneg s.source.length
  rw [ahead_of_nonneg hpos, h]
  exact List.drop_length

/-- At the end no step moves the scanner, and the next token is the end marker. -/
theorem act_at_end {a : Action} (h : s.position = s.length) (ha : a.IsStep) :
    (s.act a).2 = s ∧ s.nextToken = (.ok .eof, s) := by
  have hahead := ahead_of_end h
  have hnext : s.nextToken = (.ok .eof, s) := by
    have hpos : 0 ≤ s.position := h ▸ Int.natCast_nonneg s.source.length
    rw [nextToken_of_blanks hpos (by rw [hahead]; rfl), h, Int.max_self]
    exact congrArg (fun p => (_, { s with position := p })) h.symm
  refine ⟨?_, hnext⟩
  cases a with
  | next | tokens | seek _ => exact ha.elim
  | peek _ | atEnd | current => rfl
  | skipBlanks =>
    show s.skipBlanks = s
    rw [skipBlanks, hahead]
    exact moved_zero s
  | nextSymbol =>
    have hnone : s.nextSymbol = (none, s) := by
      rw [nextSymbol, hahead]
      rfl
    rw [act, hnone]
    rfl
  | nextToken => rw [act, hnext]; rfl

theorem after_at_end {actions : List Action} (h : s.position = s.length)
    (hsteps : ∀ a ∈ actions, a.IsStep) : s.after actions = s := by
  induction actions with
  | nil => rfl
  | cons a rest ih =>
    obtain ⟨ha, hrest⟩ := List.forall_mem_cons.mp hsteps
    rw [after, List.foldl_cons, (act_at_end h ha).1]
    exact ih hrest

/--
**Steps in any order take the tokens of the text.** On a text, each of any row of steps is answered;
the tokens and symbols handed out are the first tokens of the text, in order; and taking all tokens
afterwards gives exactly the others. Once the next token is the end marker, it stays so whatever is
asked, and the position stays at the end. Taking tokens and symbols character by character comes to
the same.
-/
theorem steps_take_tokens (source : String) {actions : List Action}
    (hsteps : ∀ a ∈ actions, a.IsStep) :
    let s : Scanner := { source := source.toList }
    (∀ (s' : Scanner) (a : Action), Stepwise.act s' a = s'.act a) ∧
    (∀ r ∈ s.actAll actions, ∃ answer, r.1 = .ok answer) ∧
    (∃ rest, (s.actAll actions).flatMap (fun r => taken r.1) ++ rest = tokenize source ∧
      (s.after actions).tokens = (.ok rest, { s with position := s.length })) ∧
    ((s.after actions).nextToken.1 = .ok .eof → ∀ later : List Action, (∀ a ∈ later, a.IsStep) →
      ((s.after actions).nextToken.2.after later).position = s.length ∧
      ((s.after actions).nextToken.2.after later).nextToken
        = (.ok .eof, (s.after actions).nextToken.2.after later)) := by
  intro s
  have hstart : s.Within := ⟨Int.le_refl 0, Int.natCast_nonneg _⟩
  obtain ⟨hall, hsource, hwithin, htokens⟩ := actAll_of_isStep hstart hsteps
  have hlength : (s.after actions).length = s.length := length_congr hsource
  refine ⟨Stepwise.act_eq, hall, ⟨_, htokens, ?_⟩, fun heof later hlater => ?_⟩
  · rw [tokens_eq hwithin.nonneg, Int.max_eq_right hwithin.le, hlength, hsource]
  · have hend := position_of_nextToken_eof hwithin heof
    have hposition : (s.after actions).nextToken.2.position
        = (s.after actions).nextToken.2.length := by rw [hend]; rfl
    rw [after_at_end hposition hlater]
    refine ⟨?_, (act_at_end (a := .nextToken) hposition trivial).2⟩
    rw [hposition, hend]
    exact hlength

/-- A symbol is asked for in front of a name, behind it and behind the blank that follows. -/
theorem steps_take_assignment :
    let actions : List Action :=
      [.nextSymbol, .nextToken, .peek 9, .nextSymbol, .skipBlanks, .nextSymbol]
    let s : Scanner := { source := "ab :=1".toList }
    (∀ a ∈ actions, a.IsStep) ∧
    ∃ rest, [.ident ['a', 'b'], .symbol .assign] ++ rest = tokenize "ab :=1" ∧
      (s.after actions).tokens = (.ok rest, { s with position := s.length }) := by
  intro actions s
  have hsteps : ∀ a ∈ actions, a.IsStep := by decide
  have htaken : (s.actAll actions).flatMap (fun r => taken r.1)
      = [.ident ['a', 'b'], .symbol .assign] := by
    decide +kernel
  obtain ⟨-, -, htokens, -⟩ := steps_take_tokens "ab :=1" hsteps
  rw [htaken] at htokens
  exact ⟨hsteps, htokens⟩

end Scanner

end WhileFrontend
