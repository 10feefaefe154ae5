import WhileFrontend.Proofs.Token.Munch
import WhileFrontend.Token.Scanner

/-!
# Scanning from a position

From a position at or after the start, a scanner takes the tokens of the text that lies ahead, and
never fails (`Scanner.tokens_eq`). The bridge between the two is `Scanner.ahead_moved`: what a lexer
gives back is a suffix of what lies ahead, and moving by the length of what was cut off leaves that
suffix ahead.
-/

namespace WhileFrontend

/-- The token taken is that of a lexeme, and so it is no end marker. -/
theorem Lexer.kind_next_ne (c : Char) (cs : List Char) : (next c cs).1.kind ≠ .eof := by
  obtain ⟨l, htext, hl⟩ := exists_isLexeme c cs
  obtain ⟨d, ds, rfl⟩ := List.exists_cons_of_ne_nil hl.ne_nil
  obtain ⟨rfl, htail⟩ := List.cons.inj htext
  have htail' : cs = ds ++ (next c cs).2 := htail
  have hnext := next_of_isLexeme hl rfl
  rw [← htail'] at hnext
  rw [hnext]
  exact lexemeToken_kind_ne hl.ne_nil

namespace Scanner

variable {s : Scanner}

theorem length_congr {s' : Scanner} (h : s'.source = s.source) : s'.length = s.length :=
  congrArg (fun cs => (cs.length : Int)) h

theorem ahead_of_nonneg (h : 0 ≤ s.position) : s.ahead = s.source.drop s.position.toNat :=
  if_pos h

/-- Moving past what comes before a suffix leaves the suffix ahead. -/
theorem ahead_moved {rest : List Char} (h : 0 ≤ s.position) (hrest : rest <:+ s.ahead) :
    (s.moved (s.ahead.length - rest.length)).ahead = rest := by
  have hle := hrest.length_le
  have hpos : 0 ≤ s.position + (s.ahead.length - rest.length) := by omega
  have hnat : (s.position + (s.ahead.length - rest.length)).toNat
      = s.position.toNat + (s.ahead.length - rest.length) := by omega
  rw [ahead_of_nonneg hpos]
  show s.source.drop (s.position + (s.ahead.length - rest.length)).toNat = rest
  rw [hnat, ← List.drop_drop, ← ahead_of_nonneg h]
  exact (List.suffix_iff_eq_drop.mp hrest).symm

theorem ahead_skipBlanks (h : 0 ≤ s.position) : s.skipBlanks.ahead = Lexer.skipBlanks s.ahead :=
  ahead_moved h (List.dropWhile_suffix _)

/-- Where nothing is left ahead, the position is at the end or past it. -/
theorem position_add_length_ahead (h : 0 ≤ s.position) :
    s.position + s.ahead.length = max s.position s.length := by
  rw [ahead_of_nonneg h, List.length_drop, length]
  omega

theorem nonneg_skipBlanks (h : 0 ≤ s.position) : 0 ≤ s.skipBlanks.position :=
  Int.le_trans h (position_le_skipBlanks s)

/-- With only blanks ahead, the scanner moves to the end. -/
theorem nextToken_of_blanks (h : 0 ≤ s.position) (hblank : Lexer.skipBlanks s.ahead = []) :
    s.nextToken = (.ok .eof, { s with position := max s.position s.length }) := by
  have hahead : s.skipBlanks.ahead = [] := by rw [ahead_skipBlanks h, hblank]
  have hskip : s.skipBlanks = { s with position := max s.position s.length } := by
    rw [skipBlanks, hblank, moved, ← position_add_length_ahead h]
    simp
  have hend : s.skipBlanks.atEnd = true := by
    rw [hskip, atEnd, decide_eq_true_eq]
    exact Int.le_max_right _ _
  rw [nextToken, hahead]
  simp only [hend, if_true]
  rw [hskip]

/-- Otherwise it takes the token of what is left ahead behind the blanks. -/
theorem nextToken_of_cons (h : 0 ≤ s.position) {c : Char} {rest : List Char}
    (hcons : Lexer.skipBlanks s.ahead = c :: rest) :
    ∃ s' : Scanner, s.nextToken = (.ok (Lexer.next c rest).1, s') ∧ s'.source = s.source ∧
      0 ≤ s'.position ∧ s'.ahead = (Lexer.next c rest).2 ∧ s'.position ≤ s.length := by
  have hahead : s.skipBlanks.ahead = c :: rest := by rw [ahead_skipBlanks h, hcons]
  have hpos := nonneg_skipBlanks h
  have hsuffix : (Lexer.next c rest).2 <:+ s.skipBlanks.ahead := by
    obtain ⟨l, htext, -⟩ := Lexer.exists_isLexeme c rest
    rw [hahead, htext]
    exact List.suffix_append _ _
  have hmoved : s.nextToken = (.ok (Lexer.next c rest).1,
      s.skipBlanks.moved (s.skipBlanks.ahead.length - (Lexer.next c rest).2.length)) := by
    rw [nextToken, hahead]
    rfl
  have hlen := position_add_length_ahead hpos
  have hlt := position_lt_length hahead
  have hle := hsuffix.length_le
  refine ⟨_, hmoved, rfl, ?_, ahead_moved hpos hsuffix, ?_⟩
  · show 0 ≤ s.skipBlanks.position + (s.skipBlanks.ahead.length - (Lexer.next c rest).2.length)
    omega
  · show s.skipBlanks.position + (s.skipBlanks.ahead.length - (Lexer.next c rest).2.length)
      ≤ s.skipBlanks.length
    omega

/-- **A scanner at or after the start takes the tokens of the text ahead**, and ends at its end. -/
theorem tokens_eq (h : 0 ≤ s.position) :
    s.tokens = (.ok (Lexer.tokens s.ahead), { s with position := max s.position s.length }) := by
  fun_induction Scanner.tokens s with
  | case1 s f s' hnext =>
    cases hskip : Lexer.skipBlanks s.ahead with
    | nil =>
      rw [nextToken_of_blanks h hskip] at hnext
      cases hnext
    | cons c rest =>
      obtain ⟨s'', hcons, -⟩ := nextToken_of_cons h hskip
      rw [hcons] at hnext
      cases hnext
  | case2 s t s' hnext ht =>
    cases hskip : Lexer.skipBlanks s.ahead with
    | nil =>
      rw [nextToken_of_blanks h hskip] at hnext
      obtain ⟨-, rfl⟩ := Prod.mk.inj hnext
      rw [Lexer.tokens_of_skipBlanks_nil hskip]
    | cons c rest =>
      obtain ⟨s'', hcons, -⟩ := nextToken_of_cons h hskip
      rw [hcons] at hnext
      obtain ⟨htoken, -⟩ := Prod.mk.inj hnext
      obtain rfl := Except.ok.inj htoken
      exact absurd ht (Lexer.kind_next_ne c rest)
  | case3 s t s' hnext ht ih =>
    cases hskip : Lexer.skipBlanks s.ahead with
    | nil =>
      rw [nextToken_of_blanks h hskip] at hnext
      obtain ⟨htoken, -⟩ := Prod.mk.inj hnext
      obtain rfl := Except.ok.inj htoken
      exact absurd rfl ht
    | cons c rest =>
      obtain ⟨s'', hcons, hsource, hpos, hahead, hle⟩ := nextToken_of_cons h hskip
      rw [hcons] at hnext
      obtain ⟨htoken, rfl⟩ := Prod.mk.inj hnext
      obtain rfl := Except.ok.inj htoken
      have hlength : s''.length = s.length := length_congr hsource
      obtain ⟨-, hlt, hlt'⟩ := lt_position_nextToken hcons ht
      rw [ih hpos, hahead, Lexer.tokens_of_skipBlanks_cons hskip, hlength,
        Int.max_eq_right hle, Int.max_eq_right (Int.le_of_lt hlt')]
      show _ = (_, { s with position := s.length })
      rw [← hsource]
      rfl

end Scanner

/-- A text is scanned from its start without a fault. -/
theorem scan_eq_tokenize (source : String) :
    ({ source := source.toList } : Scanner).tokens.1 = .ok (tokenize source) := by
  rw [Scanner.tokens_eq (Int.le_refl 0)]
  rfl

end WhileFrontend
