import WhileFrontend.Proofs.Parsing.Completeness
import WhileFrontend.Proofs.Parsing.Soundness

/-!
# The parser accepts exactly the grammar

What stands before the first end marker of a token list decides: it is parsed if and only if it is a
sentence whose nesting stays within the budget (`parseTokens_eq_ok_iff`), and the tree is the one
that the grammar gives it. Since a budget can always be chosen high enough for two derivations at
once, a token list has at most one tree, however deeply it is nested (`IsSentence.unique`).
-/

namespace WhileFrontend

/-- The tokens before the first end marker. -/
def beforeEnd (ts : List Token) : List Token :=
  ts.takeWhile fun t => t.kind ≠ .eof

theorem beforeEnd_append {us rest : List Token} (hus : NoEnd us) (hrest : frontKind rest = .eof) :
    beforeEnd (us ++ rest) = us := by
  have hnil : beforeEnd rest = [] := by
    cases rest with
    | nil => rfl
    | cons t rest => exact List.takeWhile_cons_of_neg (by simpa using hrest)
  rw [beforeEnd, List.takeWhile_append_of_pos (by simpa [NoEnd] using hus)]
  rw [beforeEnd] at hnil
  rw [hnil, List.append_nil]

theorem NoEnd.beforeEnd_eq {ts : List Token} (h : NoEnd ts) : beforeEnd ts = ts := by
  have happend := beforeEnd_append h frontKind_nil
  rwa [List.append_nil] at happend

/-- A token list goes on, after what stands before the first end marker, with that marker if at
all. -/
theorem exists_beforeEnd_append (ts : List Token) :
    ∃ rest, ts = beforeEnd ts ++ rest ∧ frontKind rest = .eof := by
  induction ts with
  | nil => exact ⟨[], rfl, rfl⟩
  | cons t ts ih =>
    by_cases ht : t.kind = .eof
    · refine ⟨t :: ts, ?_, ht⟩
      rw [beforeEnd, List.takeWhile_cons_of_neg (by simpa using ht), List.nil_append]
    · obtain ⟨rest, hts, hrest⟩ := ih
      refine ⟨rest, ?_, hrest⟩
      rw [beforeEnd, List.takeWhile_cons_of_pos (by simpa using ht), List.cons_append]
      exact congrArg (t :: ·) hts

namespace Phrase

theorem wholeProgram_apply (d : Nat) (ts : List Token) :
    wholeProgram d ts =
      match program d ts with
      | .ok p n =>
        if frontKind (ts.drop n) = .eof then .ok p n
        else .fail (.trailing ((ts.drop n).headD .eof)) n
      | .fail .tooDeep n => .fail .programTooDeep n
      | .fail f n => .fail f n := by
  rw [wholeProgram, bind_apply, outermost]
  cases program d ts with
  | ok p n =>
    simp only [peek_bind]
    by_cases h : frontKind (ts.drop n) = .eof
    · have hkind : ((ts.drop n).headD .eof).kind = .eof := h
      simp only [h, hkind, if_true]
      rfl
    · have hkind : ((ts.drop n).headD .eof).kind ≠ .eof := h
      simp only [h, hkind, if_false]
      rfl
  | fail f n => cases f <;> rfl

end Phrase

/-- The parser accepts what the grammar derives within its budget before the first end marker. -/
theorem parseTokens_eq_ok_iff {ts : List Token} {p : Program} :
    parseTokens ts = .ok p ↔ DerivesProgram nestingLimit (beforeEnd ts) p := by
  rw [parseTokens, Phrase.wholeProgram_apply]
  constructor
  · intro h
    cases hp : Phrase.program nestingLimit ts with
    | ok q n =>
      obtain ⟨us, rest, rfl, rfl, hq⟩ := Phrase.sound_program nestingLimit _ _ _ hp
      simp only [hp, List.drop_left] at h
      split at h
      · next heq =>
        split at heq
        · next hend =>
          obtain ⟨rfl, -⟩ := Outcome.ok.inj heq
          obtain rfl := Except.ok.inj h
          rwa [beforeEnd_append hq.noEnd hend]
        · cases heq
      · cases h
    | fail f n =>
      rw [hp] at h
      cases f <;> cases h
  · intro h
    obtain ⟨rest, hts, hend⟩ := exists_beforeEnd_append ts
    have hread : (Phrase.program nestingLimit).Reads (beforeEnd ts) p rest :=
      Phrase.reads_program h (by rw [hend]; rfl)
    rw [Phrase.Reads, ← hts] at hread
    have hdrop : ts.drop (beforeEnd ts).length = rest := by
      have := congrArg (List.drop (beforeEnd ts).length) hts
      rwa [List.drop_left] at this
    simp only [hread, hdrop, hend, if_true]

/-- A token list has at most one tree. -/
theorem IsSentence.unique {ts : List Token} {p q : Program} (hp : IsSentence ts p)
    (hq : IsSentence ts q) : p = q := by
  obtain ⟨d, hp⟩ := hp
  obtain ⟨d', hq⟩ := hq
  -- both derivations fit into the larger of the two budgets, where the parser reads one tree only
  have hp' : (Phrase.program (max d d')).Reads ts p [] :=
    Phrase.reads_program (hp.mono (Nat.le_max_left d d')) rfl
  have hq' : (Phrase.program (max d d')).Reads ts q [] :=
    Phrase.reads_program (hq.mono (Nat.le_max_right d d')) rfl
  rw [Phrase.Reads] at hp' hq'
  rw [hp'] at hq'
  exact (Outcome.ok.inj hq').1

/--
**The parser is exact.** What it accepts is a sentence before the first end marker, with the tree
given; a sentence is accepted with its tree if its nesting stays within the limit; what is no
sentence is refused; and no token list has two trees.
-/
theorem parseTokens_exact (ts : List Token) :
    (∀ p, parseTokens ts = .ok p → IsSentence (beforeEnd ts) p) ∧
    (∀ p d, DerivesProgram d (beforeEnd ts) p → d ≤ nestingLimit → parseTokens ts = .ok p) ∧
    ((∀ p, ¬ IsSentence (beforeEnd ts) p) → ∃ f, parseTokens ts = .error f) ∧
    (∀ p q, IsSentence (beforeEnd ts) p → IsSentence (beforeEnd ts) q → p = q) := by
  refine ⟨?_, ?_, ?_, ?_⟩
  · intro p h
    exact ⟨nestingLimit, parseTokens_eq_ok_iff.mp h⟩
  · intro p d h hd
    exact parseTokens_eq_ok_iff.mpr (h.mono hd)
  · intro hno
    cases h : parseTokens ts with
    | ok p => exact absurd ⟨nestingLimit, parseTokens_eq_ok_iff.mp h⟩ (hno p)
    | error f => exact ⟨f, rfl⟩
  · intro p q hp hq
    exact hp.unique hq

/-- A loop with a nested condition and a nested assignment is parsed up to the end marker, whatever
stands after that. -/
theorem parseTokens_exact_loop :
    DerivesProgram 7
      (beforeEnd [.keyword .whileKw, .keyword .notKw, .symbol .lparen, .keyword .trueKw,
        .symbol .rparen, .keyword .doKw, .ident ['x'], .symbol .assign, .symbol .lparen, .number 1,
        .symbol .rparen, .symbol .semicolon, .keyword .doneKw, .eof, .keyword .fiKw])
      (.last (.whileDo (.negation (.truth true)) (.last (.assign "x" (.const 1))))) ∧
    7 ≤ nestingLimit ∧
    parseTokens [.keyword .whileKw, .keyword .notKw, .symbol .lparen, .keyword .trueKw,
        .symbol .rparen, .keyword .doKw, .ident ['x'], .symbol .assign, .symbol .lparen, .number 1,
        .symbol .rparen, .symbol .semicolon, .keyword .doneKw, .eof, .keyword .fiKw]
      = .ok (.last (.whileDo (.negation (.truth true)) (.last (.assign "x" (.const 1))))) := by
  have hcond : DerivesCond 4 .disjunction
      [.keyword .notKw, .symbol .lparen, .keyword .trueKw, .symbol .rparen]
      (.negation (.truth true)) :=
    .single (.conjunct (.negation rfl (.group rfl (.single (.conjunct (.truth rfl))) rfl)))
  have hexpr : DerivesArith 4 .sum [.symbol .lparen, .number 1, .symbol .rparen] (.const 1) :=
    .single (.operand (.group rfl (.single (.operand (.const rfl rfl))) rfl))
  have hloop : DerivesProgram 7
      [.keyword .whileKw, .keyword .notKw, .symbol .lparen, .keyword .trueKw, .symbol .rparen,
        .keyword .doKw, .ident ['x'], .symbol .assign, .symbol .lparen, .number 1, .symbol .rparen,
        .symbol .semicolon, .keyword .doneKw]
      (.last (.whileDo (.negation (.truth true)) (.last (.assign "x" (.const 1))))) :=
    .last (.whileDo rfl hcond rfl (.last (.assign rfl rfl rfl hexpr rfl)) rfl)
  exact ⟨hloop, by decide, (parseTokens_exact _).2.1 _ 7 hloop (by decide)⟩

end WhileFrontend
