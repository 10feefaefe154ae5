import WhileFrontend.Proofs.Parsing.Limit
import WhileFrontend.Proofs.Parsing.Refusal
import WhileFrontend.Proofs.Tree.Kinds

/-!
# Redundant parentheses

An expression in parentheses is one of the same sort, with the same tree (`IsPhrase.inParentheses`),
so a pair of parentheses around a part of a program leaves the program what it is, as long as the
part may be exchanged where it stands (`Span.inParentheses`). It may, unless a comparison starts
with it, since a conjunct that starts with a parenthesis is a condition in parentheses. What is
closed behind an arithmetic expression is none, so the parser gives up there (`refuses_conjunct`),
and it does so wherever the comparison stands in the program.
-/

namespace WhileFrontend

namespace Nonterminal

variable {nt nt' : Nonterminal} {n n' : Node} {us ts pre post : List Token}

/-! ## A pair of parentheses more -/

/-- An arithmetic expression of any sort is one of the loosest binding. -/
theorem IsPhrase.arith (h : nt.IsPhrase us n) (hnt : nt.isArith = true) :
    Nonterminal.arith.IsPhrase us n := by
  cases nt with
  | arith => exact h
  | summand => exact Chains.sum.isPhrase_operand h
  | factor => exact Chains.sum.isPhrase_operand (Chains.product.isPhrase_operand h)
  | _ => cases hnt

/-- An expression in parentheses is one of the same sort, with the same node. -/
theorem IsPhrase.inParentheses {opening closing : Token} (h : nt.IsPhrase us n)
    (hnt : nt.isArith = true ∨ nt.isCond = true) (hcomparison : nt ≠ .comparison)
    (openKind : opening.kind = .symbol .lparen) (closeKind : closing.kind = .symbol .rparen) :
    nt.IsPhrase (opening :: (us ++ [closing])) n := by
  have hfactor : nt.isArith = true → factor.IsPhrase (opening :: (us ++ [closing])) n :=
    fun harith => Groups.arith.isPhrase openKind (h.arith harith) closeKind
  have hconjunct : cond.IsPhrase us n → conjunct.IsPhrase (opening :: (us ++ [closing])) n :=
    fun hcond => Groups.cond.isPhrase openKind hcond closeKind
  cases nt with
  | arith => exact Chains.sum.isPhrase_operand (Chains.product.isPhrase_operand (hfactor rfl))
  | summand => exact Chains.product.isPhrase_operand (hfactor rfl)
  | factor => exact hfactor rfl
  | cond =>
    exact Chains.disjunction.isPhrase_operand (Chains.conjunction.isPhrase_operand (hconjunct h))
  | disjunct =>
    exact Chains.conjunction.isPhrase_operand (hconjunct (Chains.disjunction.isPhrase_operand h))
  | conjunct =>
    exact hconjunct
      (Chains.disjunction.isPhrase_operand (Chains.conjunction.isPhrase_operand h))
  | comparison => exact absurd rfl hcomparison
  | _ => simp [Nonterminal.isArith, Nonterminal.isCond] at hnt

/-- The part is arithmetic and begins where a comparison inside the phrase does, so it begins with
the left operand of that comparison. -/
def LeadsComparison (nt : Nonterminal) (n : Node) (pre us post : List Token) (nt' : Nonterminal) :
    Prop :=
  nt'.isArith = true ∧ ∃ m post₁ post₂, post = post₁ ++ post₂ ∧
    Span nt n pre (us ++ post₁) post₂ .comparison m

theorem frontKind_append (hne : pre ≠ []) (us vs : List Token) :
    frontKind (pre ++ us) = frontKind (pre ++ vs) := by
  cases pre with
  | nil => exact absurd rfl hne
  | cons t pre => rfl

/-- With a part in parentheses the phrase stays one, with the same node, unless the part leads a
comparison. -/
theorem Span.inParentheses {opening closing : Token} (span : Span nt n pre us post nt' n')
    (hnt : nt'.isArith = true ∨ nt'.isCond = true) (hcomparison : nt' ≠ .comparison)
    (openKind : opening.kind = .symbol .lparen) (closeKind : closing.kind = .symbol .rparen) :
    nt.IsPhrase (pre ++ (opening :: (us ++ [closing]) ++ post)) n ∨
      LeadsComparison nt n pre us post nt' := by
  induction span with
  | whole h => exact .inl (by simpa using h.inParentheses hnt hcomparison openKind closeKind)
  | @inside nt nt₁ nt₂ n n₁ n₂ pre post pre' us post' part span ih =>
    rcases ih hnt hcomparison with hphrase | ⟨harith, m, post₁, post₂, rfl, hspan⟩
    · by_cases hlead : nt₁ = .comparison ∧ pre' = []
      · obtain ⟨rfl, rfl⟩ := hlead
        have hwhole := span.isPhrase.1
        refine .inr ⟨span.of_comparison.resolve_left hcomparison, n₁, post', post, rfl, ?_⟩
        have hspan : Span .comparison n₁ [] (us ++ post') [] .comparison n₁ := .whole hwhole
        have hpart : Part nt n pre ([] ++ ((us ++ post') ++ [])) post .comparison n₁ := by
          simpa using part
        exact .inside hpart hspan
      · refine .inl ?_
        have hfront : nt₁ = .comparison →
            frontKind (pre' ++ (opening :: (us ++ [closing]) ++ post')) ≠ .symbol .lparen := by
          intro hc
          rw [frontKind_append (fun hpre => hlead ⟨hc, hpre⟩) _ (us ++ post')]
          exact part.front hc
        simpa using part.replace hphrase hfront
    · refine .inr ⟨harith, m, post₁, post₂ ++ post, by simp, ?_⟩
      have hpart : Part nt n pre (pre' ++ ((us ++ post₁) ++ post₂)) post nt₁ n₁ := by
        simpa using part
      exact .inside hpart hspan

end Nonterminal

/-! ## Parsing within and beyond the limit -/

section limit

variable {ts : List Token}

theorem parseTokens_of_isSentence {p : Program} (h : IsSentence (beforeEnd ts) p)
    (hbudget : (Phrase.program nestingLimit ts).InBudget) : parseTokens ts = .ok p := by
  obtain ⟨d, h⟩ := h
  obtain ⟨rest, hts, hend⟩ := exists_beforeEnd_append ts
  have hread : (Phrase.program d).Reads (beforeEnd ts) p rest :=
    Phrase.reads_program h (by rw [hend]; rfl)
  rw [Phrase.Reads, ← hts] at hread
  have hdrop : ts.drop (beforeEnd ts).length = rest := by
    have hdrop := congrArg (List.drop (beforeEnd ts).length) hts
    rwa [List.drop_left] at hdrop
  have hbudget' : (Phrase.program d ts).InBudget := by
    rw [hread]
    trivial
  have heq := Phrase.program_eq_of_inBudget hbudget hbudget'
  rw [parseTokens, Phrase.wholeProgram_congr heq, Phrase.wholeProgram_apply]
  simp only [hread, hdrop, hend, if_true]

theorem parseTokens_of_refuses {f : ParseFault} (h : Nonterminal.program.Refuses f ts)
    (hf : f ≠ .tooDeep) (hbudget : (Phrase.program nestingLimit ts).InBudget) :
    parseTokens ts = .error f := by
  obtain ⟨d, h⟩ := h.exists
  obtain ⟨n, hn⟩ := Phrase.fails_map.mp h
  have hbudget' : (Phrase.program d ts).InBudget := by
    rw [hn]
    exact hf
  have heq := Phrase.program_eq_of_inBudget hbudget hbudget'
  rw [parseTokens, Phrase.wholeProgram_congr heq, Phrase.wholeProgram_apply, hn]
  cases f with
  | tooDeep => exact absurd rfl hf
  | _ => rfl

theorem parseTokens_of_not_inBudget (h : ¬ (Phrase.program nestingLimit ts).InBudget) :
    parseTokens ts = .error .programTooDeep ∧ ∃ i, nestingLimit < costAt ts i := by
  constructor
  · obtain ⟨n, hn⟩ := Outcome.exists_of_not_inBudget h
    rw [parseTokens, Phrase.wholeProgram_of_tooDeep hn]
  · by_contra hcost
    exact h (Phrase.inBudget_of_costAt fun i => Nat.not_lt.mp fun hi => hcost ⟨i, hi⟩)

end limit

namespace Nonterminal

/-- Every expression that is part of a program is so as something else than a comparison. -/
theorem Span.exists_ne_comparison {nt nt' : Nonterminal} {n n' : Node} {pre us post : List Token}
    (span : Span nt n pre us post nt' n') (hnt : nt ≠ .comparison)
    (hnt' : nt'.isArith = true ∨ nt'.isCond = true) :
    ∃ c, Span nt n pre us post c n' ∧ c ≠ .comparison ∧ c.isArith = nt'.isArith ∧
      (c.isArith = true ∨ c.isCond = true) := by
  by_cases hc : nt' = .comparison
  · subst hc
    exact ⟨.conjunct, (span.conjunct_of_comparison hnt).1, Nonterminal.noConfusion, rfl, .inr rfl⟩
  · exact ⟨nt', span, hc, rfl, hnt'⟩

end Nonterminal

section parentheses

variable {pre us post : List Token} {p : Program} {nt : Nonterminal} {n : Node}

/-- What stands before the first end marker, with a pair of parentheses more. -/
theorem beforeEnd_parentheses
    (span : Nonterminal.Span .program p.toNode pre us (beforeEnd post) nt n) :
    beforeEnd (pre ++ .symbol .lparen :: (us ++ .symbol .rparen :: post))
      = pre ++ (.symbol .lparen :: (us ++ [.symbol .rparen]) ++ beforeEnd post) := by
  obtain ⟨d, q, hq, -⟩ := span.isPhrase.1
  have hnoEnd := hq.noEnd
  simp only [NoEnd.append_iff] at hnoEnd
  obtain ⟨hpre, hus, hpost⟩ := hnoEnd
  obtain ⟨rest, hrest, hend⟩ := exists_beforeEnd_append post
  have htext : pre ++ .symbol .lparen :: (us ++ .symbol .rparen :: post)
      = (pre ++ (.symbol .lparen :: (us ++ [.symbol .rparen]) ++ beforeEnd post)) ++ rest := by
    rw [hrest, beforeEnd_append hpost hend]
    simp
  rw [htext, beforeEnd_append _ hend]
  have hlparen : (Token.symbol .lparen).kind ≠ .eof := Kind.noConfusion
  have hrparen : (Token.symbol .rparen).kind ≠ .eof := Kind.noConfusion
  simp [hpre, hus, hpost, hlparen, hrparen]

/-- A program stays one, and the same, where the span does not lead a comparison. -/
theorem isSentence_parentheses
    (span : Nonterminal.Span .program p.toNode pre us (beforeEnd post) nt n)
    (hnt : nt.isArith = true ∨ nt.isCond = true)
    (hlead : ¬ Nonterminal.LeadsComparison .program p.toNode pre us (beforeEnd post) nt) :
    IsSentence (beforeEnd (pre ++ .symbol .lparen :: (us ++ .symbol .rparen :: post))) p := by
  obtain ⟨c, hspan, hc, harith, hsort⟩ := span.exists_ne_comparison Nonterminal.noConfusion hnt
  rw [beforeEnd_parentheses span]
  have openKind : (Token.symbol .lparen).kind = .symbol .lparen := rfl
  have closeKind : (Token.symbol .rparen).kind = .symbol .rparen := rfl
  rcases hspan.inParentheses hsort hc openKind closeKind with hphrase | ⟨hc, hleads⟩
  · obtain ⟨d, q, hq, hnode⟩ := hphrase
    obtain rfl := Program.toNode_injective hnode
    exact ⟨d, hq⟩
  · exact absurd ⟨harith ▸ hc, hleads⟩ hlead

/-- Where the span leads a comparison, it is closed before the comparison has come. -/
theorem refuses_parentheses
    (span : Nonterminal.Span .program p.toNode pre us (beforeEnd post) nt n)
    (hlead : Nonterminal.LeadsComparison .program p.toNode pre us (beforeEnd post) nt) :
    Nonterminal.program.Refuses (.noComparison (.symbol .rparen))
      (pre ++ .symbol .lparen :: (us ++ .symbol .rparen :: post)) := by
  obtain ⟨harith, m, post₁, post₂, -, hspan⟩ := hlead
  obtain ⟨hconjunct, hfront⟩ := hspan.conjunct_of_comparison Nonterminal.noConfusion
  have hus := span.isPhrase.2.arith harith
  have hfront : frontKind us ≠ .symbol .lparen := by
    obtain ⟨d, e, he, -⟩ := hus
    obtain ⟨t, us, rfl, -⟩ := he.first
    exact hfront
  exact hconjunct.refuses (fun _ => ParseFault.noConfusion)
    (Nonterminal.refuses_conjunct rfl hus hfront rfl)

/--
**Redundant parentheses leave no trace, with one exception.** Let a token list be parsed to a
program, and let a span of its tokens form an arithmetic or boolean expression of the program. With
a pair of parentheses around the span, the list is parsed to the same program, as long as its
nesting stays within the limit. The exception is an arithmetic span that starts where a comparison
starts: then the parser refuses the list with a report, which is on the closing parenthesis as long
as the nesting stays within the limit.
-/
theorem parseTokens_parentheses (h : parseTokens (pre ++ (us ++ post)) = .ok p)
    (span : Nonterminal.Span .program p.toNode pre us (beforeEnd post) nt n)
    (hnt : nt.isArith = true ∨ nt.isCond = true) :
    let ts := pre ++ .symbol .lparen :: (us ++ .symbol .rparen :: post)
    (¬ Nonterminal.LeadsComparison .program p.toNode pre us (beforeEnd post) nt →
      parseTokens ts = parseTokens (pre ++ (us ++ post)) ∨
        parseTokens ts = .error .programTooDeep ∧ ∃ i, nestingLimit < costAt ts i) ∧
    (Nonterminal.LeadsComparison .program p.toNode pre us (beforeEnd post) nt →
      ∃ f text, parseTokens ts = .error f ∧ f.report = .ok text ∧
        (f = .noComparison (.symbol .rparen) ∨
          f = .programTooDeep ∧ ∃ i, nestingLimit < costAt ts i)) := by
  intro ts
  rw [h]
  constructor
  · intro hlead
    have hsentence := isSentence_parentheses span hnt hlead
    by_cases hbudget : (Phrase.program nestingLimit ts).InBudget
    · exact .inl (parseTokens_of_isSentence hsentence hbudget)
    · exact .inr (parseTokens_of_not_inBudget hbudget)
  · intro hlead
    have hrefuses := refuses_parentheses span hlead
    by_cases hbudget : (Phrase.program nestingLimit ts).InBudget
    · exact ⟨_, _, parseTokens_of_refuses hrefuses ParseFault.noConfusion hbudget, rfl, .inl rfl⟩
    · obtain ⟨hparsed, hcost⟩ := parseTokens_of_not_inBudget hbudget
      exact ⟨_, _, hparsed, rfl, .inr ⟨rfl, hcost⟩⟩

end parentheses

/-- In front of a loop's body: a comparison in parentheses, and its left operand in parentheses. -/
theorem parseTokens_parentheses_loop :
    let pre : List Token := [.keyword .whileKw]
    let x : List Token := [.ident ['x']]
    let rest : List Token := [.symbol .lt, .number 1]
    let post : List Token :=
      [.keyword .doKw, .keyword .skipKw, .symbol .semicolon, .keyword .doneKw]
    let p : Program := .last (.whileDo (.compare .lt (.var "x") (.const 1)) (.last .skip))
    parseTokens (pre ++ ((x ++ rest) ++ post)) = .ok p ∧
    Nonterminal.Span .program p.toNode pre (x ++ rest) (beforeEnd post) .comparison
      (.compare .lt (.var "x") (.const 1)) ∧
    Nonterminal.Span .program p.toNode pre x (beforeEnd (rest ++ post)) .arith (.var "x") ∧
    parseTokens (pre ++ .symbol .lparen :: ((x ++ rest) ++ .symbol .rparen :: post)) = .ok p ∧
    ∃ f text, parseTokens (pre ++ .symbol .lparen :: (x ++ .symbol .rparen :: (rest ++ post)))
      = .error f ∧ f.report = .ok text := by
  intro pre x rest post p
  have hp : parseTokens (pre ++ ((x ++ rest) ++ post)) = .ok p := by
    have hcompare : DerivesComparison 0 (x ++ rest) (.compare .lt (.var "x") (.const 1)) :=
      .compare (.single (.operand (.var rfl rfl))) rfl (.single (.operand (.const rfl rfl)))
    have hcond : DerivesCond 0 .disjunction (x ++ rest) (.compare .lt (.var "x") (.const 1)) :=
      .single (.conjunct (.comparison hcompare Kind.noConfusion))
    have hloop : DerivesProgram 3 (beforeEnd (pre ++ ((x ++ rest) ++ post))) p :=
      .last (.whileDo rfl hcond rfl (.last (.skip rfl rfl)) rfl)
    exact parseTokens_eq_ok_iff.mpr (hloop.mono (by decide))
  have hx : Nonterminal.arith.IsPhrase x (.var "x") :=
    ⟨0, _, .single (.operand (.var rfl rfl)), rfl⟩
  have hone : Nonterminal.arith.IsPhrase [.number 1] (.const 1) :=
    ⟨0, _, .single (.operand (.const rfl rfl)), rfl⟩
  have hbody : Nonterminal.program.IsPhrase [.keyword .skipKw, .symbol .semicolon]
      (.program (.last .skip)) :=
    ⟨0, .last .skip, .last (.skip rfl rfl), by rw [Program.toNode, Program.toNodes, Stmt.toNode]⟩
  have hcomparison : Nonterminal.comparison.IsPhrase (x ++ rest)
      (.compare .lt (.var "x") (.const 1)) :=
    Nonterminal.isPhrase_comparison hx rfl hone
  have hfront : frontKind (x ++ rest) ≠ .symbol .lparen := Kind.noConfusion
  have hnode : p.toNode = .program (.last (.whileDo (.compare .lt (.var "x") (.const 1))
      (.program (.last .skip)))) := by
    simp only [p, Program.toNode, Program.toNodes, Stmt.toNode]
    rfl
  have hspan : Nonterminal.Span .program p.toNode pre (x ++ rest) (beforeEnd post) .comparison
      (.compare .lt (.var "x") (.const 1)) := by
    rw [hnode]
    exact .inside .last (.inside (.whileCond rfl rfl hbody rfl) (.inside (.operand .disjunction)
      (.inside (.operand .conjunction) (.inside (.comparison hfront) (.whole hcomparison)))))
  have hspan' : Nonterminal.Span .program p.toNode pre x (beforeEnd (rest ++ post)) .arith
      (.var "x") := by
    rw [hnode]
    exact .inside .last (.inside (.whileCond rfl rfl hbody rfl) (.inside (.operand .disjunction)
      (.inside (.operand .conjunction) (.inside (.comparison hfront)
        (.inside (.compareLeft rfl hone) (.whole hx))))))
  have hcost : ¬ ∃ i, nestingLimit
      < costAt (pre ++ .symbol .lparen :: ((x ++ rest) ++ .symbol .rparen :: post)) i :=
    fun ⟨i, hi⟩ => Nat.not_le.mpr hi (Nat.le_trans (costAt_le _ i) (by decide))
  have hparsed := ((parseTokens_parentheses hp hspan (.inr rfl)).1
    fun hlead => absurd hlead.1 Bool.false_ne_true).resolve_right fun h => hcost h.2
  have hp' : parseTokens (pre ++ (x ++ (rest ++ post))) = .ok p := hp
  obtain ⟨f, text, hf, htext, -⟩ := (parseTokens_parentheses hp' hspan' (.inl rfl)).2
    ⟨rfl, _, rest, post, rfl, hspan⟩
  exact ⟨hp, hspan, hspan', hparsed.trans hp, f, text, hf, htext⟩

end WhileFrontend
