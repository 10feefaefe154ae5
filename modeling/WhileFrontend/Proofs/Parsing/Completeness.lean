import WhileFrontend.Proofs.Grammar.Shape
import WhileFrontend.Proofs.Parsing.Choice

/-!
# What is derived is parsed

A phrase that the grammar derives within a bound on nesting is read, with its tree, by the parser's
phrase with that budget (`reads_arith`, `reads_cond`, `reads_program`), whatever follows, as long as
it does not go on with what was read. For each sort the follow condition is the one that its loops
need: an operand and a statement end by themselves, a chain ends before a token that is none of its
operators.

The induction is on the derivation. A chain's derivation ends with its last operator while the loop
starts with its first operand, so for the chains the induction carries that the loop, having read
the derived tokens, is left with the derived tree (`ReadsArith`, `ReadsCond`).
-/

namespace WhileFrontend.Phrase

theorem nested_add {α : Type} (cost : Nat) (p : Nat → Phrase α) (d : Nat) :
    nested cost p (d + cost) = p d := by
  rw [nested, if_pos (Nat.le_add_left _ _), Nat.add_sub_cancel]

/-! ## Arithmetic expressions -/

theorem arith_eq_chain (d : Nat) : arith d = chain Kind.additive? .binary (summand d) :=
  arith_eq d

/-- What a derivation of each sort does to the phrase of that sort. -/
def ReadsArith (d : Nat) (us : List Token) (e : Arith) : ArithSort → Prop
  | .operand => ∀ rest, (factor d).Reads us e rest
  | .product => ∀ rest, summand d (us ++ rest)
      = (chainFrom Kind.multiplicative? .binary (factor d) e rest).after us.length
  | .sum => ∀ rest, (frontKind rest).multiplicative? = none → arith d (us ++ rest)
      = (chainFrom Kind.additive? .binary (summand d) e rest).after us.length

/-- A sum is read whole where no arithmetic operator follows. -/
theorem ReadsArith.reads {d : Nat} {us : List Token} {e : Arith} (h : ReadsArith d us e .sum)
    {rest : List Token} (hrest : (frontKind rest).EndsArith) : (arith d).Reads us e rest := by
  have hloop := h rest hrest.1
  rw [arith_eq_chain] at hloop ⊢
  exact reads_chain hloop hrest.2

theorem reads_group {us rest : List Token} {e : Arith} {d : Nat} {opening closing : Token}
    (openKind : opening.kind = .symbol .lparen) (inside : (arith d).Reads us e (closing :: rest))
    (closeKind : closing.kind = .symbol .rparen) :
    (factor (d + 3)).Reads (opening :: (us ++ [closing])) e rest := by
  refine (inside.closed closeKind).cons ?_
  rw [factor, nested_add, factorOf_cons, openKind]

theorem readsArith {d : Nat} {s : ArithSort} {us : List Token} {e : Arith}
    (h : DerivesArith d s us e) : ReadsArith d us e s := by
  induction h with
  | const kind value =>
    intro rest
    rw [Reads, factor, List.singleton_append, factorOf_cons]
    simp only [kind, value, List.length_singleton]
  | var kind value =>
    intro rest
    rw [Reads, factor, List.singleton_append, factorOf_cons]
    simp only [kind, value, List.length_singleton]
  | group openKind inside closeKind ih =>
    intro rest
    -- the parenthesis that closes the group ends the sum inside
    refine reads_group openKind (ih.reads ?_) closeKind
    rw [frontKind_cons, closeKind]
    exact ⟨rfl, rfl⟩
  | operand h ih =>
    intro rest
    exact chain_of_operand (ih rest)
  | product left kind right ihl ihr =>
    intro rest
    exact chain_of_chain (ihl _) kind (ihr rest)
  | single h ih =>
    intro rest hrest
    rw [arith_eq_chain]
    exact chain_of_operand (reads_chain (ih rest) hrest)
  | @sum d ts us t op l r left kind right ihl ihr =>
    intro rest hrest
    -- the additive operator is where the summand to its left has ended
    have hl := ihl (t :: (us ++ rest)) (Kind.multiplicative?_of_additive? kind)
    rw [arith_eq_chain] at hl ⊢
    exact chain_of_chain hl kind (reads_chain (ihr rest) hrest)

/-- A derived arithmetic expression is read where no arithmetic operator follows. -/
theorem reads_arith {d : Nat} {us rest : List Token} {e : Arith} (h : DerivesArith d .sum us e)
    (hrest : (frontKind rest).EndsArith) : (arith d).Reads us e rest :=
  (readsArith h).reads hrest

/-! ## Conditions -/

theorem conjunct_add_three (d : Nat) :
    conjunct (d + 3) = conjunctOf (arith (d + 3)) (cond d) (conjunct (d + 2)) := rfl

theorem conjunct_add_one (d : Nat) :
    conjunct (d + 1) = conjunctOf (arith (d + 1)) (nested 3 cond (d + 1)) (conjunct d) := by
  rw [conjunct_eq, nested_add]

/-- A comparison is read where no arithmetic operator follows. -/
theorem reads_comparison {d : Nat} {us rest : List Token} {c : Cond}
    (h : DerivesComparison d us c) (hrest : (frontKind rest).EndsArith) :
    (comparison d).Reads us c rest := by
  cases h with
  | @compare ts us t op l r left kind right =>
    have hl : (arith d).Reads ts l ((t :: us) ++ rest) :=
      reads_arith left (Kind.endsArith_of_relational? kind)
    refine hl.bind ?_
    refine ((reads_arith right hrest).return (Cond.compare op l)).cons ?_
    rw [peek_bind, List.headD_cons, kind]
    rfl

/-- A conjunct that starts with a number or a name is a comparison. -/
theorem conjunct_eq_comparison {d : Nat} {t : Token} {ts : List Token}
    (hstart : t.kind.startsArith = true) (hparen : t.kind ≠ .symbol .lparen) :
    conjunct d (t :: ts) = comparison d (t :: ts) := by
  rw [conjunct_eq, conjunctOf_cons]
  split
  · next hkind => exact absurd hkind hparen
  · next hkind => exact absurd hstart (by simp [hkind, Kind.startsArith])
  · next hkind => exact absurd hstart (by simp [hkind, Kind.startsArith])
  · next hkind => exact absurd hstart (by simp [hkind, Kind.startsArith])
  · rfl

/-- What a derivation of each sort does to the phrase of that sort, in front of what ends an
arithmetic expression. -/
def ReadsCond (d : Nat) (us : List Token) (c : Cond) : CondSort → Prop
  | .conjunct => ∀ rest, (frontKind rest).EndsArith → (conjunct d).Reads us c rest
  | .conjunction => ∀ rest, (frontKind rest).EndsArith → disjunct d (us ++ rest)
      = (chainFrom Kind.conjunctive? .binary (conjunct d) c rest).after us.length
  | .disjunction => ∀ rest, (frontKind rest).EndsArith → (frontKind rest).conjunctive? = none →
      cond d (us ++ rest)
        = (chainFrom Kind.disjunctive? .binary (disjunct d) c rest).after us.length

theorem ReadsCond.reads {d : Nat} {us : List Token} {c : Cond} (h : ReadsCond d us c .disjunction)
    {rest : List Token} (hrest : (frontKind rest).EndsCond) : (cond d).Reads us c rest :=
  reads_chain (h rest hrest.1 hrest.2.1) hrest.2.2

theorem readsCond {d : Nat} {s : CondSort} {us : List Token} {c : Cond}
    (h : DerivesCond d s us c) : ReadsCond d us c s := by
  induction h with
  | truth kind =>
    intro rest _
    rw [Reads, conjunct_eq, List.singleton_append, conjunctOf_cons]
    simp only [kind, List.length_singleton]
  | falsity kind =>
    intro rest _
    rw [Reads, conjunct_eq, List.singleton_append, conjunctOf_cons]
    simp only [kind, List.length_singleton]
  | negation kind operand ih =>
    intro rest hrest
    refine ((ih rest hrest).return Cond.negation).cons ?_
    rw [conjunct_add_one, conjunctOf_cons, kind]
  | @group d opening closing ts c openKind inside closeKind ih =>
    intro rest _
    have hin : (cond d).Reads ts c (closing :: rest) := by
      refine ih.reads ?_
      rw [frontKind_cons, closeKind]
      exact ⟨⟨rfl, rfl⟩, rfl, rfl⟩
    refine (hin.closed closeKind).cons ?_
    rw [conjunct_add_three, conjunctOf_cons, openKind]
  | comparison h kind =>
    intro rest hrest
    -- its first token opens no other alternative, so the parser's last one is taken
    obtain ⟨t, us, hts, hstart⟩ := h.first
    obtain ⟨rfl, rfl⟩ := List.cons.inj hts
    rw [Reads, List.cons_append, conjunct_eq_comparison hstart kind]
    exact reads_comparison h hrest
  | conjunct h ih =>
    intro rest hrest
    exact chain_of_operand (ih rest hrest)
  | conjunction left kind right ihl ihr =>
    intro rest hrest
    exact chain_of_chain (ihl _ (Kind.endsArith_of_conjunctive? kind)) kind (ihr rest hrest)
  | single h ih =>
    intro rest hrest hconj
    exact chain_of_operand (reads_chain (ih rest hrest) hconj)
  | disjunction left kind right ihl ihr =>
    intro rest hrest hconj
    obtain ⟨harith, hconj'⟩ := Kind.endsArith_of_disjunctive? kind
    exact chain_of_chain (ihl _ harith hconj') kind (reads_chain (ihr rest hrest) hconj)

/-- A derived condition is read where no operator follows. -/
theorem reads_cond {d : Nat} {us rest : List Token} {c : Cond}
    (h : DerivesCond d .disjunction us c) (hrest : (frontKind rest).EndsCond) :
    (cond d).Reads us c rest :=
  (readsCond h).reads hrest

/-! ## Statements -/

section statements

variable {cond : Phrase Cond} {program : Phrase Program} {ts us vs rest : List Token}

theorem reads_whileOf {whileT doT doneT : Token} {c : Cond} {body : Program}
    (whileKind : whileT.kind = .keyword .whileKw)
    (hcond : cond.Reads ts c (doT :: (us ++ [doneT] ++ rest)))
    (doKind : doT.kind = .keyword .doKw) (hbody : program.Reads us body (doneT :: rest))
    (doneKind : doneT.kind = .keyword .doneKw) :
    (whileOf cond program).Reads (whileT :: (ts ++ doT :: (us ++ [doneT]))) (.whileDo c body)
      rest := by
  refine reads_expect_bind whileKind ?_
  refine hcond.bind ?_
  refine reads_expect_bind doKind ?_
  refine hbody.bind ?_
  exact (reads_expect doneKind rest).return _

theorem reads_ifOf_then {ifT thenT fiT : Token} {c : Cond} {p : Program}
    (ifKind : ifT.kind = .keyword .ifKw)
    (hcond : cond.Reads ts c (thenT :: (us ++ [fiT] ++ rest)))
    (thenKind : thenT.kind = .keyword .thenKw) (hthen : program.Reads us p (fiT :: rest))
    (fiKind : fiT.kind = .keyword .fiKw) :
    (ifOf cond program).Reads (ifT :: (ts ++ thenT :: (us ++ [fiT]))) (.ifThen c p) rest := by
  refine reads_expect_bind ifKind ?_
  refine hcond.bind ?_
  refine reads_expect_bind thenKind ?_
  refine hthen.bind ?_
  rw [Reads, peek_bind, List.singleton_append, List.headD_cons, fiKind]
  exact (reads_expect fiKind rest).return _

theorem reads_ifOf_else {ifT thenT elseT fiT : Token} {c : Cond} {p q : Program}
    (ifKind : ifT.kind = .keyword .ifKw)
    (hcond : cond.Reads ts c (thenT :: (us ++ elseT :: (vs ++ [fiT]) ++ rest)))
    (thenKind : thenT.kind = .keyword .thenKw)
    (hthen : program.Reads us p (elseT :: (vs ++ [fiT] ++ rest)))
    (elseKind : elseT.kind = .keyword .elseKw) (helse : program.Reads vs q (fiT :: rest))
    (fiKind : fiT.kind = .keyword .fiKw) :
    (ifOf cond program).Reads (ifT :: (ts ++ thenT :: (us ++ elseT :: (vs ++ [fiT]))))
      (.ifElse c p q) rest := by
  refine reads_expect_bind ifKind ?_
  refine hcond.bind ?_
  refine reads_expect_bind thenKind ?_
  refine hthen.bind ?_
  have hq : (do let q ← program; let _ ← expect (.keyword .fiKw); return .ifElse c p q :
      Phrase Stmt).Reads (vs ++ [fiT]) (.ifElse c p q) rest := by
    refine helse.bind ?_
    exact (reads_expect fiKind rest).return _
  refine hq.cons ?_
  rw [peek_bind, List.headD_cons, if_pos elseKind, advance_bind_cons]

theorem reads_skip {t semicolon : Token} (kind : t.kind = .keyword .skipKw)
    (endKind : semicolon.kind = .symbol .semicolon) :
    skip.Reads [t, semicolon] .skip rest := by
  refine reads_expect_bind kind ?_
  exact (reads_expect endKind rest).return _

theorem reads_assignOf {arith : Phrase Arith} {target t semicolon : Token} {x : String} {e : Arith}
    (targetKind : target.kind = .ident) (value : target.text? = some x)
    (kind : t.kind = .symbol .assign) (hexpr : arith.Reads ts e (semicolon :: rest))
    (endKind : semicolon.kind = .symbol .semicolon) :
    (assignOf arith).Reads (target :: t :: (ts ++ [semicolon])) (.assign x e) rest := by
  refine reads_expect_bind targetKind ?_
  rw [value]
  refine reads_expect_bind kind ?_
  refine hexpr.bind ?_
  exact (reads_expect endKind rest).return _

end statements

theorem statement_add_three (d : Nat) :
    statement (d + 3) = statementOf (arith (d + 3)) (cond d) (program d) := rfl

theorem Program.ofStmts_stmts (s : Stmt) (p : Program) : Program.ofStmts s p.stmts = .seq s p :=
  Program.stmts_injective (by rw [Program.stmts_ofStmts, Program.stmts])

/-- The statement at the front is followed by the statements that are read after it. -/
theorem reads_programOf {statement : Phrase Stmt} {us vs rest : List Token} {s : Stmt}
    {ss : List Stmt} (hs : statement.Reads us s (vs ++ rest))
    (hss : (many Kind.startsStmt statement).Reads vs ss rest) :
    (programOf statement).Reads (us ++ vs) (.ofStmts s ss) rest := by
  refine hs.bind ?_
  exact hss.return _

mutual

/-- A derived statement is read whatever follows. -/
theorem reads_statement {d : Nat} {us : List Token} {s : Stmt} (h : DerivesStmt d us s)
    (rest : List Token) : (statement d).Reads us s rest := by
  match h with
  | .assign targetKind value kind expr endKind =>
    rw [Reads, statement_eq, List.cons_append, statementOf_cons, targetKind]
    simp only [List.cons_append, frontKind_cons, kind, if_true]
    refine reads_assignOf targetKind value kind (reads_arith expr ?_) endKind
    rw [frontKind_cons, endKind]
    exact ⟨rfl, rfl⟩
  | .skip kind endKind =>
    rw [Reads, statement_eq, List.cons_append, statementOf_cons, kind]
    exact reads_skip kind endKind
  | .whileDo whileKind cond doKind inside doneKind =>
    rw [Reads, statement_add_three, List.cons_append, statementOf_cons, whileKind]
    refine reads_whileOf whileKind (reads_cond cond ?_) doKind (reads_program inside ?_) doneKind
    · rw [frontKind_cons, doKind]
      exact ⟨⟨rfl, rfl⟩, rfl, rfl⟩
    · rw [frontKind_cons, doneKind]
      rfl
  | .ifThen ifKind cond thenKind thenBranch fiKind =>
    rw [Reads, statement_add_three, List.cons_append, statementOf_cons, ifKind]
    refine reads_ifOf_then ifKind (reads_cond cond ?_) thenKind (reads_program thenBranch ?_) fiKind
    · rw [frontKind_cons, thenKind]
      exact ⟨⟨rfl, rfl⟩, rfl, rfl⟩
    · rw [frontKind_cons, fiKind]
      rfl
  | .ifElse ifKind cond thenKind thenBranch elseKind elseBranch fiKind =>
    rw [Reads, statement_add_three, List.cons_append, statementOf_cons, ifKind]
    refine reads_ifOf_else ifKind (reads_cond cond ?_) thenKind (reads_program thenBranch ?_)
      elseKind (reads_program elseBranch ?_) fiKind
    · rw [frontKind_cons, thenKind]
      exact ⟨⟨rfl, rfl⟩, rfl, rfl⟩
    · rw [frontKind_cons, elseKind]
      rfl
    · rw [frontKind_cons, fiKind]
      rfl

/-- The statements of a derived program are read where no other may start. -/
theorem reads_many {d : Nat} {us rest : List Token} {p : Program} (h : DerivesProgram d us p)
    (hrest : (frontKind rest).startsStmt = false) :
    (many Kind.startsStmt (statement d)).Reads us p.stmts rest := by
  match h with
  | .last h =>
    obtain ⟨t, ts, rfl, ht⟩ := h.first
    exact many_cons ht (reads_statement h rest) (many_stop hrest)
  | @DerivesProgram.seq _ ts us s p first last =>
    obtain ⟨t, ts, rfl, ht⟩ := first.first
    have hrest' := many_cons ht (reads_statement first (us ++ rest)) (reads_many last hrest)
    rw [Reads, List.append_assoc, List.length_append]
    exact hrest'

/-- A derived program is read where no other statement may start. -/
theorem reads_program {d : Nat} {us rest : List Token} {p : Program} (h : DerivesProgram d us p)
    (hrest : (frontKind rest).startsStmt = false) : (program d).Reads us p rest := by
  match h with
  | .last h =>
    -- no statement follows the last, so the loop reads nothing
    rw [← List.append_nil us]
    have hend : (many Kind.startsStmt (statement d)).Reads [] [] rest := many_stop hrest
    exact reads_programOf (reads_statement h _) hend
  | .seq first last =>
    rw [← Program.ofStmts_stmts]
    exact reads_programOf (reads_statement first _) (reads_many last hrest)

end

end WhileFrontend.Phrase
