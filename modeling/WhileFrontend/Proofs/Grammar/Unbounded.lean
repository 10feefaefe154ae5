import WhileFrontend.Proofs.Grammar.Shape

/-!
# Phrases without a bound on nesting

`IsSentence` says of a token list that it is a program, however deeply it is nested. `IsArith`,
`IsComparison`, `IsCond` and `IsStmt` say the same of the other phrases. They are closed under the
rules of the grammar: where a rule joins two phrases, the larger of their bounds serves both.
-/

namespace WhileFrontend

/-- The token list is an arithmetic expression of a sort and has the tree. -/
def IsArith (s : ArithSort) (ts : List Token) (e : Arith) : Prop :=
  ∃ d, DerivesArith d s ts e

namespace IsArith

variable {ts us : List Token} {t : Token} {l r e : Arith}

theorem number (n : Nat) : IsArith .operand [.number n] (.const n) :=
  ⟨0, .const rfl rfl⟩

theorem group {opening closing : Token} (openKind : opening.kind = .symbol .lparen)
    (inside : IsArith .sum ts e) (closeKind : closing.kind = .symbol .rparen) :
    IsArith .operand (opening :: (ts ++ [closing])) e := by
  obtain ⟨d, inside⟩ := inside
  exact ⟨d + 3, .group openKind inside closeKind⟩

theorem operand (h : IsArith .operand ts e) : IsArith .product ts e := by
  obtain ⟨d, h⟩ := h
  exact ⟨d, .operand h⟩

theorem product {op : ArithOp} (left : IsArith .product ts l)
    (kind : t.kind.multiplicative? = some op) (right : IsArith .operand us r) :
    IsArith .product (ts ++ t :: us) (.binary op l r) := by
  obtain ⟨d, left⟩ := left
  obtain ⟨d', right⟩ := right
  exact ⟨max d d', .product (left.mono (Nat.le_max_left d d')) kind
    (right.mono (Nat.le_max_right d d'))⟩

theorem single (h : IsArith .product ts e) : IsArith .sum ts e := by
  obtain ⟨d, h⟩ := h
  exact ⟨d, .single h⟩

theorem sum {op : ArithOp} (left : IsArith .sum ts l) (kind : t.kind.additive? = some op)
    (right : IsArith .product us r) : IsArith .sum (ts ++ t :: us) (.binary op l r) := by
  obtain ⟨d, left⟩ := left
  obtain ⟨d', right⟩ := right
  exact ⟨max d d', .sum (left.mono (Nat.le_max_left d d')) kind
    (right.mono (Nat.le_max_right d d'))⟩

end IsArith

/-- The token list is a comparison and has the tree. -/
def IsComparison (ts : List Token) (c : Cond) : Prop :=
  ∃ d, DerivesComparison d ts c

namespace IsComparison

variable {ts us : List Token} {c : Cond}

theorem compare {t : Token} {op : RelOp} {l r : Arith} (left : IsArith .sum ts l)
    (kind : t.kind.relational? = some op) (right : IsArith .sum us r) :
    IsComparison (ts ++ t :: us) (.compare op l r) := by
  obtain ⟨d, left⟩ := left
  obtain ⟨d', right⟩ := right
  exact ⟨max d d', .compare (left.mono (Nat.le_max_left d d')) kind
    (right.mono (Nat.le_max_right d d'))⟩

theorem first (h : IsComparison ts c) : ∃ t us, ts = t :: us ∧ t.kind.startsArith = true := by
  obtain ⟨_, h⟩ := h
  exact h.first

end IsComparison

/-- The token list is a condition of a sort and has the tree. -/
def IsCond (s : CondSort) (ts : List Token) (c : Cond) : Prop :=
  ∃ d, DerivesCond d s ts c

namespace IsCond

variable {ts us : List Token} {t : Token} {l r c : Cond}

theorem truth (kind : t.kind = .keyword .trueKw) : IsCond .conjunct [t] (.truth true) :=
  ⟨0, .truth kind⟩

theorem negation (kind : t.kind = .keyword .notKw) (operand : IsCond .conjunct ts c) :
    IsCond .conjunct (t :: ts) (.negation c) := by
  obtain ⟨d, operand⟩ := operand
  exact ⟨d + 1, .negation kind operand⟩

theorem group {opening closing : Token} (openKind : opening.kind = .symbol .lparen)
    (inside : IsCond .disjunction ts c) (closeKind : closing.kind = .symbol .rparen) :
    IsCond .conjunct (opening :: (ts ++ [closing])) c := by
  obtain ⟨d, inside⟩ := inside
  exact ⟨d + 3, .group openKind inside closeKind⟩

theorem comparison (h : IsComparison (t :: ts) c) (kind : t.kind ≠ .symbol .lparen) :
    IsCond .conjunct (t :: ts) c := by
  obtain ⟨d, h⟩ := h
  exact ⟨d, .comparison h kind⟩

theorem conjunct (h : IsCond .conjunct ts c) : IsCond .conjunction ts c := by
  obtain ⟨d, h⟩ := h
  exact ⟨d, .conjunct h⟩

theorem conjunction {op : BoolOp} (left : IsCond .conjunction ts l)
    (kind : t.kind.conjunctive? = some op) (right : IsCond .conjunct us r) :
    IsCond .conjunction (ts ++ t :: us) (.binary op l r) := by
  obtain ⟨d, left⟩ := left
  obtain ⟨d', right⟩ := right
  exact ⟨max d d', .conjunction (left.mono (Nat.le_max_left d d')) kind
    (right.mono (Nat.le_max_right d d'))⟩

theorem single (h : IsCond .conjunction ts c) : IsCond .disjunction ts c := by
  obtain ⟨d, h⟩ := h
  exact ⟨d, .single h⟩

theorem disjunction {op : BoolOp} (left : IsCond .disjunction ts l)
    (kind : t.kind.disjunctive? = some op) (right : IsCond .conjunction us r) :
    IsCond .disjunction (ts ++ t :: us) (.binary op l r) := by
  obtain ⟨d, left⟩ := left
  obtain ⟨d', right⟩ := right
  exact ⟨max d d', .disjunction (left.mono (Nat.le_max_left d d')) kind
    (right.mono (Nat.le_max_right d d'))⟩

end IsCond

/-- The token list is a statement and has the tree. -/
def IsStmt (ts : List Token) (s : Stmt) : Prop :=
  ∃ d, DerivesStmt d ts s

namespace IsStmt

variable {ts us vs : List Token} {c : Cond} {p q : Program}

theorem assign {target t semicolon : Token} {x : String} {e : Arith}
    (targetKind : target.kind = .ident) (value : target.text? = some x)
    (kind : t.kind = .symbol .assign) (expr : IsArith .sum ts e)
    (endKind : semicolon.kind = .symbol .semicolon) :
    IsStmt (target :: t :: (ts ++ [semicolon])) (.assign x e) := by
  obtain ⟨d, expr⟩ := expr
  exact ⟨d, .assign targetKind value kind expr endKind⟩

theorem skip {t semicolon : Token} (kind : t.kind = .keyword .skipKw)
    (endKind : semicolon.kind = .symbol .semicolon) : IsStmt [t, semicolon] .skip :=
  ⟨0, .skip kind endKind⟩

theorem whileDo {whileT doT doneT : Token} (whileKind : whileT.kind = .keyword .whileKw)
    (cond : IsCond .disjunction ts c) (doKind : doT.kind = .keyword .doKw)
    (inside : IsSentence us p) (doneKind : doneT.kind = .keyword .doneKw) :
    IsStmt (whileT :: (ts ++ doT :: (us ++ [doneT]))) (.whileDo c p) := by
  obtain ⟨d, cond⟩ := cond
  obtain ⟨d', inside⟩ := inside
  exact ⟨max d d' + 3, .whileDo whileKind (cond.mono (Nat.le_max_left d d')) doKind
    (inside.mono (Nat.le_max_right d d')) doneKind⟩

theorem ifThen {ifT thenT fiT : Token} (ifKind : ifT.kind = .keyword .ifKw)
    (cond : IsCond .disjunction ts c) (thenKind : thenT.kind = .keyword .thenKw)
    (thenBranch : IsSentence us p) (fiKind : fiT.kind = .keyword .fiKw) :
    IsStmt (ifT :: (ts ++ thenT :: (us ++ [fiT]))) (.ifThen c p) := by
  obtain ⟨d, cond⟩ := cond
  obtain ⟨d', thenBranch⟩ := thenBranch
  exact ⟨max d d' + 3, .ifThen ifKind (cond.mono (Nat.le_max_left d d')) thenKind
    (thenBranch.mono (Nat.le_max_right d d')) fiKind⟩

theorem ifElse {ifT thenT elseT fiT : Token} (ifKind : ifT.kind = .keyword .ifKw)
    (cond : IsCond .disjunction ts c) (thenKind : thenT.kind = .keyword .thenKw)
    (thenBranch : IsSentence us p) (elseKind : elseT.kind = .keyword .elseKw)
    (elseBranch : IsSentence vs q) (fiKind : fiT.kind = .keyword .fiKw) :
    IsStmt (ifT :: (ts ++ thenT :: (us ++ elseT :: (vs ++ [fiT])))) (.ifElse c p q) := by
  obtain ⟨d₁, cond⟩ := cond
  obtain ⟨d₂, thenBranch⟩ := thenBranch
  obtain ⟨d₃, elseBranch⟩ := elseBranch
  have h₁ : d₁ ≤ max d₁ (max d₂ d₃) := by omega
  have h₂ : d₂ ≤ max d₁ (max d₂ d₃) := by omega
  have h₃ : d₃ ≤ max d₁ (max d₂ d₃) := by omega
  exact ⟨max d₁ (max d₂ d₃) + 3, .ifElse ifKind (cond.mono h₁) thenKind (thenBranch.mono h₂)
    elseKind (elseBranch.mono h₃) fiKind⟩

end IsStmt

namespace IsSentence

variable {ts us : List Token} {s : Stmt} {p : Program}

theorem last (h : IsStmt ts s) : IsSentence ts (.last s) := by
  obtain ⟨d, h⟩ := h
  exact ⟨d, .last h⟩

theorem seq (first : IsStmt ts s) (rest : IsSentence us p) : IsSentence (ts ++ us) (.seq s p) := by
  obtain ⟨d, first⟩ := first
  obtain ⟨d', rest⟩ := rest
  exact ⟨max d d', .seq (first.mono (Nat.le_max_left d d')) (rest.mono (Nat.le_max_right d d'))⟩

end IsSentence

end WhileFrontend
