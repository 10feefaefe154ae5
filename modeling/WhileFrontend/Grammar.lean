import WhileFrontend.Parsing.Program

/-!
# The grammar as a relation

`DerivesArith`, `DerivesCond`, `DerivesStmt` and `DerivesProgram` say which token lists are phrases
of the language and what their trees are, without a strategy for reading them. Chains are given by
left recursion, so every chain nests to the left, and each sort of operand admits only operators
that bind more tightly. Of a token only the kind counts, and the value where a tree keeps it.

The number that each relation starts with bounds how deeply the phrase is nested: what stands inside
a parenthesis, a `while` or an `if` has a bound that is lower by three, and the operand of a `not`
one that is lower by one. `IsSentence` leaves the nesting open.
-/

namespace WhileFrontend

/-- The sorts of arithmetic expressions, the loosest binding first. -/
inductive ArithSort where
  | sum
  | product
  | operand
  deriving DecidableEq, Repr

/-- The token list is an arithmetic expression of a sort and has the tree. -/
inductive DerivesArith : Nat → ArithSort → List Token → Arith → Prop where
  | const {d : Nat} {t : Token} {n : Int} (kind : t.kind = .number) (value : t.int? = some n) :
    DerivesArith d .operand [t] (.const n)
  | var {d : Nat} {t : Token} {x : String} (kind : t.kind = .ident) (value : t.text? = some x) :
    DerivesArith d .operand [t] (.var x)
  | group {d : Nat} {opening closing : Token} {ts : List Token} {e : Arith}
    (openKind : opening.kind = .symbol .lparen) (inside : DerivesArith d .sum ts e)
    (closeKind : closing.kind = .symbol .rparen) :
    DerivesArith (d + 3) .operand (opening :: (ts ++ [closing])) e
  | operand {d : Nat} {ts : List Token} {e : Arith} (h : DerivesArith d .operand ts e) :
    DerivesArith d .product ts e
  | product {d : Nat} {ts us : List Token} {t : Token} {op : ArithOp} {l r : Arith}
    (left : DerivesArith d .product ts l) (kind : t.kind.multiplicative? = some op)
    (right : DerivesArith d .operand us r) :
    DerivesArith d .product (ts ++ t :: us) (.binary op l r)
  | single {d : Nat} {ts : List Token} {e : Arith} (h : DerivesArith d .product ts e) :
    DerivesArith d .sum ts e
  | sum {d : Nat} {ts us : List Token} {t : Token} {op : ArithOp} {l r : Arith}
    (left : DerivesArith d .sum ts l) (kind : t.kind.additive? = some op)
    (right : DerivesArith d .product us r) :
    DerivesArith d .sum (ts ++ t :: us) (.binary op l r)

/-- The token list is a comparison and has the tree. -/
inductive DerivesComparison : Nat → List Token → Cond → Prop where
  | compare {d : Nat} {ts us : List Token} {t : Token} {op : RelOp} {l r : Arith}
    (left : DerivesArith d .sum ts l) (kind : t.kind.relational? = some op)
    (right : DerivesArith d .sum us r) :
    DerivesComparison d (ts ++ t :: us) (.compare op l r)

/-- The sorts of conditions, the loosest binding first. -/
inductive CondSort where
  | disjunction
  | conjunction
  | conjunct
  deriving DecidableEq, Repr

/-- The token list is a condition of a sort and has the tree. A comparison is a conjunct only if it
does not start with a parenthesis. -/
inductive DerivesCond : Nat → CondSort → List Token → Cond → Prop where
  | truth {d : Nat} {t : Token} (kind : t.kind = .keyword .trueKw) :
    DerivesCond d .conjunct [t] (.truth true)
  | falsity {d : Nat} {t : Token} (kind : t.kind = .keyword .falseKw) :
    DerivesCond d .conjunct [t] (.truth false)
  | negation {d : Nat} {t : Token} {ts : List Token} {c : Cond} (kind : t.kind = .keyword .notKw)
    (operand : DerivesCond d .conjunct ts c) :
    DerivesCond (d + 1) .conjunct (t :: ts) (.negation c)
  | group {d : Nat} {opening closing : Token} {ts : List Token} {c : Cond}
    (openKind : opening.kind = .symbol .lparen) (inside : DerivesCond d .disjunction ts c)
    (closeKind : closing.kind = .symbol .rparen) :
    DerivesCond (d + 3) .conjunct (opening :: (ts ++ [closing])) c
  | comparison {d : Nat} {t : Token} {ts : List Token} {c : Cond}
    (h : DerivesComparison d (t :: ts) c) (kind : t.kind ≠ .symbol .lparen) :
    DerivesCond d .conjunct (t :: ts) c
  | conjunct {d : Nat} {ts : List Token} {c : Cond} (h : DerivesCond d .conjunct ts c) :
    DerivesCond d .conjunction ts c
  | conjunction {d : Nat} {ts us : List Token} {t : Token} {op : BoolOp} {l r : Cond}
    (left : DerivesCond d .conjunction ts l) (kind : t.kind.conjunctive? = some op)
    (right : DerivesCond d .conjunct us r) :
    DerivesCond d .conjunction (ts ++ t :: us) (.binary op l r)
  | single {d : Nat} {ts : List Token} {c : Cond} (h : DerivesCond d .conjunction ts c) :
    DerivesCond d .disjunction ts c
  | disjunction {d : Nat} {ts us : List Token} {t : Token} {op : BoolOp} {l r : Cond}
    (left : DerivesCond d .disjunction ts l) (kind : t.kind.disjunctive? = some op)
    (right : DerivesCond d .conjunction us r) :
    DerivesCond d .disjunction (ts ++ t :: us) (.binary op l r)

mutual

/-- The token list is a statement and has the tree. -/
inductive DerivesStmt : Nat → List Token → Stmt → Prop where
  | assign {d : Nat} {target t semicolon : Token} {x : String} {ts : List Token} {e : Arith}
    (targetKind : target.kind = .ident) (value : target.text? = some x)
    (kind : t.kind = .symbol .assign) (expr : DerivesArith d .sum ts e)
    (endKind : semicolon.kind = .symbol .semicolon) :
    DerivesStmt d (target :: t :: (ts ++ [semicolon])) (.assign x e)
  | skip {d : Nat} {t semicolon : Token} (kind : t.kind = .keyword .skipKw)
    (endKind : semicolon.kind = .symbol .semicolon) :
    DerivesStmt d [t, semicolon] .skip
  | whileDo {d : Nat} {whileT doT doneT : Token} {ts us : List Token} {c : Cond} {body : Program}
    (whileKind : whileT.kind = .keyword .whileKw) (cond : DerivesCond d .disjunction ts c)
    (doKind : doT.kind = .keyword .doKw) (inside : DerivesProgram d us body)
    (doneKind : doneT.kind = .keyword .doneKw) :
    DerivesStmt (d + 3) (whileT :: (ts ++ doT :: (us ++ [doneT]))) (.whileDo c body)
  | ifThen {d : Nat} {ifT thenT fiT : Token} {ts us : List Token} {c : Cond} {p : Program}
    (ifKind : ifT.kind = .keyword .ifKw) (cond : DerivesCond d .disjunction ts c)
    (thenKind : thenT.kind = .keyword .thenKw) (thenBranch : DerivesProgram d us p)
    (fiKind : fiT.kind = .keyword .fiKw) :
    DerivesStmt (d + 3) (ifT :: (ts ++ thenT :: (us ++ [fiT]))) (.ifThen c p)
  | ifElse {d : Nat} {ifT thenT elseT fiT : Token} {ts us vs : List Token} {c : Cond}
    {p q : Program}
    (ifKind : ifT.kind = .keyword .ifKw) (cond : DerivesCond d .disjunction ts c)
    (thenKind : thenT.kind = .keyword .thenKw) (thenBranch : DerivesProgram d us p)
    (elseKind : elseT.kind = .keyword .elseKw) (elseBranch : DerivesProgram d vs q)
    (fiKind : fiT.kind = .keyword .fiKw) :
    DerivesStmt (d + 3) (ifT :: (ts ++ thenT :: (us ++ elseT :: (vs ++ [fiT])))) (.ifElse c p q)

/-- The token list is a program and has the tree. -/
inductive DerivesProgram : Nat → List Token → Program → Prop where
  | last {d : Nat} {ts : List Token} {s : Stmt} (h : DerivesStmt d ts s) :
    DerivesProgram d ts (.last s)
  | seq {d : Nat} {ts us : List Token} {s : Stmt} {p : Program} (first : DerivesStmt d ts s)
    (rest : DerivesProgram d us p) :
    DerivesProgram d (ts ++ us) (.seq s p)

end

/-- The token list is a program of the language, however deeply nested, and has the tree. -/
def IsSentence (ts : List Token) (p : Program) : Prop :=
  ∃ d, DerivesProgram d ts p

end WhileFrontend
