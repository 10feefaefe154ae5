import WhileFrontend.Proofs.Parsing.Continued

/-!
# Spans of tokens that are parts of a tree

A phrase is made of phrases according to one rule of the grammar. `Part` says which tokens of a
phrase are one of its immediate parts, with the nonterminal and the node of that part, and what
stands before and behind it; `Span` says the same of parts at any depth. So the tokens of a span
form a subtree of the whole.

What stands at the place of a part may be exchanged for any other phrase of the same nonterminal
with the same node, and the node of the whole stays the same (`Part.replace`). There is one rule
with a condition on how its part starts: a comparison stands as a conjunct only where it does not
start with a parenthesis.
-/

namespace WhileFrontend

namespace Nonterminal

/-- The phrases of the first nonterminal are chains of those of the second, with operators that make
a node of those to their left and to their right. -/
inductive Chains : Nonterminal → Nonterminal → (Kind → Option (Node → Node → Node)) → Prop where
  | sum : Chains arith summand fun k => k.additive?.map .arith
  | product : Chains summand factor fun k => k.multiplicative?.map .arith
  | disjunction : Chains cond disjunct fun k => k.disjunctive?.map .bool
  | conjunction : Chains disjunct conjunct fun k => k.conjunctive?.map .bool

/-- A phrase of the second nonterminal in parentheses is one of the first. -/
inductive Groups : Nonterminal → Nonterminal → Prop where
  | arith : Groups factor arith
  | cond : Groups conjunct cond

/-- The sorts of arithmetic expressions. -/
def isArith : Nonterminal → Bool
  | arith => true
  | summand => true
  | factor => true
  | _ => false

/-- The sorts of boolean expressions. -/
def isCond : Nonterminal → Bool
  | cond => true
  | disjunct => true
  | conjunct => true
  | comparison => true
  | _ => false

/-- The tokens `us` between `pre` and `post` are an immediate part of a phrase. The phrase and its
node come first, and the part and its node last. -/
inductive Part : Nonterminal → Node → List Token → List Token → List Token → Nonterminal → Node →
    Prop where
  | operand {nt nt' : Nonterminal} {op? : Kind → Option (Node → Node → Node)} {us : List Token}
    {n : Node} (chain : Chains nt nt' op?) :
    Part nt n [] us [] nt' n
  | left {nt nt' : Nonterminal} {op? : Kind → Option (Node → Node → Node)} {us vs : List Token}
    {t : Token} {f : Node → Node → Node} {l r : Node} (chain : Chains nt nt' op?)
    (kind : op? t.kind = some f) (right : nt'.IsPhrase vs r) :
    Part nt (f l r) [] us (t :: vs) nt l
  | right {nt nt' : Nonterminal} {op? : Kind → Option (Node → Node → Node)} {us vs : List Token}
    {t : Token} {f : Node → Node → Node} {l r : Node} (chain : Chains nt nt' op?)
    (kind : op? t.kind = some f) (left : nt.IsPhrase vs l) :
    Part nt (f l r) (vs ++ [t]) us [] nt' r
  | group {nt nt' : Nonterminal} {opening closing : Token} {us : List Token} {n : Node}
    (inside : Groups nt nt') (openKind : opening.kind = .symbol .lparen)
    (closeKind : closing.kind = .symbol .rparen) :
    Part nt n [opening] us [closing] nt' n
  | negation {t : Token} {us : List Token} {n : Node} (kind : t.kind = .keyword .notKw) :
    Part .conjunct (.negation n) [t] us [] .conjunct n
  | comparison {us : List Token} {n : Node} (front : frontKind us ≠ .symbol .lparen) :
    Part .conjunct n [] us [] .comparison n
  | compareLeft {us vs : List Token} {t : Token} {op : RelOp} {l r : Node}
    (kind : t.kind.relational? = some op) (right : arith.IsPhrase vs r) :
    Part .comparison (.compare op l r) [] us (t :: vs) .arith l
  | compareRight {us vs : List Token} {t : Token} {op : RelOp} {l r : Node}
    (kind : t.kind.relational? = some op) (left : arith.IsPhrase vs l) :
    Part .comparison (.compare op l r) (vs ++ [t]) us [] .arith r
  | assign {target t semicolon : Token} {x : String} {us : List Token} {n : Node}
    (targetKind : target.kind = .ident) (value : target.text? = some x)
    (kind : t.kind = .symbol .assign) (endKind : semicolon.kind = .symbol .semicolon) :
    Part .statement (.assign x n) [target, t] us [semicolon] .arith n
  | whileCond {whileT doT doneT : Token} {us vs : List Token} {c b : Node}
    (whileKind : whileT.kind = .keyword .whileKw) (doKind : doT.kind = .keyword .doKw)
    (body : program.IsPhrase vs b) (doneKind : doneT.kind = .keyword .doneKw) :
    Part .statement (.whileDo c b) [whileT] us (doT :: (vs ++ [doneT])) .cond c
  | whileBody {whileT doT doneT : Token} {us vs : List Token} {c b : Node}
    (whileKind : whileT.kind = .keyword .whileKw) (cond : cond.IsPhrase vs c)
    (doKind : doT.kind = .keyword .doKw) (doneKind : doneT.kind = .keyword .doneKw) :
    Part .statement (.whileDo c b) (whileT :: (vs ++ [doT])) us [doneT] .program b
  | thenCond {ifT thenT fiT : Token} {us vs : List Token} {c p : Node}
    (ifKind : ifT.kind = .keyword .ifKw) (thenKind : thenT.kind = .keyword .thenKw)
    (thenBranch : program.IsPhrase vs p) (fiKind : fiT.kind = .keyword .fiKw) :
    Part .statement (.ifThen c p) [ifT] us (thenT :: (vs ++ [fiT])) .cond c
  | thenBranch {ifT thenT fiT : Token} {us vs : List Token} {c p : Node}
    (ifKind : ifT.kind = .keyword .ifKw) (cond : cond.IsPhrase vs c)
    (thenKind : thenT.kind = .keyword .thenKw) (fiKind : fiT.kind = .keyword .fiKw) :
    Part .statement (.ifThen c p) (ifT :: (vs ++ [thenT])) us [fiT] .program p
  | elseCond {ifT thenT elseT fiT : Token} {us vs ws : List Token} {c p q : Node}
    (ifKind : ifT.kind = .keyword .ifKw) (thenKind : thenT.kind = .keyword .thenKw)
    (thenBranch : program.IsPhrase vs p) (elseKind : elseT.kind = .keyword .elseKw)
    (elseBranch : program.IsPhrase ws q) (fiKind : fiT.kind = .keyword .fiKw) :
    Part .statement (.ifElse c p q) [ifT] us (thenT :: (vs ++ elseT :: (ws ++ [fiT]))) .cond c
  | elseThenBranch {ifT thenT elseT fiT : Token} {us vs ws : List Token} {c p q : Node}
    (ifKind : ifT.kind = .keyword .ifKw) (cond : cond.IsPhrase vs c)
    (thenKind : thenT.kind = .keyword .thenKw) (elseKind : elseT.kind = .keyword .elseKw)
    (elseBranch : program.IsPhrase ws q) (fiKind : fiT.kind = .keyword .fiKw) :
    Part .statement (.ifElse c p q) (ifT :: (vs ++ [thenT])) us (elseT :: (ws ++ [fiT])) .program p
  | elseBranch {ifT thenT elseT fiT : Token} {us vs ws : List Token} {c p q : Node}
    (ifKind : ifT.kind = .keyword .ifKw) (cond : cond.IsPhrase vs c)
    (thenKind : thenT.kind = .keyword .thenKw) (thenBranch : program.IsPhrase ws p)
    (elseKind : elseT.kind = .keyword .elseKw) (fiKind : fiT.kind = .keyword .fiKw) :
    Part .statement (.ifElse c p q) (ifT :: (vs ++ thenT :: (ws ++ [elseT]))) us [fiT] .program q
  | last {us : List Token} {n : Node} : Part .program (.program (.last n)) [] us [] .statement n
  | first {us vs : List Token} {n : Node} {ns : Nodes} (rest : program.IsPhrase vs (.program ns)) :
    Part .program (.program (.seq n ns)) [] us vs .statement n
  | rest {us vs : List Token} {n : Node} {ns : Nodes} (first : statement.IsPhrase vs n) :
    Part .program (.program (.seq n ns)) vs us [] .program (.program ns)

/-- The tokens `us` between `pre` and `post` are a part of a phrase at some depth, or all of it. -/
inductive Span : Nonterminal → Node → List Token → List Token → List Token → Nonterminal → Node →
    Prop where
  | whole {nt : Nonterminal} {us : List Token} {n : Node} (h : nt.IsPhrase us n) :
    Span nt n [] us [] nt n
  | inside {nt nt₁ nt₂ : Nonterminal} {n n₁ n₂ : Node} {pre post pre' us post' : List Token}
    (part : Part nt n pre (pre' ++ (us ++ post')) post nt₁ n₁)
    (span : Span nt₁ n₁ pre' us post' nt₂ n₂) :
    Span nt n (pre ++ pre') us (post' ++ post) nt₂ n₂

/-! ## Exchanging a part -/

/-- A phrase without a bound on nesting is the node of some value. -/
theorem exists_imageOf {α β : Type} {R : Nat → List Token → α → Prop} {g : α → β}
    {us : List Token} {b : β} :
    (∃ d, ImageOf (R d) g us b) ↔ ∃ a, (∃ d, R d us a) ∧ g a = b := by
  constructor
  · rintro ⟨d, a, ha, rfl⟩
    exact ⟨a, ⟨d, ha⟩, rfl⟩
  · rintro ⟨a, ⟨d, ha⟩, rfl⟩
    exact ⟨d, a, ha, rfl⟩

variable {nt nt' : Nonterminal} {us vs pre post : List Token} {n n' l r : Node}

theorem Chains.isPhrase_operand {op? : Kind → Option (Node → Node → Node)}
    (chain : Chains nt nt' op?) (h : nt'.IsPhrase us n) : nt.IsPhrase us n := by
  cases chain <;> obtain ⟨a, ha, rfl⟩ := exists_imageOf.mp h
  case sum => exact exists_imageOf.mpr ⟨a, IsArith.single ha, rfl⟩
  case product => exact exists_imageOf.mpr ⟨a, IsArith.operand ha, rfl⟩
  case disjunction => exact exists_imageOf.mpr ⟨a, IsCond.single ha, rfl⟩
  case conjunction => exact exists_imageOf.mpr ⟨a, IsCond.conjunct ha, rfl⟩

theorem Chains.isPhrase_binary {op? : Kind → Option (Node → Node → Node)}
    (chain : Chains nt nt' op?) {t : Token} {f : Node → Node → Node} (kind : op? t.kind = some f)
    (left : nt.IsPhrase us l) (right : nt'.IsPhrase vs r) :
    nt.IsPhrase (us ++ t :: vs) (f l r) := by
  cases chain <;> obtain ⟨op, hop, rfl⟩ := Option.map_eq_some_iff.mp kind <;>
    obtain ⟨a, ha, rfl⟩ := exists_imageOf.mp left <;>
    obtain ⟨b, hb, rfl⟩ := exists_imageOf.mp right
  case sum => exact exists_imageOf.mpr ⟨.binary op a b, IsArith.sum ha hop hb, rfl⟩
  case product => exact exists_imageOf.mpr ⟨.binary op a b, IsArith.product ha hop hb, rfl⟩
  case disjunction => exact exists_imageOf.mpr ⟨.binary op a b, IsCond.disjunction ha hop hb, rfl⟩
  case conjunction => exact exists_imageOf.mpr ⟨.binary op a b, IsCond.conjunction ha hop hb, rfl⟩

theorem Groups.isPhrase {opening closing : Token} (inside : Groups nt nt')
    (openKind : opening.kind = .symbol .lparen) (h : nt'.IsPhrase us n)
    (closeKind : closing.kind = .symbol .rparen) :
    nt.IsPhrase (opening :: (us ++ [closing])) n := by
  cases inside <;> obtain ⟨a, ha, rfl⟩ := exists_imageOf.mp h
  case arith => exact exists_imageOf.mpr ⟨a, IsArith.group openKind ha closeKind, rfl⟩
  case cond => exact exists_imageOf.mpr ⟨a, IsCond.group openKind ha closeKind, rfl⟩

theorem isPhrase_negation {t : Token} (kind : t.kind = .keyword .notKw)
    (h : conjunct.IsPhrase us n) : conjunct.IsPhrase (t :: us) (.negation n) := by
  obtain ⟨c, hc, rfl⟩ := exists_imageOf.mp h
  exact exists_imageOf.mpr ⟨.negation c, IsCond.negation kind hc, rfl⟩

theorem isPhrase_conjunct (h : comparison.IsPhrase us n)
    (front : frontKind us ≠ .symbol .lparen) : conjunct.IsPhrase us n := by
  obtain ⟨c, hc, rfl⟩ := exists_imageOf.mp h
  obtain ⟨t, ts, rfl, -⟩ := IsComparison.first hc
  exact exists_imageOf.mpr ⟨c, IsCond.comparison hc front, rfl⟩

theorem isPhrase_comparison {t : Token} {op : RelOp} (left : arith.IsPhrase us l)
    (kind : t.kind.relational? = some op) (right : arith.IsPhrase vs r) :
    comparison.IsPhrase (us ++ t :: vs) (.compare op l r) := by
  obtain ⟨a, ha, rfl⟩ := exists_imageOf.mp left
  obtain ⟨b, hb, rfl⟩ := exists_imageOf.mp right
  exact exists_imageOf.mpr ⟨.compare op a b, IsComparison.compare ha kind hb, rfl⟩

theorem isPhrase_assign {target t semicolon : Token} {x : String}
    (targetKind : target.kind = .ident) (value : target.text? = some x)
    (kind : t.kind = .symbol .assign) (h : arith.IsPhrase us n)
    (endKind : semicolon.kind = .symbol .semicolon) :
    statement.IsPhrase (target :: t :: (us ++ [semicolon])) (.assign x n) := by
  obtain ⟨e, he, rfl⟩ := exists_imageOf.mp h
  exact exists_imageOf.mpr
    ⟨.assign x e, IsStmt.assign targetKind value kind he endKind, by rw [Stmt.toNode]⟩

theorem isPhrase_whileDo {whileT doT doneT : Token} {c b : Node}
    (whileKind : whileT.kind = .keyword .whileKw) (condition : cond.IsPhrase us c)
    (doKind : doT.kind = .keyword .doKw) (body : program.IsPhrase vs b)
    (doneKind : doneT.kind = .keyword .doneKw) :
    statement.IsPhrase (whileT :: (us ++ doT :: (vs ++ [doneT]))) (.whileDo c b) := by
  obtain ⟨c, hc, rfl⟩ := exists_imageOf.mp condition
  obtain ⟨p, hp, rfl⟩ := exists_imageOf.mp body
  exact exists_imageOf.mpr
    ⟨.whileDo c p, IsStmt.whileDo whileKind hc doKind hp doneKind, by rw [Stmt.toNode]⟩

theorem isPhrase_ifThen {ifT thenT fiT : Token} {c p : Node} (ifKind : ifT.kind = .keyword .ifKw)
    (condition : cond.IsPhrase us c) (thenKind : thenT.kind = .keyword .thenKw)
    (thenBranch : program.IsPhrase vs p) (fiKind : fiT.kind = .keyword .fiKw) :
    statement.IsPhrase (ifT :: (us ++ thenT :: (vs ++ [fiT]))) (.ifThen c p) := by
  obtain ⟨c, hc, rfl⟩ := exists_imageOf.mp condition
  obtain ⟨p, hp, rfl⟩ := exists_imageOf.mp thenBranch
  exact exists_imageOf.mpr
    ⟨.ifThen c p, IsStmt.ifThen ifKind hc thenKind hp fiKind, by rw [Stmt.toNode]⟩

theorem isPhrase_ifElse {ifT thenT elseT fiT : Token} {ws : List Token} {c p q : Node}
    (ifKind : ifT.kind = .keyword .ifKw) (condition : cond.IsPhrase us c)
    (thenKind : thenT.kind = .keyword .thenKw) (thenBranch : program.IsPhrase vs p)
    (elseKind : elseT.kind = .keyword .elseKw) (elseBranch : program.IsPhrase ws q)
    (fiKind : fiT.kind = .keyword .fiKw) :
    statement.IsPhrase (ifT :: (us ++ thenT :: (vs ++ elseT :: (ws ++ [fiT]))))
      (.ifElse c p q) := by
  obtain ⟨c, hc, rfl⟩ := exists_imageOf.mp condition
  obtain ⟨p, hp, rfl⟩ := exists_imageOf.mp thenBranch
  obtain ⟨q, hq, rfl⟩ := exists_imageOf.mp elseBranch
  exact exists_imageOf.mpr ⟨.ifElse c p q,
    IsStmt.ifElse ifKind hc thenKind hp elseKind hq fiKind, by rw [Stmt.toNode]⟩

theorem isPhrase_last (h : statement.IsPhrase us n) :
    program.IsPhrase us (.program (.last n)) := by
  obtain ⟨s, hs, rfl⟩ := exists_imageOf.mp h
  exact exists_imageOf.mpr
    ⟨.last s, IsSentence.last hs, by rw [Program.toNode, Program.toNodes]⟩

theorem isPhrase_seq {ns : Nodes} (h : statement.IsPhrase us n)
    (rest : program.IsPhrase vs (.program ns)) :
    program.IsPhrase (us ++ vs) (.program (.seq n ns)) := by
  obtain ⟨s, hs, rfl⟩ := exists_imageOf.mp h
  obtain ⟨p, hp, hnode⟩ := exists_imageOf.mp rest
  rw [Program.toNode] at hnode
  obtain rfl := Node.program.inj hnode
  exact exists_imageOf.mpr
    ⟨.seq s p, IsSentence.seq hs hp, by rw [Program.toNode, Program.toNodes]⟩

/-- A part may be exchanged for another phrase with the same node. -/
theorem Part.replace (part : Part nt n pre us post nt' n') (h : nt'.IsPhrase vs n')
    (front : nt' = .comparison → frontKind vs ≠ .symbol .lparen) :
    nt.IsPhrase (pre ++ (vs ++ post)) n := by
  cases part with
  | operand chain => simpa using chain.isPhrase_operand h
  | left chain kind right => simpa using chain.isPhrase_binary kind h right
  | right chain kind left => simpa using chain.isPhrase_binary kind left h
  | group inside openKind closeKind => simpa using inside.isPhrase openKind h closeKind
  | negation kind => simpa using isPhrase_negation kind h
  | comparison => simpa using isPhrase_conjunct h (front rfl)
  | compareLeft kind right => simpa using isPhrase_comparison h kind right
  | compareRight kind left => simpa using isPhrase_comparison left kind h
  | assign targetKind value kind endKind =>
    simpa using isPhrase_assign targetKind value kind h endKind
  | whileCond whileKind doKind body doneKind =>
    simpa using isPhrase_whileDo whileKind h doKind body doneKind
  | whileBody whileKind cond doKind doneKind =>
    simpa using isPhrase_whileDo whileKind cond doKind h doneKind
  | thenCond ifKind thenKind thenBranch fiKind =>
    simpa using isPhrase_ifThen ifKind h thenKind thenBranch fiKind
  | thenBranch ifKind cond thenKind fiKind =>
    simpa using isPhrase_ifThen ifKind cond thenKind h fiKind
  | elseCond ifKind thenKind thenBranch elseKind elseBranch fiKind =>
    simpa using isPhrase_ifElse ifKind h thenKind thenBranch elseKind elseBranch fiKind
  | elseThenBranch ifKind cond thenKind elseKind elseBranch fiKind =>
    simpa using isPhrase_ifElse ifKind cond thenKind h elseKind elseBranch fiKind
  | elseBranch ifKind cond thenKind thenBranch elseKind fiKind =>
    simpa using isPhrase_ifElse ifKind cond thenKind thenBranch elseKind h fiKind
  | last => simpa using isPhrase_last h
  | first rest => simpa using isPhrase_seq h rest
  | rest first => simpa using isPhrase_seq first h

/-! ## What is inside what -/

/-- A comparison that is a part does not start with a parenthesis. -/
theorem Part.front (part : Part nt n pre us post nt' n') (h : nt' = .comparison) :
    frontKind us ≠ .symbol .lparen := by
  cases part with
  | operand chain => cases chain <;> cases h
  | left chain => subst h; cases chain
  | right chain => subst h; cases chain
  | group inside => cases inside <;> cases h
  | comparison front => exact front
  | _ => cases h

/-- Inside an arithmetic expression there are none but arithmetic expressions. -/
theorem Part.isArith (part : Part nt n pre us post nt' n')
    (h : nt.isArith = true ∨ nt = .comparison) : nt'.isArith = true := by
  cases part with
  | operand chain => cases chain <;> simp_all [Nonterminal.isArith]
  | left chain => cases chain <;> simp_all [Nonterminal.isArith]
  | right chain => cases chain <;> simp_all [Nonterminal.isArith]
  | group inside => cases inside <;> simp_all [Nonterminal.isArith]
  | compareLeft | compareRight | assign => rfl
  | _ => simp_all [Nonterminal.isArith]

theorem Span.isArith (span : Span nt n pre us post nt' n') (h : nt.isArith = true) :
    nt'.isArith = true := by
  induction span with
  | whole => exact h
  | inside part _ ih => exact ih (part.isArith (.inl h))

/-- A comparison has itself and arithmetic expressions inside. -/
theorem Span.of_comparison (span : Span .comparison n pre us post nt' n') :
    nt' = .comparison ∨ nt'.isArith = true := by
  cases span with
  | whole => exact .inl rfl
  | inside part span => exact .inr (span.isArith (part.isArith (.inr rfl)))

/-- What has a part is a phrase, and so is the part. -/
theorem Span.isPhrase (span : Span nt n pre us post nt' n') :
    nt.IsPhrase (pre ++ (us ++ post)) n ∧ nt'.IsPhrase us n' := by
  induction span with
  | whole h => exact ⟨by simpa using h, h⟩
  | inside part _ ih =>
    obtain ⟨hwhole, hpart⟩ := ih
    exact ⟨by simpa using part.replace hwhole part.front, hpart⟩

/-- Where a comparison is a part, it is so as a conjunct, and does not start with a parenthesis. -/
theorem Span.conjunct_of_comparison (span : Span nt n pre us post .comparison n')
    (hnt : nt ≠ .comparison) :
    Span nt n pre us post .conjunct n' ∧ frontKind us ≠ .symbol .lparen := by
  generalize hc : Nonterminal.comparison = c at span
  induction span with
  | whole => exact absurd hc.symm hnt
  | @inside nt nt₁ nt₂ n n₁ n₂ pre post pre' us post' part span ih =>
    subst hc
    by_cases hnt₁ : nt₁ = .comparison
    · subst hnt₁
      cases span with
      | whole h =>
        have hfront : frontKind us ≠ .symbol .lparen := by simpa using part.front rfl
        cases part with
        | operand chain | left chain | right chain => cases chain
        | group inside => cases inside
        | comparison => exact ⟨.whole (isPhrase_conjunct h hfront), hfront⟩
      | inside part' span' =>
        have harith := span'.isArith (part'.isArith (.inr rfl))
        cases harith
    · obtain ⟨hspan, hfront⟩ := ih hnt₁ rfl
      exact ⟨.inside part hspan, hfront⟩

end Nonterminal

end WhileFrontend
