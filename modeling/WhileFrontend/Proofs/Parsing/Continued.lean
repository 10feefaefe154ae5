import WhileFrontend.Parsing.Nonterminal
import WhileFrontend.Proofs.Grammar.Unbounded
import WhileFrontend.Proofs.Parsing.Breaking

/-!
# Phrases and their continuations

`Nonterminal.Derives` says which token lists are phrases of a nonterminal and what their nodes are,
`Nonterminal.IsPhrase` the same without a bound on nesting. A token list is the beginning of a
phrase if some tokens complete it (`IsBeginning`), and a phrase ends before `rest` if it is no such
beginning together with the next token (`EndsBefore`).

A chain can be continued with each of its operators, and a program with each token that starts a
statement. So where such a phrase ends, the next token is none of these (`EndsBefore.endsArith`,
`EndsBefore.startsStmt`).
-/

namespace WhileFrontend

variable {α β : Type}

/-- Some tokens complete these to what `R` admits. -/
def IsBeginning (R : List Token → α → Prop) (us : List Token) : Prop :=
  ∃ vs a, R (us ++ vs) a

/-- In front of `rest`, what `R` admits cannot start with `us` and go on. -/
def EndsBefore (R : List Token → α → Prop) (us rest : List Token) : Prop :=
  ∀ t, rest.head? = some t → ¬ IsBeginning R (us ++ [t])

theorem isBeginning_append {R : List Token → α → Prop} {us vs : List Token} {t : Token} {a : α}
    (h : R (us ++ t :: vs) a) : IsBeginning R (us ++ [t]) :=
  ⟨vs, a, by rwa [List.append_assoc, List.singleton_append]⟩

theorem endsBefore_nil (R : List Token → α → Prop) (us : List Token) : EndsBefore R us [] :=
  nofun

/-- What ends for one relation ends for another whose phrases continue to phrases of the first. -/
theorem EndsBefore.of_imp {R : List Token → α → Prop} {S : List Token → β → Prop}
    {us vs rest : List Token} (h : EndsBefore R us rest)
    (hS : ∀ ws b, S (vs ++ ws) b → ∃ a, R (us ++ ws) a) : EndsBefore S vs rest := by
  rintro t ht ⟨ws, b, hb⟩
  rw [List.append_assoc] at hb
  obtain ⟨a, ha⟩ := hS _ _ hb
  exact h t ht ⟨ws, a, by rwa [List.append_assoc]⟩

/-- The kind of the next token has a property that the end has and every token with which the
phrase cannot go on. -/
theorem EndsBefore.of_frontKind {R : List Token → α → Prop} {us rest : List Token}
    (h : EndsBefore R us rest) {P : Kind → Prop} (hend : P .eof)
    (hP : ∀ t ∈ rest, ¬ P t.kind → IsBeginning R (us ++ [t])) : P (frontKind rest) := by
  cases rest with
  | nil => exact hend
  | cons t rest =>
    rw [frontKind_cons]
    exact Classical.byContradiction fun hk => h t rfl (hP t List.mem_cons_self hk)

/-! ## Phrases of a nonterminal -/

/-- The relation that holds of the images of the values. -/
def ImageOf (R : List Token → α → Prop) (g : α → β) (ts : List Token) (b : β) : Prop :=
  ∃ a, R ts a ∧ g a = b

/-- What ends among the images ends among the values. -/
theorem EndsBefore.of_imageOf {R : Nat → List Token → α → Prop} {g : α → β} {us rest : List Token}
    (h : EndsBefore (fun ts b => ∃ d, ImageOf (R d) g ts b) us rest) :
    EndsBefore (fun ts a => ∃ d, R d ts a) us rest :=
  h.of_imp fun _ a ⟨d, ha⟩ => ⟨g a, d, a, ha, rfl⟩

/-- A statement whose first token is of the given kind, which tells the four sorts of statements
apart. -/
def DerivesStmtFrom (d : Nat) (k : Kind) (ts : List Token) (s : Stmt) : Prop :=
  DerivesStmt d ts s ∧ frontKind ts = k

namespace Nonterminal

/-- The token list is a phrase of the nonterminal and has the node, within a bound on nesting. -/
def Derives (d : Nat) : Nonterminal → List Token → Node → Prop
  | wholeProgram => ImageOf (DerivesProgram d) Program.toNode
  | program => ImageOf (DerivesProgram d) Program.toNode
  | statement => ImageOf (DerivesStmt d) Stmt.toNode
  | whileDo => ImageOf (DerivesStmtFrom d (.keyword .whileKw)) Stmt.toNode
  | ifThenElse => ImageOf (DerivesStmtFrom d (.keyword .ifKw)) Stmt.toNode
  | skip => ImageOf (DerivesStmtFrom d (.keyword .skipKw)) Stmt.toNode
  | assign => ImageOf (DerivesStmtFrom d .ident) Stmt.toNode
  | arith => ImageOf (DerivesArith d .sum) Arith.toNode
  | summand => ImageOf (DerivesArith d .product) Arith.toNode
  | factor => ImageOf (DerivesArith d .operand) Arith.toNode
  | cond => ImageOf (DerivesCond d .disjunction) Cond.toNode
  | disjunct => ImageOf (DerivesCond d .conjunction) Cond.toNode
  | conjunct => ImageOf (DerivesCond d .conjunct) Cond.toNode
  | comparison => ImageOf (DerivesComparison d) Cond.toNode

/-- The token list is a phrase of the nonterminal, however deeply nested, and has the node. -/
def IsPhrase (nt : Nonterminal) (ts : List Token) (n : Node) : Prop :=
  ∃ d, nt.Derives d ts n

theorem Derives.mono {d d' : Nat} {nt : Nonterminal} {ts : List Token} {n : Node}
    (h : nt.Derives d ts n) (hd : d ≤ d') : nt.Derives d' ts n := by
  cases nt with
  | wholeProgram | program | statement | arith | summand | factor | cond | disjunct | conjunct
  | comparison =>
    obtain ⟨a, ha, rfl⟩ := h
    exact ⟨a, ha.mono hd, rfl⟩
  | whileDo | ifThenElse | skip | assign =>
    obtain ⟨s, ⟨hs, hk⟩, rfl⟩ := h
    exact ⟨s, ⟨hs.mono hd, hk⟩, rfl⟩

/-- A phrase of any nonterminal has a token. -/
theorem Derives.length_pos {d : Nat} {nt : Nonterminal} {ts : List Token} {n : Node}
    (h : nt.Derives d ts n) : 0 < ts.length := by
  cases nt with
  | wholeProgram | program | statement | cond | disjunct | conjunct =>
    obtain ⟨a, ha, -⟩ := h
    exact ha.length_pos
  | whileDo | ifThenElse | skip | assign =>
    obtain ⟨s, ⟨hs, -⟩, -⟩ := h
    exact hs.length_pos
  | arith | summand | factor | comparison =>
    obtain ⟨a, ha, -⟩ := h
    obtain ⟨t, us, rfl, -⟩ := ha.first
    exact Nat.succ_pos _

end Nonterminal

/-! ## What a phrase goes on with -/

theorem IsArith.goesOn_multiplicative {us : List Token} {e : Arith} {t : Token} {op : ArithOp}
    (h : IsArith .product us e) (hop : t.kind.multiplicative? = some op) :
    IsBeginning (IsArith .product) (us ++ [t]) :=
  isBeginning_append (h.product hop (.number 0))

/-- A sum goes on with a multiplicative operator as well, in its last summand. -/
theorem IsArith.goesOn {us : List Token} {e : Arith} {t : Token} (h : IsArith .sum us e)
    (hop : ¬ t.kind.EndsArith) : IsBeginning (IsArith .sum) (us ++ [t]) := by
  cases hmul : t.kind.multiplicative? with
  | none =>
    cases hadd : t.kind.additive? with
    | none => exact absurd ⟨hmul, hadd⟩ hop
    | some op => exact isBeginning_append (h.sum hadd (.operand (.number 0)))
  | some op =>
    obtain ⟨d, h⟩ := h
    cases h with
    | single h =>
      obtain ⟨vs, e', he'⟩ := goesOn_multiplicative ⟨d, h⟩ hmul
      exact ⟨vs, e', he'.single⟩
    | @sum _ ts us t' _ l r left kind right =>
      obtain ⟨vs, e', he'⟩ := goesOn_multiplicative ⟨d, right⟩ hmul
      have hsum := IsArith.sum ⟨d, left⟩ kind he'
      exact ⟨vs, _, by simpa using hsum⟩

theorem IsComparison.goesOn {us : List Token} {c : Cond} {t : Token} (h : IsComparison us c)
    (hop : ¬ t.kind.EndsArith) : IsBeginning IsComparison (us ++ [t]) := by
  obtain ⟨d, h⟩ := h
  cases h with
  | compare left kind right =>
    obtain ⟨vs, e, he⟩ := IsArith.goesOn ⟨d, right⟩ hop
    have hcompare := IsComparison.compare ⟨d, left⟩ kind he
    exact ⟨vs, _, by simpa using hcompare⟩

theorem IsCond.goesOn_conjunctive {us : List Token} {c : Cond} {t : Token} {op : BoolOp}
    (h : IsCond .conjunction us c) (hop : t.kind.conjunctive? = some op) :
    IsBeginning (IsCond .conjunction) (us ++ [t]) :=
  isBeginning_append (h.conjunction hop (.truth (t := .keyword .trueKw) rfl))

theorem IsCond.goesOn_disjunctive {us : List Token} {c : Cond} {t : Token} {op : BoolOp}
    (h : IsCond .disjunction us c) (hop : t.kind.disjunctive? = some op) :
    IsBeginning (IsCond .disjunction) (us ++ [t]) :=
  isBeginning_append (h.disjunction hop (.conjunct (.truth (t := .keyword .trueKw) rfl)))

/-- A token that starts statements starts one, if it is a name that carries its text. -/
theorem exists_isStmt_of_startsStmt {t : Token} (ht : t.kind.startsStmt = true)
    (hwf : t.IsWellFormed) : ∃ vs s, IsStmt (t :: vs) s := by
  obtain ⟨us, c, hc⟩ := Phrase.exists_isCond
  obtain ⟨vs, p, hp⟩ := Phrase.exists_isSentence
  unfold Kind.startsStmt at ht
  split at ht
  · next hkind =>
    exact ⟨us ++ .keyword .doKw :: (vs ++ [.keyword .doneKw]), _, .whileDo hkind hc rfl hp rfl⟩
  · next hkind =>
    exact ⟨us ++ .keyword .thenKw :: (vs ++ [.keyword .fiKw]), _, .ifThen hkind hc rfl hp rfl⟩
  · next hkind => exact ⟨[.symbol .semicolon], _, .skip hkind rfl⟩
  · next hkind =>
    obtain ⟨x, hx⟩ := Option.isSome_iff_exists.mp (hwf.2 hkind)
    exact ⟨.symbol .assign :: ([.number 0] ++ [.symbol .semicolon]), _,
      .assign hkind hx rfl (.single (.operand (.number 0))) rfl⟩
  · cases ht

/-- A statement may follow any program. -/
theorem IsSentence.append {us vs : List Token} {p : Program} {s : Stmt} (h : IsSentence us p)
    (hs : IsStmt vs s) : ∃ q, IsSentence (us ++ vs) q := by
  induction hlength : us.length using Nat.strongRecOn generalizing us p with
  | _ n ih =>
    obtain ⟨d, h⟩ := h
    cases h with
    | last h => exact ⟨_, .seq ⟨d, h⟩ (.last hs)⟩
    | @seq _ ts ws _ _ first rest =>
      obtain ⟨t, ts', rfl, -⟩ := first.first
      have hshorter : ws.length < n := by
        rw [← hlength, List.length_append, List.length_cons]
        omega
      obtain ⟨q, hq⟩ := ih _ hshorter ⟨d, rest⟩ rfl
      exact ⟨_, by rw [List.append_assoc]; exact .seq ⟨d, first⟩ hq⟩

theorem IsSentence.goesOn {us : List Token} {p : Program} {t : Token} (h : IsSentence us p)
    (ht : t.kind.startsStmt = true) (hwf : t.IsWellFormed) :
    IsBeginning IsSentence (us ++ [t]) := by
  obtain ⟨vs, s, hs⟩ := exists_isStmt_of_startsStmt ht hwf
  obtain ⟨q, hq⟩ := h.append hs
  exact isBeginning_append hq

/-! ## What stands behind a phrase that ends -/

namespace EndsBefore

variable {us rest : List Token}

theorem multiplicative? {e : Arith} (h : EndsBefore (IsArith .product) us rest)
    (hus : IsArith .product us e) : (frontKind rest).multiplicative? = none := by
  refine h.of_frontKind (P := fun k => k.multiplicative? = none) rfl fun t _ hk => ?_
  obtain ⟨op, hop⟩ := Option.ne_none_iff_exists'.mp hk
  exact hus.goesOn_multiplicative hop

theorem endsArith {e : Arith} (h : EndsBefore (IsArith .sum) us rest) (hus : IsArith .sum us e) :
    (frontKind rest).EndsArith :=
  h.of_frontKind ⟨rfl, rfl⟩ fun _ _ hk => hus.goesOn hk

theorem endsArith_comparison {c : Cond} (h : EndsBefore IsComparison us rest)
    (hus : IsComparison us c) : (frontKind rest).EndsArith :=
  h.of_frontKind ⟨rfl, rfl⟩ fun _ _ hk => hus.goesOn hk

theorem conjunctive? {c : Cond} (h : EndsBefore (IsCond .conjunction) us rest)
    (hus : IsCond .conjunction us c) : (frontKind rest).conjunctive? = none := by
  refine h.of_frontKind (P := fun k => k.conjunctive? = none) rfl fun t _ hk => ?_
  obtain ⟨op, hop⟩ := Option.ne_none_iff_exists'.mp hk
  exact hus.goesOn_conjunctive hop

theorem disjunctive? {c : Cond} (h : EndsBefore (IsCond .disjunction) us rest)
    (hus : IsCond .disjunction us c) : (frontKind rest).disjunctive? = none := by
  refine h.of_frontKind (P := fun k => k.disjunctive? = none) rfl fun t _ hk => ?_
  obtain ⟨op, hop⟩ := Option.ne_none_iff_exists'.mp hk
  exact hus.goesOn_disjunctive hop

theorem startsStmt {p : Program} (h : EndsBefore IsSentence us rest) (hus : IsSentence us p)
    (hwf : ∀ t ∈ rest, t.IsWellFormed) :
    (frontKind rest).startsStmt = false := by
  refine h.of_frontKind (P := fun k => k.startsStmt = false) rfl fun t ht hk => ?_
  exact hus.goesOn (by simpa using hk) (hwf t ht)

end EndsBefore

end WhileFrontend
