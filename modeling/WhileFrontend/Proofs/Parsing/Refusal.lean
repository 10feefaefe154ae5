import Mathlib.Order.Filter.AtTopBot.Basic
import WhileFrontend.Proofs.Parsing.Completeness
import WhileFrontend.Proofs.Parsing.Span
import WhileFrontend.Proofs.Parsing.Wall

/-!
# Where a part is refused, the whole is

A phrase commits to its parts, so it fails where one of them fails, with the same fault: at its
first part (`Phrase.Fails.bind`) or behind what it has read (`Phrase.Fails.behind`). What stands in
front of the part is read as in any other text, if the budget is large enough. So a program is
refused for a conjunct that is refused at its place in it (`Nonterminal.Span.refuses`).

One fault is left out: where no statement starts, a sequence of statements just ends.
-/

namespace WhileFrontend

namespace Phrase

variable {α β : Type} {p : Phrase α} {f : ParseFault} {us ts : List Token}

/-! ## Phrases that fail -/

/-- The phrase fails with the fault. -/
def Fails (p : Phrase α) (f : ParseFault) (ts : List Token) : Prop :=
  ∃ n, p ts = .fail f n

theorem fails_map {g : α → β} : (p.map g).Fails f ts ↔ p.Fails f ts := by
  unfold Fails Phrase.map
  cases p ts with
  | ok a n => simp [Outcome.map]
  | fail e n => simp [Outcome.map]

/-- What fails at its first part fails. -/
theorem Fails.bind (h : p.Fails f ts) (g : α → Phrase β) : (p >>= g).Fails f ts := by
  obtain ⟨n, hn⟩ := h
  exact ⟨n, by rw [bind_apply, hn]⟩

/-- What fails at its second part fails. -/
theorem Fails.behind {g : α → Phrase β} {a : α} (hp : p.Reads us a ts) (h : (g a).Fails f ts) :
    (p >>= g).Fails f (us ++ ts) := by
  obtain ⟨n, hn⟩ := h
  exact ⟨us.length + n, by rw [bind_of_ok hp, List.drop_left, hn]; rfl⟩

theorem Fails.behind_expect {k : Kind} {t : Token} {g : Token → Phrase β} (ht : t.kind = k)
    (h : (g t).Fails f ts) : (expect k >>= g).Fails f (t :: ts) :=
  Fails.behind (reads_expect ht ts) h

/-- What uses up a token and goes on as a phrase that fails, fails. -/
theorem Fails.cons {q : Phrase α} {t : Token} (h : q.Fails f ts)
    (hp : p (t :: ts) = (q ts).after 1) : p.Fails f (t :: ts) := by
  obtain ⟨n, hn⟩ := h
  exact ⟨1 + n, by rw [hp, hn]; rfl⟩

/-- A chain fails at an operand further on. -/
theorem fails_chain {γ : Type} {op? : Kind → Option γ} {combine : γ → α → α → α}
    {operand : Phrase α} {t : Token} {op : γ} {l : α}
    (hl : chain op? combine operand (us ++ (t :: ts))
      = (chainFrom op? combine operand l (t :: ts)).after us.length)
    (hop : op? t.kind = some op) (h : operand.Fails f ts) :
    (chain op? combine operand).Fails f (us ++ t :: ts) := by
  obtain ⟨n, hn⟩ := h
  exact ⟨us.length + (n + 1), by rw [hl, chainFrom_cons hop, hn]; rfl⟩

/-- Items fail where the first of them fails. -/
theorem fails_many {starts : Kind → Bool} {item : Phrase α} (hend : starts .eof = false)
    (hstart : starts (frontKind ts) = true) (h : item.Fails f ts) :
    (many starts item).Fails f ts := by
  obtain ⟨n, hn⟩ := h
  exact ⟨n, by rw [many_eq hend hstart, hn]⟩

/-! ## Conditions that fail -/

theorem fails_conjunct_group {d : Nat} {opening : Token} (openKind : opening.kind = .symbol .lparen)
    (h : (cond d).Fails f ts) : (conjunct (d + 3)).Fails f (opening :: ts) := by
  have hinside := h.bind fun c => do
    let _ ← expect (.symbol .rparen)
    return c
  refine hinside.cons ?_
  rw [conjunct_add_three, conjunctOf_cons, openKind]

theorem fails_conjunct_negation {d : Nat} {t : Token} (kind : t.kind = .keyword .notKw)
    (h : (conjunct d).Fails f ts) : (conjunct (d + 1)).Fails f (t :: ts) := by
  refine (h.bind fun c => return .negation c).cons ?_
  rw [conjunct_add_one, conjunctOf_cons, kind]

/-! ## Statements that fail -/

section statements

variable {cond : Phrase Cond} {program : Phrase Program} {vs : List Token}

theorem fails_whileOf_cond {whileT : Token} (whileKind : whileT.kind = .keyword .whileKw)
    (h : cond.Fails f ts) : (whileOf cond program).Fails f (whileT :: ts) :=
  .behind_expect whileKind (h.bind _)

theorem fails_whileOf_body {whileT doT : Token} {c : Cond}
    (whileKind : whileT.kind = .keyword .whileKw) (hcond : cond.Reads us c (doT :: ts))
    (doKind : doT.kind = .keyword .doKw) (h : program.Fails f ts) :
    (whileOf cond program).Fails f (whileT :: (us ++ doT :: ts)) :=
  .behind_expect whileKind (.behind hcond (.behind_expect doKind (h.bind _)))

theorem fails_ifOf_cond {ifT : Token} (ifKind : ifT.kind = .keyword .ifKw) (h : cond.Fails f ts) :
    (ifOf cond program).Fails f (ifT :: ts) :=
  .behind_expect ifKind (h.bind _)

theorem fails_ifOf_then {ifT thenT : Token} {c : Cond} (ifKind : ifT.kind = .keyword .ifKw)
    (hcond : cond.Reads us c (thenT :: ts)) (thenKind : thenT.kind = .keyword .thenKw)
    (h : program.Fails f ts) : (ifOf cond program).Fails f (ifT :: (us ++ thenT :: ts)) :=
  .behind_expect ifKind (.behind hcond (.behind_expect thenKind (h.bind _)))

theorem fails_ifOf_else {ifT thenT elseT : Token} {c : Cond} {p : Program}
    (ifKind : ifT.kind = .keyword .ifKw) (hcond : cond.Reads us c (thenT :: (vs ++ elseT :: ts)))
    (thenKind : thenT.kind = .keyword .thenKw) (hthen : program.Reads vs p (elseT :: ts))
    (elseKind : elseT.kind = .keyword .elseKw) (h : program.Fails f ts) :
    (ifOf cond program).Fails f (ifT :: (us ++ thenT :: (vs ++ elseT :: ts))) := by
  refine .behind_expect ifKind (.behind hcond (.behind_expect thenKind (.behind hthen ?_)))
  have helse := h.bind fun q => do
    let _ ← expect (.keyword .fiKw)
    return Stmt.ifElse c p q
  refine helse.cons ?_
  rw [peek_bind, List.headD_cons, if_pos elseKind, advance_bind_cons]

end statements

theorem fails_statement_while {d : Nat} {whileT : Token}
    (whileKind : whileT.kind = .keyword .whileKw)
    (h : (whileOf (cond d) (program d)).Fails f (whileT :: ts)) :
    (statement (d + 3)).Fails f (whileT :: ts) := by
  rw [Fails, statement_add_three, statementOf_cons, whileKind]
  exact h

theorem fails_statement_if {d : Nat} {ifT : Token} (ifKind : ifT.kind = .keyword .ifKw)
    (h : (ifOf (cond d) (program d)).Fails f (ifT :: ts)) :
    (statement (d + 3)).Fails f (ifT :: ts) := by
  rw [Fails, statement_add_three, statementOf_cons, ifKind]
  exact h

/-- A statement that fails within has started. -/
theorem startsStmt_of_fails {d : Nat} (h : (statement d).Fails f ts)
    (hf : ∀ t, f ≠ .noStatement t) : (frontKind ts).startsStmt = true := by
  obtain ⟨n, hn⟩ := h
  rw [statement_eq] at hn
  cases ts with
  | nil => exact absurd (Outcome.fail.inj hn).1.symm (hf _)
  | cons t ts =>
    rw [statementOf_cons] at hn
    rw [frontKind_cons]
    split at hn
    · next hkind => rw [hkind]; rfl
    · next hkind => rw [hkind]; rfl
    · next hkind => rw [hkind]; rfl
    · next hkind => rw [hkind]; rfl
    · exact absurd (Outcome.fail.inj hn).1.symm (hf t)

/-- The statements behind another one fail as a program of their own does. -/
theorem fails_many_of_program {d : Nat} (h : (program d).Fails f ts)
    (hf : ∀ t, f ≠ .noStatement t) : (many Kind.startsStmt (statement d)).Fails f ts := by
  obtain ⟨n, hn⟩ := h
  rw [program, programOf, bind_apply] at hn
  cases hs : statement d ts with
  | fail e k =>
    simp only [hs] at hn
    obtain ⟨rfl, rfl⟩ := Outcome.fail.inj hn
    have hfails : (statement d).Fails e ts := ⟨k, hs⟩
    exact fails_many rfl (startsStmt_of_fails hfails hf) hfails
  | ok s k =>
    obtain ⟨vs, rest, rfl, rfl, hstmt⟩ := sound_statement d _ _ _ hs
    obtain ⟨t, vs, rfl, ht⟩ := hstmt.first
    -- the first statement uses a token up, so the loop goes on behind it
    simp only [hs, bind_apply] at hn
    cases hmany : many Kind.startsStmt (statement d)
        (((t :: vs) ++ rest).drop (t :: vs).length) with
    | ok ss j =>
      rw [hmany] at hn
      cases hn
    | fail e j =>
      rw [hmany] at hn
      obtain ⟨rfl, -⟩ := Outcome.fail.inj hn
      refine ⟨(t :: vs).length + j, ?_⟩
      rw [many_eq rfl ht, hs]
      simp only [List.length_cons] at hmany ⊢
      rw [hmany]
      rfl

end Phrase

/-! ## Parts that fail -/

namespace Nonterminal

open Filter Phrase

/-- What holds of all large budgets, and with it what costs `k` more. -/
theorem eventually_add {P Q : Nat → Prop} {k : Nat} (h : ∀ᶠ d in atTop, P d)
    (hQ : ∀ d, P d → Q (d + k)) : ∀ᶠ d in atTop, Q d := by
  rw [← map_add_atTop_eq_nat k, eventually_map]
  exact h.mono hQ

/-- With every budget that is large enough, the phrase of the nonterminal fails with the fault. -/
def Refuses (nt : Nonterminal) (f : ParseFault) (ts : List Token) : Prop :=
  ∀ᶠ d in atTop, (nt.phrase d).Fails f ts

variable {nt nt' : Nonterminal} {n n' : Node} {us ts pre post : List Token} {f : ParseFault}

theorem IsPhrase.eventually (h : nt.IsPhrase us n) : ∀ᶠ d in atTop, nt.Derives d us n := by
  obtain ⟨d₀, h⟩ := h
  exact (eventually_ge_atTop d₀).mono fun d hd => h.mono hd

/-- A condition is read in front of what stands behind the condition of a statement. -/
theorem Derives.reads_cond {d : Nat} (h : cond.Derives d us n) {t : Token}
    (ht : t.kind = .keyword .doKw ∨ t.kind = .keyword .thenKw) (ts : List Token) :
    ∃ c, (Phrase.cond d).Reads us c (t :: ts) := by
  obtain ⟨c, hc, -⟩ := h
  refine ⟨c, Phrase.reads_cond hc ?_⟩
  rw [frontKind_cons]
  rcases ht with ht | ht <;> rw [ht] <;> exact ⟨⟨rfl, rfl⟩, rfl, rfl⟩

/-- A chain of conditions is refused for an operand. -/
theorem Chains.refuses_right {op? : Kind → Option (Node → Node → Node)} {vs : List Token}
    {t : Token} {g : Node → Node → Node} {l : Node} (chain : Chains nt nt' op?)
    (kind : op? t.kind = some g) (left : nt.IsPhrase vs l) (harith : nt'.isArith = false)
    (h : nt'.Refuses f ts) : nt.Refuses f (vs ++ t :: ts) := by
  refine (h.and left.eventually).mono fun d ⟨h, hleft⟩ => ?_
  cases chain with
  | sum | product => cases harith
  | disjunction =>
    obtain ⟨op, hop, -⟩ := Option.map_eq_some_iff.mp kind
    obtain ⟨c, hc, -⟩ := hleft
    obtain ⟨harith, hconj⟩ := Kind.endsArith_of_disjunctive? hop
    exact fails_map.mpr (fails_chain (readsCond hc (t :: ts) harith hconj) hop (fails_map.mp h))
  | conjunction =>
    obtain ⟨op, hop, -⟩ := Option.map_eq_some_iff.mp kind
    obtain ⟨c, hc, -⟩ := hleft
    have harith := Kind.endsArith_of_conjunctive? hop
    exact fails_map.mpr (fails_chain (readsCond hc (t :: ts) harith) hop (fails_map.mp h))

/-- A phrase is refused for its part. -/
theorem Part.refuses (part : Part nt n pre us post nt' n') (harith : nt'.isArith = false)
    (hcomparison : nt' ≠ .comparison) (hf : ∀ t, f ≠ .noStatement t) (h : nt'.Refuses f ts) :
    nt.Refuses f (pre ++ ts) := by
  cases part with
  | operand chain =>
    cases chain with
    | sum | product => cases harith
    | disjunction | conjunction =>
      exact h.mono fun d h => fails_map.mpr ((fails_map.mp h).bind _)
  | left => exact h
  | right chain kind left =>
    rw [List.append_assoc, List.singleton_append]
    exact chain.refuses_right kind left harith h
  | group inside openKind =>
    cases inside with
    | arith => cases harith
    | cond =>
      refine eventually_add (k := 3) h fun d h => ?_
      exact fails_map.mpr (fails_conjunct_group openKind (fails_map.mp h))
  | negation kind =>
    refine eventually_add (k := 1) h fun d h => ?_
    exact fails_map.mpr (fails_conjunct_negation kind (fails_map.mp h))
  | comparison => exact absurd rfl hcomparison
  | compareLeft | compareRight | assign => cases harith
  | whileCond whileKind =>
    refine eventually_add (k := 3) h fun d h => ?_
    exact fails_map.mpr
      (fails_statement_while whileKind (fails_whileOf_cond whileKind (fails_map.mp h)))
  | whileBody whileKind condition doKind =>
    rw [List.cons_append, List.append_assoc, List.singleton_append]
    refine eventually_add (k := 3) (h.and condition.eventually) fun d ⟨h, hcond⟩ => ?_
    obtain ⟨c, hc⟩ := hcond.reads_cond (.inl doKind) ts
    exact fails_map.mpr
      (fails_statement_while whileKind (fails_whileOf_body whileKind hc doKind (fails_map.mp h)))
  | thenCond ifKind | elseCond ifKind =>
    refine eventually_add (k := 3) h fun d h => ?_
    exact fails_map.mpr (fails_statement_if ifKind (fails_ifOf_cond ifKind (fails_map.mp h)))
  | thenBranch ifKind condition thenKind | elseThenBranch ifKind condition thenKind =>
    rw [List.cons_append, List.append_assoc, List.singleton_append]
    refine eventually_add (k := 3) (h.and condition.eventually) fun d ⟨h, hcond⟩ => ?_
    obtain ⟨c, hc⟩ := hcond.reads_cond (.inr thenKind) ts
    exact fails_map.mpr
      (fails_statement_if ifKind (fails_ifOf_then ifKind hc thenKind (fails_map.mp h)))
  | @elseBranch ifT thenT elseT _ _ vs ws _ _ _ ifKind condition thenKind branch elseKind =>
    have htext : ifT :: (vs ++ thenT :: (ws ++ [elseT])) ++ ts
        = ifT :: (vs ++ thenT :: (ws ++ elseT :: ts)) := by simp
    rw [htext]
    refine eventually_add (k := 3) (h.and (condition.eventually.and branch.eventually))
      fun d ⟨h, hcond, hbranch⟩ => ?_
    obtain ⟨c, hc⟩ := hcond.reads_cond (.inr thenKind) (ws ++ elseT :: ts)
    obtain ⟨p, hp, -⟩ := hbranch
    have hthen : (Phrase.program d).Reads ws p (elseT :: ts) :=
      reads_program hp (by rw [frontKind_cons, elseKind]; rfl)
    exact fails_map.mpr (fails_statement_if ifKind
      (fails_ifOf_else ifKind hc thenKind hthen elseKind (fails_map.mp h)))
  | last | first => exact h.mono fun d h => fails_map.mpr ((fails_map.mp h).bind _)
  | rest first =>
    refine (h.and first.eventually).mono fun d ⟨h, hfirst⟩ => fails_map.mpr ?_
    obtain ⟨s, hs, -⟩ := hfirst
    have hrest := fails_many_of_program (fails_map.mp h) hf
    exact .behind (reads_statement hs ts) (hrest.bind _)

/-- A fault in a conjunct is one of everything that the conjunct is a part of. -/
theorem Span.refuses (span : Span nt n pre us post .conjunct n') (hf : ∀ t, f ≠ .noStatement t)
    (h : conjunct.Refuses f ts) : nt.Refuses f (pre ++ ts) := by
  generalize hc : Nonterminal.conjunct = c at span
  induction span with
  | whole =>
    subst hc
    exact h
  | @inside nt nt₁ nt₂ _ _ _ _ _ _ _ _ part span ih =>
    subst hc
    have harith : nt₁.isArith = false := by
      cases hne : nt₁.isArith with
      | false => rfl
      | true => exact absurd (span.isArith hne) Bool.false_ne_true
    have hcomparison : nt₁ ≠ .comparison := by
      rintro rfl
      rcases span.of_comparison with hconjunct | hconjunct <;> cases hconjunct
    rw [List.append_assoc]
    exact part.refuses harith hcomparison hf (ih rfl)

/-- Behind a parenthesis a conjunct is a condition, so an arithmetic expression that is closed there
is refused: it is no comparison. -/
theorem refuses_conjunct {opening closing : Token} (openKind : opening.kind = .symbol .lparen)
    (h : arith.IsPhrase us n) (front : frontKind us ≠ .symbol .lparen)
    (closeKind : closing.kind = .symbol .rparen) :
    conjunct.Refuses (.noComparison closing) (opening :: (us ++ closing :: ts)) := by
  refine eventually_add (k := 3) h.eventually fun b hb => fails_map.mpr ?_
  obtain ⟨e, he, -⟩ := hb
  obtain ⟨t, us, rfl, hstart⟩ := he.first
  have hread : (Phrase.arith b).Reads (t :: us) e (closing :: ts) := by
    refine reads_arith he ?_
    rw [frontKind_cons, closeKind]
    exact ⟨rfl, rfl⟩
  have hcomparison :
      (Phrase.comparison b).Fails (.noComparison closing) (t :: us ++ closing :: ts) := by
    refine .behind hread ⟨0, ?_⟩
    rw [peek_bind, List.headD_cons, closeKind]
    rfl
  have hconjunct :
      (Phrase.conjunct b).Fails (.noComparison closing) (t :: us ++ closing :: ts) := by
    rw [Fails, List.cons_append, conjunct_eq_comparison hstart front]
    exact hcomparison
  have hcond : (Phrase.cond b).Fails (.noComparison closing) (t :: us ++ closing :: ts) :=
    (hconjunct.bind _).bind _
  exact fails_conjunct_group openKind hcond

end Nonterminal

end WhileFrontend
