import WhileFrontend.Proofs.Parsing.Choice
import WhileFrontend.Proofs.Parsing.Opened

/-!
# What a budget of nesting allows

A phrase that starts where `s` is open, with a budget that reaches up to some cost, stays within
that cost at every position up to where it ends or finds fault; if it is too deep, the cost of the
position where it breaks off is above the limit. `Phrase.Within` says this, and what a phrase leaves
open where it ends: an expression or a statement what was open before it (`Same`), a condition
perhaps some `not` more, whose operands are over only at the next token (`Trailing`).

The statement passes from the parts of a phrase to the whole. The limit stays the same all along:
what a phrase is nested in takes away from its budget what it adds to the cost (`within_nested`).
That chains and sequences cost nothing is in `within_chain` and `within_many`: behind an operator,
and behind a statement, there is open what was open before.
-/

namespace WhileFrontend

namespace Opened

variable {limit : Nat} {s s' : List Opened}

/-- What was open before is open again, within the limit. -/
def Same (limit : Nat) (s s' : List Opened) : Prop :=
  s' = s ∧ cost s ≤ limit

/-- What was open before is open again, with some `not` on top, within the limit. -/
def Trailing (limit : Nat) (s s' : List Opened) : Prop :=
  (∃ m, s' = List.replicate m negation ++ s) ∧ cost s' ≤ limit

theorem Same.trailing (h : Same limit s s') : Trailing limit s s' := by
  obtain ⟨rfl, hcost⟩ := h
  exact ⟨⟨0, rfl⟩, hcost⟩

theorem Trailing.settle_eq (h : Trailing limit s s') : settle s' = settle s := by
  obtain ⟨⟨m, rfl⟩, -⟩ := h
  exact settle_replicate_append m s

theorem Trailing.of_negation (h : Trailing limit (negation :: s) s') : Trailing limit s s' := by
  obtain ⟨⟨m, rfl⟩, hcost⟩ := h
  refine ⟨⟨m + 1, ?_⟩, hcost⟩
  rw [List.replicate_succ', List.append_assoc]
  rfl

end Opened

open Opened

namespace Outcome

variable {α β : Type} {limit : Nat} {s : List Opened} {P : List Opened → Prop} {ts : List Token}

/-- Where `s` is open before the tokens, the cost stays within the limit up to where the outcome is
found, and what is open there has the property `P`; or the cost there is above the limit and the
outcome is that the phrase is too deep. -/
def Within (limit : Nat) (s : List Opened) (P : List Opened → Prop) (ts : List Token) :
    Outcome α → Prop
  | ok _ n => (∀ i < n, cost (opened s (ts.take i)) ≤ limit) ∧ P (opened s (ts.take n))
  | fail f n =>
    if f = .tooDeep then limit < cost (opened s (ts.take n))
    else ∀ i ≤ n, cost (opened s (ts.take i)) ≤ limit

/-- An outcome behind tokens that stay within the limit. -/
theorem Within.after {n : Nat} {o : Outcome α}
    (hfront : ∀ i < n, cost (opened s (ts.take i)) ≤ limit)
    (h : o.Within limit (opened s (ts.take n)) P (ts.drop n)) :
    (o.after n).Within limit s P ts := by
  have hall : ∀ m, (∀ j < m, cost (opened (opened s (ts.take n)) ((ts.drop n).take j)) ≤ limit) →
      ∀ i < n + m, cost (opened s (ts.take i)) ≤ limit := by
    intro m hm i hi
    by_cases hin : i < n
    · exact hfront i hin
    · obtain ⟨j, rfl⟩ := Nat.exists_eq_add_of_le (Nat.not_lt.mp hin)
      rw [opened_take_add]
      exact hm j (by omega)
  cases o with
  | ok a m =>
    obtain ⟨hbefore, hP⟩ := h
    refine ⟨hall m hbefore, ?_⟩
    rwa [opened_take_add]
  | fail f m =>
    by_cases hf : f = .tooDeep
    · rw [Within, if_pos hf] at h
      rw [Outcome.after, Within, if_pos hf, opened_take_add]
      exact h
    · rw [Within, if_neg hf] at h
      rw [Outcome.after, Within, if_neg hf]
      intro i hi
      exact hall (m + 1) (fun j hj => h j (by omega)) i (by omega)

/-- An outcome behind one token. -/
theorem Within.cons {t : Token} {o : Outcome α} (hs : cost s ≤ limit)
    (h : o.Within limit (behind s t.kind) P ts) : (o.after 1).Within limit s P (t :: ts) := by
  refine Within.after (fun i hi => ?_) h
  obtain rfl : i = 0 := by omega
  exact hs

/-- An outcome that uses no token. -/
theorem within_ok (a : α) (h : P s) : (ok a 0).Within limit s P ts :=
  ⟨fun i hi => absurd hi (Nat.not_lt_zero i), h⟩

/-- A fault in the first token. -/
theorem within_fail {f : ParseFault} (hf : f ≠ .tooDeep) (hs : cost s ≤ limit) :
    (fail f 0 : Outcome α).Within limit s P ts := by
  rw [Within, if_neg hf]
  intro i hi
  obtain rfl : i = 0 := by omega
  exact hs

/-- A failure says the same of any phrase. -/
theorem Within.of_fail {Q : List Opened → Prop} {f : ParseFault} {n : Nat}
    (h : (fail f n : Outcome α).Within limit s P ts) : (fail f n : Outcome β).Within limit s Q ts :=
  h

end Outcome

namespace Phrase

variable {α β : Type} {limit : Nat} {s : List Opened} {P Q : List Opened → Prop}

/-- On every token list, the phrase stays within the limit or breaks off above it. -/
def Within (limit : Nat) (s : List Opened) (P : List Opened → Prop) (p : Phrase α) : Prop :=
  ∀ ts, (p ts).Within limit s P ts

/-! ## Parts and wholes -/

theorem within_pure (a : α) (h : P s) : (Pure.pure a : Phrase α).Within limit s P :=
  fun _ => Outcome.within_ok a h

theorem within_fail {f : ParseFault} (hf : f ≠ .tooDeep) (hs : cost s ≤ limit) :
    (fail f : Phrase α).Within limit s P :=
  fun _ => Outcome.within_fail hf hs

theorem Within.bind {p : Phrase α} {f : α → Phrase β} (hp : p.Within limit s P)
    (hf : ∀ a s', P s' → (f a).Within limit s' Q) : (p >>= f).Within limit s Q := by
  intro ts
  have hts := hp ts
  rw [bind_apply]
  cases h : p ts with
  | ok a n =>
    rw [h] at hts
    obtain ⟨hfront, hP⟩ := hts
    exact Outcome.Within.after hfront (hf a _ hP _)
  | fail g n =>
    rw [h] at hts
    exact hts.of_fail

theorem within_expect_bind {k : Kind} {f : Token → Phrase β} (hs : cost s ≤ limit)
    (hf : ∀ t, (f t).Within limit (behind s k) Q) : (expect k >>= f).Within limit s Q := by
  have hexpect : (expect k).Within limit s (· = behind s k) := by
    intro ts
    rw [expect_apply]
    split
    · next hkind =>
      subst hkind
      cases ts with
      | nil =>
        refine ⟨fun i _ => ?_, rfl⟩
        rw [List.take_nil]
        exact hs
      | cons t rest => exact Outcome.Within.cons hs (Outcome.within_ok t rfl)
    · exact Outcome.within_fail nofun hs
  refine hexpect.bind fun t s' hs' => ?_
  rw [hs']
  exact hf t

theorem Within.mono {p : Phrase α} (h : p.Within limit s P) (hPQ : ∀ s', P s' → Q s') :
    p.Within limit s Q := by
  intro ts
  have hts := h ts
  cases hp : p ts with
  | ok a n =>
    rw [hp] at hts
    exact ⟨hts.1, hPQ _ hts.2⟩
  | fail f n =>
    rw [hp] at hts
    exact hts.of_fail

/-- The cost of a nested phrase is taken from its budget. -/
theorem within_nested {c d : Nat} {p : Nat → Phrase α} (hdeep : d < c → limit < cost s)
    (h : ∀ b, b + c = d → (p b).Within limit s P) : (nested c p d).Within limit s P := by
  unfold nested
  split
  · next hcost => exact h (d - c) (Nat.sub_add_cancel hcost)
  · next hcost => exact fun _ => hdeep (Nat.not_le.mp hcost)

section chain

variable {γ : Type} {op? : Kind → Option γ} {combine : γ → α → α → α} {operand : Phrase α}

theorem within_chainFrom (hop : ∀ k op s', op? k = some op → P s' → behind s' k = s)
    (hP : ∀ s', P s' → cost s' ≤ limit) (h : operand.Within limit s P) {s' : List Opened}
    (hs' : P s') (left : α) : (chainFrom op? combine operand left).Within limit s' P := by
  intro ts
  fun_induction chainFrom op? combine operand left ts generalizing s' with
  | case1 left => exact Outcome.within_ok left hs'
  | case2 left t rest _ => exact Outcome.within_ok left hs'
  | case3 left t rest op hkind f n hfail =>
    have hrest := h rest
    rw [← hop _ _ _ hkind hs', hfail] at hrest
    rw [Nat.add_comm]
    exact Outcome.Within.cons (hP _ hs') hrest
  | case4 left t rest op hkind right n hright ih =>
    have hrest := h rest
    rw [← hop _ _ _ hkind hs', hright] at hrest
    obtain ⟨hfront, hn⟩ := hrest
    have hloop := Outcome.Within.after hfront (ih hn)
    rw [Nat.add_comm, ← Outcome.after_after]
    exact Outcome.Within.cons (hP _ hs') hloop

/-- A chain starts each of its operands where it started itself, so its length costs nothing. -/
theorem within_chain (hop : ∀ k op s', op? k = some op → P s' → behind s' k = s)
    (hP : ∀ s', P s' → cost s' ≤ limit) (h : operand.Within limit s P) :
    (chain op? combine operand).Within limit s P :=
  h.bind fun left _ hs' => within_chainFrom hop hP h hs' left

end chain

/-- So does a sequence with each of its items. -/
theorem within_many {starts : Kind → Bool} {item : Phrase α} (hs : cost s ≤ limit)
    (h : item.Within limit s (Same limit s)) :
    (many starts item).Within limit s (Same limit s) := by
  intro ts
  fun_induction many starts item ts with
  | case1 => exact Outcome.within_ok [] ⟨rfl, hs⟩
  | case2 t rest _ f n hfail =>
    have hitem := h (t :: rest)
    rw [hfail] at hitem
    exact hitem.of_fail
  | case3 t rest _ a ha => exact Outcome.within_ok [a] ⟨rfl, hs⟩
  | case4 t rest _ a n ha ih =>
    have hitem := h (t :: rest)
    rw [ha] at hitem
    obtain ⟨hfront, hsame, -⟩ := hitem
    refine Outcome.Within.after hfront ?_
    rw [hsame]
    revert ih
    cases many starts item (rest.drop n) <;> exact id
  | case5 t rest _ => exact Outcome.within_ok [] ⟨rfl, hs⟩

/-! ## Arithmetic expressions -/

theorem within_factorOf {inner : Phrase Arith} (hs : cost s ≤ limit)
    (h : inner.Within limit (group :: s) (Same limit (group :: s))) :
    (factorOf inner).Within limit s (Same limit s) := by
  intro ts
  cases ts with
  | nil => exact Outcome.within_fail nofun hs
  | cons t rest =>
    rw [factorOf_cons]
    split
    · next hkind =>
      refine Outcome.Within.cons hs ?_
      rw [hkind]
      refine h.bind (fun e s' hs' => ?_) rest
      obtain ⟨rfl, hcost⟩ := hs'
      exact within_expect_bind hcost fun _ => within_pure e ⟨rfl, hs⟩
    · next hkind =>
      cases t.int? with
      | some n =>
        refine Outcome.Within.cons hs (Outcome.within_ok _ ?_)
        rw [hkind]
        exact ⟨rfl, hs⟩
      | none => exact Outcome.within_fail nofun hs
    · next hkind =>
      cases t.text? with
      | some x =>
        refine Outcome.Within.cons hs (Outcome.within_ok _ ?_)
        rw [hkind]
        exact ⟨rfl, hs⟩
      | none => exact Outcome.within_fail nofun hs
    · exact Outcome.within_fail nofun hs

theorem behind_of_multiplicative? {k : Kind} {op : ArithOp} (h : k.multiplicative? = some op)
    (s : List Opened) : behind s k = s := by
  unfold Kind.multiplicative? at h
  split at h <;> first | rfl | cases h

theorem behind_of_additive? {k : Kind} {op : ArithOp} (h : k.additive? = some op)
    (s : List Opened) : behind s k = s := by
  unfold Kind.additive? at h
  split at h <;> first | rfl | cases h

theorem within_arithOf {inner : Phrase Arith} (hs : cost s ≤ limit)
    (h : inner.Within limit (group :: s) (Same limit (group :: s))) :
    (arithOf inner).Within limit s (Same limit s) := by
  have hcost : ∀ s', Same limit s s' → cost s' ≤ limit := by
    rintro s' ⟨rfl, hs'⟩
    exact hs'
  have hsummand : (summandOf inner).Within limit s (Same limit s) := by
    refine within_chain ?_ hcost (within_factorOf hs h)
    rintro k op s' hop ⟨rfl, -⟩
    exact behind_of_multiplicative? hop s'
  refine within_chain ?_ hcost hsummand
  rintro k op s' hop ⟨rfl, -⟩
  exact behind_of_additive? hop s'

theorem within_arith {d : Nat} (hd : limit = d + cost s) :
    (arith d).Within limit s (Same limit s) := by
  induction d using Nat.strongRecOn generalizing s with
  | _ d ih =>
    rw [arith_eq]
    refine within_arithOf (by omega) (within_nested ?_ fun b hb => ih b (by omega) ?_)
    all_goals
      rw [cost_group]
      omega

/-! ## Conditions -/

theorem behind_of_relational? {k : Kind} {op : RelOp} (h : k.relational? = some op)
    (s : List Opened) : behind s k = s := by
  unfold Kind.relational? at h
  split at h <;> first | rfl | cases h

theorem within_comparisonOf {arith : Phrase Arith} (h : arith.Within limit s (Same limit s)) :
    (comparisonOf arith).Within limit s (Same limit s) := by
  refine h.bind fun left s' hs' => ?_
  obtain ⟨rfl, hcost⟩ := hs'
  intro ts
  rw [peek_bind]
  cases hop : (ts.headD .eof).kind.relational? with
  | none => exact Outcome.within_fail nofun hcost
  | some op =>
    cases ts with
    | nil => cases hop
    | cons t rest =>
      have hbehind : behind s' t.kind = s' := behind_of_relational? hop s'
      refine Outcome.Within.cons hcost ?_
      rw [hbehind]
      exact h.bind (fun right s' hs' => within_pure _ hs') rest

theorem within_conjunctOf {arith : Phrase Arith} {inner operand : Phrase Cond}
    (hs : cost s ≤ limit) (ha : arith.Within limit s (Same limit s))
    (hi : inner.Within limit (group :: s) (Trailing limit (group :: s)))
    (ho : operand.Within limit (negation :: s) (Trailing limit (negation :: s))) :
    (conjunctOf arith inner operand).Within limit s (Trailing limit s) := by
  have hsame : Same limit s s := ⟨rfl, hs⟩
  have hcomparison : (comparisonOf arith).Within limit s (Trailing limit s) :=
    (within_comparisonOf ha).mono fun _ hs' => hs'.trailing
  intro ts
  cases ts with
  | nil =>
    rw [conjunctOf_nil]
    exact hcomparison []
  | cons t rest =>
    rw [conjunctOf_cons]
    split
    · next hkind =>
      refine Outcome.Within.cons hs ?_
      rw [hkind]
      refine hi.bind (fun c s' hs' => within_expect_bind hs'.2 fun _ => within_pure c ?_) rest
      have hbehind : behind s' (.symbol .rparen) = s := congrArg List.tail hs'.settle_eq
      rw [hbehind]
      exact hsame.trailing
    · next hkind =>
      refine Outcome.Within.cons hs ?_
      rw [hkind]
      exact ho.bind (fun c s' hs' => within_pure _ hs'.of_negation) rest
    · next hkind =>
      refine Outcome.Within.cons hs (Outcome.within_ok _ ?_)
      rw [hkind]
      exact hsame.trailing
    · next hkind =>
      refine Outcome.Within.cons hs (Outcome.within_ok _ ?_)
      rw [hkind]
      exact hsame.trailing
    · exact hcomparison (t :: rest)

theorem behind_of_conjunctive? {k : Kind} {op : BoolOp} (h : k.conjunctive? = some op)
    (s : List Opened) : behind s k = settle s := by
  unfold Kind.conjunctive? at h
  split at h <;> first | rfl | cases h

theorem behind_of_disjunctive? {k : Kind} {op : BoolOp} (h : k.disjunctive? = some op)
    (s : List Opened) : behind s k = settle s := by
  unfold Kind.disjunctive? at h
  split at h <;> first | rfl | cases h

/-- A connective takes a condition back to where it started, which is not right behind a `not`. -/
theorem within_condOf {conjunct : Phrase Cond} (hs : settle s = s)
    (h : conjunct.Within limit s (Trailing limit s)) :
    (condOf conjunct).Within limit s (Trailing limit s) := by
  have hcost : ∀ s', Trailing limit s s' → cost s' ≤ limit := fun s' hs' => hs'.2
  have hdisjunct : (disjunctOf conjunct).Within limit s (Trailing limit s) :=
    within_chain (fun k op s' hop hs' =>
      (behind_of_conjunctive? hop s').trans (hs'.settle_eq.trans hs)) hcost h
  exact within_chain (fun k op s' hop hs' =>
    (behind_of_disjunctive? hop s').trans (hs'.settle_eq.trans hs)) hcost hdisjunct

theorem within_conjunct {d : Nat} (hd : limit = d + cost s) :
    (conjunct d).Within limit s (Trailing limit s) := by
  induction d using Nat.strongRecOn generalizing s with
  | _ d ih =>
    rw [conjunct_eq]
    refine within_conjunctOf (by omega) (within_arith hd)
      (within_nested ?_ fun b hb => within_condOf rfl (ih b (by omega) ?_))
      (within_nested ?_ fun b hb => ih b (by omega) ?_)
    all_goals
      simp only [cost_group, cost_negation]
      omega

theorem within_cond {d : Nat} (hs : settle s = s) (hd : limit = d + cost s) :
    (cond d).Within limit s (Trailing limit s) :=
  within_condOf hs (within_conjunct hd)

/-! ## Statements -/

section statements

variable {arith : Phrase Arith} {cond : Phrase Cond} {program : Phrase Program}

theorem within_whileOf (hs : cost s ≤ limit)
    (hc : cond.Within limit (group :: s) (Trailing limit (group :: s)))
    (hp : program.Within limit (group :: s) (Same limit (group :: s))) :
    (whileOf cond program).Within limit s (Same limit s) := by
  refine within_expect_bind hs fun _ => hc.bind fun c s₁ hs₁ => ?_
  refine within_expect_bind hs₁.2 fun _ => ?_
  have hdo : behind s₁ (.keyword .doKw) = group :: s := hs₁.settle_eq
  rw [hdo]
  refine hp.bind fun body s₂ hs₂ => ?_
  obtain ⟨rfl, hcost⟩ := hs₂
  exact within_expect_bind hcost fun _ => within_pure _ ⟨rfl, hs⟩

theorem within_ifOf (hs : cost s ≤ limit)
    (hc : cond.Within limit (group :: s) (Trailing limit (group :: s)))
    (hp : program.Within limit (group :: s) (Same limit (group :: s))) :
    (ifOf cond program).Within limit s (Same limit s) := by
  refine within_expect_bind hs fun _ => hc.bind fun c s₁ hs₁ => ?_
  refine within_expect_bind hs₁.2 fun _ => ?_
  have hthen : behind s₁ (.keyword .thenKw) = group :: s := hs₁.settle_eq
  rw [hthen]
  refine hp.bind fun thenBranch s₂ hs₂ => ?_
  obtain ⟨rfl, hcost⟩ := hs₂
  intro ts
  rw [peek_bind]
  split
  · next helse =>
    cases ts with
    | nil => cases helse
    | cons t rest =>
      rw [advance_bind_cons]
      refine Outcome.Within.cons hcost ?_
      have ht : t.kind = .keyword .elseKw := helse
      rw [ht]
      refine hp.bind (fun elseBranch s₃ hs₃ => ?_) rest
      obtain ⟨rfl, -⟩ := hs₃
      exact within_expect_bind hcost fun _ => within_pure _ ⟨rfl, hs⟩
  · exact within_expect_bind hcost (fun _ => within_pure _ ⟨rfl, hs⟩) ts

theorem within_skip (hs : cost s ≤ limit) : skip.Within limit s (Same limit s) :=
  within_expect_bind hs fun _ => within_expect_bind hs fun _ => within_pure _ ⟨rfl, hs⟩

theorem within_assignOf (hs : cost s ≤ limit) (ha : arith.Within limit s (Same limit s)) :
    (assignOf arith).Within limit s (Same limit s) := by
  refine within_expect_bind hs fun target => ?_
  cases target.text? with
  | none => exact within_fail nofun hs
  | some x =>
    refine within_expect_bind hs fun _ => ha.bind fun e s' hs' => ?_
    obtain ⟨rfl, -⟩ := hs'
    exact within_expect_bind hs fun _ => within_pure _ ⟨rfl, hs⟩

theorem within_statementOf (hs : cost s ≤ limit) (ha : arith.Within limit s (Same limit s))
    (hc : cond.Within limit (group :: s) (Trailing limit (group :: s)))
    (hp : program.Within limit (group :: s) (Same limit (group :: s))) :
    (statementOf arith cond program).Within limit s (Same limit s) := by
  intro ts
  cases ts with
  | nil => exact Outcome.within_fail nofun hs
  | cons t rest =>
    rw [statementOf_cons]
    split
    · exact within_whileOf hs hc hp (t :: rest)
    · exact within_ifOf hs hc hp (t :: rest)
    · exact within_skip hs (t :: rest)
    · split
      · exact within_assignOf hs ha (t :: rest)
      · exact Outcome.within_fail nofun hs
    · exact Outcome.within_fail nofun hs

end statements

theorem within_programOf {statement : Phrase Stmt} (hs : cost s ≤ limit)
    (h : statement.Within limit s (Same limit s)) :
    (programOf statement).Within limit s (Same limit s) := by
  refine h.bind fun first s' hs' => ?_
  obtain ⟨rfl, -⟩ := hs'
  exact (within_many hs h).bind fun rest s' hs' => within_pure _ hs'

theorem within_statement {d : Nat} (hd : limit = d + cost s) :
    (statement d).Within limit s (Same limit s) := by
  induction d using Nat.strongRecOn generalizing s with
  | _ d ih =>
    rw [statement_eq]
    refine within_statementOf (by omega) (within_arith hd)
      (within_nested ?_ fun b hb => within_cond rfl ?_)
      (within_nested ?_ fun b hb => within_programOf ?_ (ih b (by omega) ?_))
    all_goals
      rw [cost_group]
      omega

/-- **A budget of nesting is a limit on the cost of positions.** Up to where a program ends or finds
fault, no position costs more than the budget; where it is too deep, the position does. -/
theorem within_program (d : Nat) : (program d).Within d [] (Same d []) :=
  within_programOf (Nat.zero_le d) (within_statement rfl)

end Phrase

end WhileFrontend
