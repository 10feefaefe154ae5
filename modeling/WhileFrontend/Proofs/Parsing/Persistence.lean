import WhileFrontend.Proofs.Grammar.Shape
import WhileFrontend.Proofs.Parsing.Choice

/-!
# What an outcome depends on

A phrase decides on the tokens that it uses up and on the one behind them, and never on more, with
one exception: a name where a statement has to start is judged by the token after it. `lookahead`
counts the tokens that an outcome depends on. What is missing at the end of a list counts as end
markers. The budget counts for nothing as long as it suffices.

`Persists p q` puts the two together: what `p` makes of a list without running out of its budget,
`q` makes of every list that is the same as far as `p` has looked. It is shown of each phrase and
the same phrase within a budget that is no smaller (`persists_program`), and passes from the parts
of a phrase to the whole: reading one phrase after the other (`Persists.bind`), chains
(`persists_chain`) and sequences (`persists_many`). Only a statement has to be looked at closer
(`persists_statementOf`), because only there the second token is asked for.
-/

namespace WhileFrontend

/-- The tokens from the fault on that could still belong to a program: a name at the place of a
statement, which is refused for the token after it. -/
def ParseFault.pending : ParseFault → List Token
  | noStatement t => if t.kind = .ident then [t] else []
  | _ => []

theorem ParseFault.pending_noStatement {t : Token} (h : t.kind = .ident) :
    (noStatement t).pending = [t] :=
  if_pos h

/-- The first `n` tokens of the lists are the same. -/
def Agree (n : Nat) (ts us : List Token) : Prop :=
  ∀ i < n, ts.getD i .eof = us.getD i .eof

namespace Agree

variable {m n : Nat} {ts us : List Token}

theorem refl (n : Nat) (ts : List Token) : Agree n ts ts :=
  fun _ _ => rfl

theorem symm (h : Agree n ts us) : Agree n us ts :=
  fun i hi => (h i hi).symm

theorem mono (h : Agree n ts us) (hm : m ≤ n) : Agree m ts us :=
  fun i hi => h i (Nat.lt_of_lt_of_le hi hm)

theorem of_take_eq (h : ts.take n = us.take n) : Agree n ts us := by
  intro i hi
  have hget := congrArg (fun l => l.getD i Token.eof) h
  simpa [List.getD_eq_getElem?_getD, List.getElem?_take_of_lt hi] using hget

theorem drop (h : Agree (m + n) ts us) : Agree n (ts.drop m) (us.drop m) := by
  intro i hi
  have hget := h (m + i) (by omega)
  simpa [List.getD_eq_getElem?_getD] using hget

theorem headD (h : Agree n ts us) (hn : 0 < n) : us.headD .eof = ts.headD .eof := by
  have hget := h 0 hn
  cases ts <;> cases us <;> exact hget.symm

theorem frontKind (h : Agree n ts us) (hn : 0 < n) : frontKind us = frontKind ts :=
  congrArg Token.kind (h.headD hn)

/-- A list that starts like another one with a token that is no end marker has that token. -/
theorem exists_cons {t : Token} (h : Agree n (t :: ts) us) (hn : 0 < n) (ht : t.kind ≠ .eof) :
    ∃ vs, us = t :: vs := by
  have hhead := h.headD hn
  cases us with
  | nil =>
    obtain rfl : Token.eof = t := hhead
    exact absurd rfl ht
  | cons u vs =>
    obtain rfl : u = t := hhead
    exact ⟨vs, rfl⟩

end Agree

namespace Outcome

variable {α β : Type}

/-- The number of tokens that an outcome depends on: those used up, the one behind them, and a name
that is refused for the token after it. -/
def lookahead : Outcome α → Nat
  | ok _ n => n + 1
  | fail f n => n + 1 + f.pending.length

theorem lookahead_pos (o : Outcome α) : 0 < o.lookahead := by
  cases o with
  | ok a n => exact Nat.succ_pos n
  | fail f n => exact Nat.add_pos_left (Nat.succ_pos n) _

@[simp] theorem lookahead_after (n : Nat) (o : Outcome α) :
    (o.after n).lookahead = n + o.lookahead := by
  cases o <;> simp [after, lookahead, Nat.add_assoc]

@[simp] theorem lookahead_map (g : α → β) (o : Outcome α) : (o.map g).lookahead = o.lookahead := by
  cases o <;> rfl

/-- The budget has not run out. -/
def InBudget : Outcome α → Prop
  | ok _ _ => True
  | fail f _ => f ≠ .tooDeep

@[simp] theorem inBudget_after {n : Nat} {o : Outcome α} : (o.after n).InBudget ↔ o.InBudget := by
  cases o <;> exact Iff.rfl

@[simp] theorem inBudget_map {g : α → β} {o : Outcome α} : (o.map g).InBudget ↔ o.InBudget := by
  cases o <;> exact Iff.rfl

end Outcome

namespace Phrase

variable {α β : Type}

/-- What `p` makes of a list within its budget, `q` makes of every list that is the same as far as
`p` has looked. -/
def Persists (p q : Phrase α) : Prop :=
  ∀ ts us, (p ts).InBudget → Agree (p ts).lookahead ts us → q us = p ts

/-! ## Parts and wholes -/

theorem persists_pure (a : α) : Persists (Pure.pure a : Phrase α) (Pure.pure a) :=
  fun _ _ _ _ => rfl

theorem persists_fail (f : ParseFault) : Persists (fail f : Phrase α) (fail f) :=
  fun _ _ _ _ => rfl

theorem persists_advance : Persists advance advance :=
  fun _ _ _ _ => rfl

theorem Persists.bind {p q : Phrase α} {f g : α → Phrase β} (hp : Persists p q)
    (hf : ∀ a, Persists (f a) (g a)) : Persists (p >>= f) (q >>= g) := by
  intro ts us hbudget hagree
  rw [bind_apply] at hbudget hagree
  rw [bind_apply, bind_apply]
  cases hts : p ts with
  | ok a n =>
    simp only [hts, Outcome.lookahead_after, Outcome.inBudget_after] at hbudget hagree
    have hlook : (p ts).lookahead ≤ n + (f a (ts.drop n)).lookahead := by
      rw [hts]
      exact Nat.add_le_add_left (Outcome.lookahead_pos _) n
    have hus : q us = .ok a n :=
      (hp ts us (by rw [hts]; trivial) (hagree.mono hlook)).trans hts
    simp only [hus]
    rw [hf a _ _ hbudget hagree.drop]
  | fail e n =>
    simp only [hts] at hbudget hagree
    have hbudget' : (p ts).InBudget := by
      rw [hts]
      exact hbudget
    have hus : q us = .fail e n := (hp ts us hbudget' (by rwa [hts])).trans hts
    simp only [hus]

/-- What follows a look at the first token may depend on it. -/
theorem persists_peek_bind {f g : Token → Phrase β} (hf : ∀ t, Persists (f t) (g t)) :
    Persists (peek >>= f) (peek >>= g) := by
  intro ts us hbudget hagree
  rw [peek_bind] at hbudget hagree
  rw [peek_bind, peek_bind]
  rw [hagree.headD (Outcome.lookahead_pos _)]
  exact hf _ _ _ hbudget hagree

theorem persists_expect (k : Kind) : Persists (expect k) (expect k) := by
  refine persists_peek_bind fun t => ?_
  split
  · exact persists_advance.bind fun _ => persists_pure t
  · exact persists_fail _

theorem persists_nested {cost d d' : Nat} {p : Nat → Phrase α} (hd : d ≤ d')
    (h : ∀ b b', b + cost = d → b ≤ b' → Persists (p b) (p b')) :
    Persists (nested cost p d) (nested cost p d') := by
  intro ts us hbudget hagree
  by_cases hcost : cost ≤ d
  · have hcost' : cost ≤ d' := Nat.le_trans hcost hd
    rw [nested, if_pos hcost] at hbudget hagree
    rw [nested, nested, if_pos hcost, if_pos hcost']
    exact h _ _ (Nat.sub_add_cancel hcost) (Nat.sub_le_sub_right hd cost) _ _ hbudget hagree
  · rw [nested, if_neg hcost] at hbudget
    exact absurd rfl hbudget

section chain

variable {γ : Type} {op? : Kind → Option γ} {combine : γ → α → α → α} {operand operand' : Phrase α}

theorem persists_chainFrom (hend : op? .eof = none) (h : Persists operand operand') (left : α) :
    Persists (chainFrom op? combine operand left) (chainFrom op? combine operand' left) := by
  intro ts us hbudget hagree
  fun_induction chainFrom op? combine operand left ts generalizing us with
  | case1 left =>
    refine chainFrom_stop ?_
    rw [hagree.frontKind Nat.one_pos]
    exact hend
  | case2 left t rest hop =>
    refine chainFrom_stop ?_
    rw [hagree.frontKind Nat.one_pos]
    exact hop
  | case3 left t rest op hop f n hfail =>
    have hlook : (Outcome.fail f (n + 1) : Outcome α).lookahead = 1 + (operand rest).lookahead := by
      rw [hfail]
      simp only [Outcome.lookahead]
      omega
    obtain ⟨vs, rfl⟩ := hagree.exists_cons (Outcome.lookahead_pos _) (NoEnd.kind_ne hend hop)
    rw [hlook] at hagree
    have htail : Agree (operand rest).lookahead rest vs := hagree.drop
    have hbudget' : (operand rest).InBudget := by
      rw [hfail]
      exact hbudget
    have hvs : operand' vs = .fail f n := (h _ _ hbudget' htail).trans hfail
    rw [chainFrom_cons hop, hvs]
  | case4 left t rest op hop right n hright ih =>
    obtain ⟨vs, rfl⟩ := hagree.exists_cons (Outcome.lookahead_pos _) (NoEnd.kind_ne hend hop)
    rw [Outcome.inBudget_after] at hbudget
    rw [Outcome.lookahead_after] at hagree
    have hlook : 1 + (operand rest).lookahead ≤ n + 1 + (chainFrom op? combine operand
        (combine op left right) (rest.drop n)).lookahead := by
      have hpos := (chainFrom op? combine operand (combine op left right)
        (rest.drop n)).lookahead_pos
      rw [hright, Outcome.lookahead]
      omega
    have htail : Agree (operand rest).lookahead rest vs := (hagree.mono hlook).drop
    have hvs : operand' vs = .ok right n :=
      (h _ _ (by rw [hright]; trivial) htail).trans hright
    rw [chainFrom_cons hop, hvs]
    exact congrArg (Outcome.after (n + 1)) (ih _ hbudget hagree.drop)

theorem persists_chain (hend : op? .eof = none) (h : Persists operand operand') :
    Persists (chain op? combine operand) (chain op? combine operand') :=
  h.bind fun left => persists_chainFrom hend h left

end chain

theorem persists_many {starts : Kind → Bool} {item item' : Phrase α} (hend : starts .eof = false)
    (h : Persists item item') : Persists (many starts item) (many starts item') := by
  intro ts us hbudget hagree
  have hstarts : ∀ t : Token, starts t.kind = true → t.kind ≠ .eof := by
    intro t hstart ht
    simp [ht, hend] at hstart
  fun_induction many starts item ts generalizing us with
  | case1 =>
    refine many_stop ?_
    rw [hagree.frontKind Nat.one_pos]
    exact hend
  | case2 t rest hstart f n hfail =>
    obtain ⟨vs, rfl⟩ := hagree.exists_cons (Outcome.lookahead_pos _) (hstarts t hstart)
    have hbudget' : (item (t :: rest)).InBudget := by
      rw [hfail]
      exact hbudget
    have hvs : item' (t :: vs) = .fail f n :=
      (h (t :: rest) _ hbudget' (by rwa [hfail])).trans hfail
    rw [many, if_pos hstart, hvs]
  | case3 t rest hstart a ha =>
    obtain ⟨vs, rfl⟩ := hagree.exists_cons Nat.one_pos (hstarts t hstart)
    have hvs : item' (t :: vs) = .ok a 0 :=
      (h (t :: rest) _ (by rw [ha]; trivial) (by rwa [ha])).trans ha
    rw [many, if_pos hstart, hvs]
  | case4 t rest hstart a n ha ih =>
    obtain ⟨vs, rfl⟩ := hagree.exists_cons (Outcome.lookahead_pos _) (hstarts t hstart)
    rw [Outcome.inBudget_after, Outcome.inBudget_map] at hbudget
    rw [Outcome.lookahead_after, Outcome.lookahead_map] at hagree
    have hlook : (item (t :: rest)).lookahead
        ≤ n + 1 + (many starts item (rest.drop n)).lookahead := by
      rw [ha]
      exact Nat.add_le_add_left (Outcome.lookahead_pos _) (n + 1)
    have hvs : item' (t :: vs) = .ok a (n + 1) :=
      (h _ _ (by rw [ha]; trivial) (hagree.mono hlook)).trans ha
    have hdrop : Agree _ (rest.drop n) (vs.drop n) := hagree.drop
    rw [many, if_pos hstart, hvs]
    simp only [ih _ hbudget hdrop]
  | case5 t rest hstart =>
    refine many_stop ?_
    rw [hagree.frontKind Nat.one_pos]
    simpa using hstart

/-! ## Arithmetic expressions -/

theorem persists_factorOf {inner inner' : Phrase Arith} (h : Persists inner inner') :
    Persists (factorOf inner) (factorOf inner') := by
  refine persists_peek_bind fun t => ?_
  cases t.kind with
  | symbol s =>
    cases s with
    | lparen =>
      exact persists_advance.bind fun _ => h.bind fun e =>
        (persists_expect _).bind fun _ => persists_pure e
    | _ => exact persists_fail _
  | number =>
    cases t.int? with
    | some n => exact persists_advance.bind fun _ => persists_pure _
    | none => exact persists_fail _
  | ident =>
    cases t.text? with
    | some x => exact persists_advance.bind fun _ => persists_pure _
    | none => exact persists_fail _
  | _ => exact persists_fail _

theorem persists_arithOf {inner inner' : Phrase Arith} (h : Persists inner inner') :
    Persists (arithOf inner) (arithOf inner') :=
  persists_chain rfl (persists_chain rfl (persists_factorOf h))

theorem persists_arith {d d' : Nat} (hd : d ≤ d') : Persists (arith d) (arith d') := by
  induction d using Nat.strongRecOn generalizing d' with
  | _ d ih =>
    rw [arith_eq d, arith_eq d']
    exact persists_arithOf (persists_nested hd fun b b' hb hb' => ih b (by omega) hb')

/-! ## Conditions -/

theorem persists_comparisonOf {arith arith' : Phrase Arith} (h : Persists arith arith') :
    Persists (comparisonOf arith) (comparisonOf arith') := by
  refine h.bind fun left => persists_peek_bind fun t => ?_
  cases t.kind.relational? with
  | some op => exact persists_advance.bind fun _ => h.bind fun _ => persists_pure _
  | none => exact persists_fail _

theorem persists_conjunctOf {arith arith' : Phrase Arith}
    {inner inner' operand operand' : Phrase Cond} (ha : Persists arith arith')
    (hi : Persists inner inner') (ho : Persists operand operand') :
    Persists (conjunctOf arith inner operand) (conjunctOf arith' inner' operand') := by
  refine persists_peek_bind fun t => ?_
  have hcomparison : Persists (comparisonOf arith) (comparisonOf arith') := persists_comparisonOf ha
  cases t.kind with
  | symbol s =>
    cases s with
    | lparen =>
      exact persists_advance.bind fun _ => hi.bind fun c =>
        (persists_expect _).bind fun _ => persists_pure c
    | _ => exact hcomparison
  | keyword k =>
    cases k with
    | notKw => exact persists_advance.bind fun _ => ho.bind fun _ => persists_pure _
    | trueKw => exact persists_advance.bind fun _ => persists_pure _
    | falseKw => exact persists_advance.bind fun _ => persists_pure _
    | _ => exact hcomparison
  | _ => exact hcomparison

theorem persists_condOf {conjunct conjunct' : Phrase Cond} (h : Persists conjunct conjunct') :
    Persists (condOf conjunct) (condOf conjunct') :=
  persists_chain rfl (persists_chain rfl h)

theorem persists_conjunct {d d' : Nat} (hd : d ≤ d') : Persists (conjunct d) (conjunct d') := by
  induction d using Nat.strongRecOn generalizing d' with
  | _ d ih =>
    rw [conjunct_eq d, conjunct_eq d']
    exact persists_conjunctOf (persists_arith hd)
      (persists_nested hd fun b b' hb hb' => persists_condOf (ih b (by omega) hb'))
      (persists_nested hd fun b b' hb hb' => ih b (by omega) hb')

theorem persists_cond {d d' : Nat} (hd : d ≤ d') : Persists (cond d) (cond d') :=
  persists_condOf (persists_conjunct hd)

/-! ## Statements -/

section statements

variable {arith arith' : Phrase Arith} {cond cond' : Phrase Cond}
  {program program' : Phrase Program}

theorem persists_whileOf (hc : Persists cond cond') (hp : Persists program program') :
    Persists (whileOf cond program) (whileOf cond' program') :=
  (persists_expect _).bind fun _ => hc.bind fun _ => (persists_expect _).bind fun _ =>
    hp.bind fun _ => (persists_expect _).bind fun _ => persists_pure _

theorem persists_ifOf (hc : Persists cond cond') (hp : Persists program program') :
    Persists (ifOf cond program) (ifOf cond' program') := by
  refine (persists_expect _).bind fun _ => hc.bind fun _ => (persists_expect _).bind fun _ =>
    hp.bind fun _ => persists_peek_bind fun t => ?_
  split
  · exact persists_advance.bind fun _ => hp.bind fun _ =>
      (persists_expect _).bind fun _ => persists_pure _
  · exact (persists_expect _).bind fun _ => persists_pure _

theorem persists_skip : Persists skip skip :=
  (persists_expect _).bind fun _ => (persists_expect _).bind fun _ => persists_pure _

theorem persists_assignOf (h : Persists arith arith') :
    Persists (assignOf arith) (assignOf arith') := by
  refine (persists_expect _).bind fun target => ?_
  cases target.text? with
  | some x =>
    exact (persists_expect _).bind fun _ => h.bind fun _ =>
      (persists_expect _).bind fun _ => persists_pure _
  | none => exact persists_fail _

/-- An assignment that starts with a name has looked at the token after it. -/
theorem two_le_lookahead_assignOf {t : Token} {ts : List Token} (ht : t.kind = .ident) :
    2 ≤ (assignOf arith (t :: ts)).lookahead := by
  have hread : expect .ident (t :: ts) = .ok t 1 := reads_expect ht ts
  rw [assignOf, bind_of_ok hread, Outcome.lookahead_after]
  exact Nat.add_le_add_left (Outcome.lookahead_pos _) 1

theorem persists_statementOf (ha : Persists arith arith') (hc : Persists cond cond')
    (hp : Persists program program') :
    Persists (statementOf arith cond program) (statementOf arith' cond' program') := by
  intro ts us hbudget hagree
  have hhead := hagree.headD (Outcome.lookahead_pos _)
  cases ts with
  | nil =>
    have hus : us.headD .eof = .eof := hhead
    rw [statementOf, peek_bind, peekSecond_bind, hus]
    rfl
  | cons t rest =>
    by_cases ht : t.kind = .eof
    · have hus : us.headD .eof = t := hhead
      rw [statementOf, peek_bind, peekSecond_bind, statementOf_cons, hus, ht]
      rfl
    obtain ⟨vs, rfl⟩ := hagree.exists_cons (Outcome.lookahead_pos _) ht
    rw [statementOf_cons] at hbudget hagree
    rw [statementOf_cons, statementOf_cons]
    split at hagree
    · next hkind =>
      rw [hkind] at hbudget
      exact persists_whileOf hc hp _ _ hbudget hagree
    · next hkind =>
      rw [hkind] at hbudget
      exact persists_ifOf hc hp _ _ hbudget hagree
    · next hkind =>
      rw [hkind] at hbudget
      exact persists_skip _ _ hbudget hagree
    · next hident =>
      -- whichever way the second token decides, it has been looked at
      have hsecond : Agree 2 (t :: rest) (t :: vs) := by
        split at hagree
        · exact hagree.mono (two_le_lookahead_assignOf hident)
        · refine hagree.mono ?_
          rw [Outcome.lookahead, ParseFault.pending_noStatement hident]
          exact Nat.le_refl 2
      have htail : Agree 1 rest vs := fun i hi => hsecond (i + 1) (by omega)
      have hfront : frontKind vs = frontKind rest := htail.frontKind Nat.one_pos
      rw [hfront]
      by_cases hassign : frontKind rest = .symbol .assign
      · rw [hident] at hbudget
        simp only [if_pos hassign] at hbudget hagree ⊢
        exact persists_assignOf ha _ _ hbudget hagree
      · rw [if_neg hassign, if_neg hassign]
    · rfl

end statements

theorem persists_programOf {statement statement' : Phrase Stmt}
    (h : Persists statement statement') : Persists (programOf statement) (programOf statement') :=
  h.bind fun _ => (persists_many rfl h).bind fun _ => persists_pure _

theorem persists_statement {d d' : Nat} (hd : d ≤ d') : Persists (statement d) (statement d') := by
  induction d using Nat.strongRecOn generalizing d' with
  | _ d ih =>
    rw [statement_eq d, statement_eq d']
    exact persists_statementOf (persists_arith hd)
      (persists_nested hd fun b b' _ hb' => persists_cond hb')
      (persists_nested hd fun b b' hb hb' => persists_programOf (ih b (by omega) hb'))

/-- **What a program is parsed to depends on no token behind those that are looked at, and on no
budget that suffices.** -/
theorem persists_program {d d' : Nat} (hd : d ≤ d') : Persists (program d) (program d') :=
  persists_programOf (persists_statement hd)

end Phrase

end WhileFrontend
