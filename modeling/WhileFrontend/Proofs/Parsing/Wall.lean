import WhileFrontend.Proofs.Parsing.EntryPoints
import WhileFrontend.Proofs.Parsing.Limit

/-!
# The end marker is a wall

No phrase uses an end marker up, and none depends on what stands behind the first (`Walled`),
however deeply it is nested. So the end of a list and an explicit end marker are the same, and
whatever follows the marker is ignored.

`WalledAt` states this of one token list, because a phrase that uses up the token it has looked at
does so only where that token is no end marker (`walledBehind_advance_bind`). From there it passes
from the parts of a phrase to the whole, in the order of the definitions.

Together with what an outcome depends on within the budget (`phrase_eq_of_agree`), this bounds the
tokens that two runs have to share in order to end alike (`read_eq_of_agreeFrom`).
-/

namespace WhileFrontend

/-! ## Tokens before the end -/

theorem beforeEnd_cons {t : Token} (ht : t.kind ≠ .eof) (ts : List Token) :
    beforeEnd (t :: ts) = t :: beforeEnd ts :=
  List.takeWhile_cons_of_pos (by simpa using ht)

theorem length_beforeEnd_le (ts : List Token) : (beforeEnd ts).length ≤ ts.length :=
  (List.takeWhile_sublist _).length_le

/-- Tokens before the end may be left out. -/
theorem add_length_beforeEnd_drop {ts : List Token} {n : Nat} (h : n ≤ (beforeEnd ts).length) :
    n + (beforeEnd (ts.drop n)).length = (beforeEnd ts).length := by
  induction n generalizing ts with
  | zero => rw [Nat.zero_add, List.drop_zero]
  | succ n ih =>
    cases ts with
    | nil => cases h
    | cons t ts =>
      by_cases ht : t.kind = .eof
      · have hnil : beforeEnd (t :: ts) = [] := List.takeWhile_cons_of_neg (by simpa using ht)
        rw [hnil] at h
        cases h
      · rw [beforeEnd_cons ht, List.length_cons] at h ⊢
        have hrest := ih (Nat.le_of_succ_le_succ h)
        rw [List.drop_succ_cons]
        omega

/-- No token before the end is an end marker. -/
theorem kind_ne_of_lt_length_beforeEnd {ts : List Token} {i : Nat}
    (h : i < (beforeEnd ts).length) : (ts.getD i .eof).kind ≠ .eof := by
  obtain ⟨rest, hrest⟩ : beforeEnd ts <+: ts := List.takeWhile_prefix _
  have hget : (beforeEnd ts ++ rest).getD i .eof = (beforeEnd ts)[i] := by
    rw [List.getD_eq_getElem?_getD, List.getElem?_append_left h, List.getElem?_eq_getElem h,
      Option.getD_some]
  rw [hrest] at hget
  rw [hget]
  have hall := List.all_takeWhile (p := fun t : Token => decide (t.kind ≠ .eof)) (l := ts)
  simpa using List.all_eq_true.mp hall _ (List.getElem_mem h)

theorem kind_ne_of_lt_add {ts : List Token} {p k i : Nat}
    (hk : k ≤ (beforeEnd (ts.drop p)).length) (hi : p ≤ i) (hik : i < p + k) :
    (ts.getD i .eof).kind ≠ .eof := by
  have hlt : i - p < (beforeEnd (ts.drop p)).length := by omega
  have hkind := kind_ne_of_lt_length_beforeEnd hlt
  rwa [List.getD_eq_getElem?_getD, List.getElem?_drop, Nat.add_sub_cancel' hi,
    ← List.getD_eq_getElem?_getD] at hkind

namespace Phrase

variable {α β : Type} {p : Phrase α} {f : α → Phrase β} {ts : List Token}

/-- On this list the phrase uses tokens before the end only, and gives the same on every list that
is the same up to the first end marker. -/
def WalledAt (p : Phrase α) (ts : List Token) : Prop :=
  (p ts).used ≤ (beforeEnd ts).length ∧
    ∀ us, Agree ((beforeEnd ts).length + 1) ts us → p us = p ts

/-- On every list the phrase uses tokens before the end only and depends on none behind it. -/
def Walled (p : Phrase α) : Prop :=
  ∀ ts, p.WalledAt ts

/-- The same on the lists whose first token is the given one. -/
def WalledBehind (t : Token) (p : Phrase α) : Prop :=
  ∀ ts, ts.headD .eof = t → p.WalledAt ts

/-! ## Parts and wholes -/

theorem walled_pure (a : α) : (Pure.pure a : Phrase α).Walled :=
  fun _ => ⟨Nat.zero_le _, fun _ _ => rfl⟩

theorem walled_fail (f : ParseFault) : (fail f : Phrase α).Walled :=
  fun _ => ⟨Nat.zero_le _, fun _ _ => rfl⟩

theorem Walled.behind (h : p.Walled) (t : Token) : p.WalledBehind t :=
  fun ts _ => h ts

theorem WalledAt.bind (hp : p.WalledAt ts)
    (hf : ∀ a n, p ts = .ok a n → (f a).WalledAt (ts.drop n)) : (p >>= f).WalledAt ts := by
  obtain ⟨hused, hsame⟩ := hp
  simp only [WalledAt, bind_apply]
  cases hts : p ts with
  | ok a n =>
    obtain ⟨hused', hsame'⟩ := hf a n hts
    rw [hts, Outcome.used] at hused
    have hdrop := add_length_beforeEnd_drop hused
    refine ⟨?_, fun us hagree => ?_⟩
    · rw [Outcome.used_after]
      omega
    · rw [← hdrop, Nat.add_assoc] at hagree
      have hus : p us = .ok a n := (hsame us (by rwa [← hdrop, Nat.add_assoc])).trans hts
      simp only [hus, hsame' _ hagree.drop]
  | fail g n =>
    rw [hts] at hused
    refine ⟨hused, fun us hagree => ?_⟩
    have hus : p us = .fail g n := (hsame us hagree).trans hts
    simp only [hus]

theorem WalledAt.congr {q : Phrase α} (h : q.WalledAt ts)
    (hpq : ∀ us, us.headD .eof = ts.headD .eof → p us = q us) : p.WalledAt ts := by
  obtain ⟨hused, hsame⟩ := h
  refine ⟨by rwa [hpq ts rfl], fun us hagree => ?_⟩
  rw [hpq ts rfl, hpq us (hagree.headD (Nat.succ_pos _))]
  exact hsame us hagree

/-- In front of the second token the phrase may depend on its kind, because the first one is no end
marker. -/
theorem WalledAt.congr_second {q : Phrase α} {t : Token} {rest : List Token}
    (h : q.WalledAt (t :: rest)) (ht : t.kind ≠ .eof)
    (hpq : ∀ vs, frontKind vs = frontKind rest → p (t :: vs) = q (t :: vs)) :
    p.WalledAt (t :: rest) := by
  obtain ⟨hused, hsame⟩ := h
  refine ⟨by rwa [hpq rest rfl], fun us hagree => ?_⟩
  obtain ⟨vs, rfl⟩ := hagree.exists_cons (Nat.succ_pos _) ht
  have htail : Agree 1 rest vs := by
    rw [beforeEnd_cons ht, List.length_cons] at hagree
    exact fun i hi => hagree (i + 1) (by omega)
  rw [hpq rest rfl, hpq vs (htail.frontKind Nat.one_pos)]
  exact hsame _ hagree

theorem Walled.bind (hp : p.Walled) (hf : ∀ a, (f a).Walled) : (p >>= f).Walled :=
  fun ts => (hp ts).bind fun a _ _ => hf a _

/-- What follows a look at the first token may use that token up. -/
theorem walled_peek_bind {f : Token → Phrase β} (hf : ∀ t, (f t).WalledBehind t) :
    (peek >>= f).Walled := by
  intro ts
  obtain ⟨hused, hsame⟩ := hf _ ts rfl
  refine ⟨by rwa [peek_bind], fun us hagree => ?_⟩
  rw [peek_bind, peek_bind, hagree.headD (Nat.succ_pos _)]
  exact hsame us hagree

/-- A token that is no end marker may be used up. -/
theorem walledAt_advance {t : Token} (ht : t.kind ≠ .eof) (rest : List Token) :
    advance.WalledAt (t :: rest) := by
  refine ⟨?_, fun _ _ => rfl⟩
  rw [beforeEnd_cons ht]
  exact Nat.succ_le_succ (Nat.zero_le _)

theorem walledBehind_advance_bind {t : Token} (ht : t.kind ≠ .eof) {f : Unit → Phrase β}
    (hf : (f ()).Walled) : (advance >>= f).WalledBehind t := by
  rintro (_ | ⟨u, rest⟩) hhead
  · obtain rfl : Token.eof = t := hhead
    exact absurd rfl ht
  · obtain rfl : u = t := hhead
    exact (walledAt_advance ht rest).bind fun _ _ _ => hf _

theorem walled_expect {k : Kind} (hk : k ≠ .eof) : (expect k).Walled := by
  refine walled_peek_bind fun t => ?_
  split
  · next ht => exact walledBehind_advance_bind (by rwa [ht]) (walled_pure t)
  · exact (walled_fail _).behind t

theorem walled_nested {cost d : Nat} {p : Nat → Phrase α}
    (h : ∀ b, b + cost = d → (p b).Walled) : (nested cost p d).Walled := by
  unfold nested
  split
  · next hcost => exact h _ (Nat.sub_add_cancel hcost)
  · exact walled_fail _

theorem Walled.map (h : p.Walled) (g : α → β) : (p.map g).Walled := by
  intro ts
  refine ⟨?_, fun us hagree => congrArg (Outcome.map g) ((h ts).2 us hagree)⟩
  rw [Phrase.map, Outcome.used_map]
  exact (h ts).1

section chain

variable {γ : Type} {op? : Kind → Option γ} {combine : γ → α → α → α} {operand : Phrase α}

/-- The loop goes on behind an operator as behind what has been used up so far. -/
theorem chainFrom_eq_bind {t : Token} {op : γ} (hop : op? t.kind = some op) (left : α)
    (rest : List Token) :
    chainFrom op? combine operand left (t :: rest) = (do
      advance
      let right ← operand
      chainFrom op? combine operand (combine op left right) : Phrase α) (t :: rest) := by
  rw [chainFrom_cons hop, advance_bind_cons, bind_apply]
  cases operand rest with
  | ok right n => rw [Outcome.after_after, Nat.add_comm]
  | fail f n => rw [Outcome.after, Nat.add_comm]

theorem walled_chainFrom (hend : op? .eof = none) (h : operand.Walled) (left : α) :
    (chainFrom op? combine operand left).Walled := by
  intro ts
  induction hlength : ts.length using Nat.strongRecOn generalizing left ts with
  | _ n ih =>
    cases hop : op? (frontKind ts) with
    | none =>
      refine (walled_pure left ts).congr fun us hus => ?_
      rw [chainFrom_stop]
      · rfl
      · rwa [frontKind, hus]
    | some op =>
      have ht : frontKind ts ≠ .eof := NoEnd.kind_ne hend hop
      cases ts with
      | nil => exact absurd rfl ht
      | cons t rest =>
        have hloop : (do
            advance
            let right ← operand
            chainFrom op? combine operand (combine op left right) : Phrase α).WalledAt
              (t :: rest) := by
          refine (walledAt_advance ht rest).bind fun _ _ hused => ?_
          obtain ⟨-, rfl⟩ := Outcome.ok.inj hused
          refine (h rest).bind fun right k _ => ih _ ?_ _ _ rfl
          rw [← hlength, List.length_drop, List.length_cons]
          omega
        refine hloop.congr fun us hus => ?_
        cases us with
        | nil =>
          obtain rfl : Token.eof = t := hus
          exact absurd rfl ht
        | cons u vs =>
          obtain rfl : u = t := hus
          exact chainFrom_eq_bind hop left vs

theorem walled_chain (hend : op? .eof = none) (h : operand.Walled) :
    (chain op? combine operand).Walled :=
  h.bind fun left => walled_chainFrom hend h left

end chain

section many

variable {starts : Kind → Bool} {item : Phrase α}

/-- Where an item may start, one is read, and then the others unless it has used no token. -/
theorem many_eq (hend : starts .eof = false) (hstart : starts (frontKind ts) = true) :
    many starts item ts =
      match item ts with
      | .fail f n => .fail f n
      | .ok a 0 => .ok [a] 0
      | .ok a (n + 1) => ((many starts item (ts.drop (n + 1))).map (a :: ·)).after (n + 1) := by
  cases ts with
  | nil =>
    rw [frontKind_nil, hend] at hstart
    cases hstart
  | cons t rest =>
    rw [frontKind_cons] at hstart
    rw [many, if_pos hstart]
    rfl

theorem walled_many (hend : starts .eof = false) (h : item.Walled) :
    (many starts item).Walled := by
  intro ts
  induction hlength : ts.length using Nat.strongRecOn generalizing ts with
  | _ k ih =>
    by_cases hstart : starts (frontKind ts) = true
    · obtain ⟨hused, hsame⟩ := h ts
      have hstart' : ∀ us, Agree ((beforeEnd ts).length + 1) ts us →
          starts (frontKind us) = true := fun us hagree => by
        rwa [hagree.frontKind (Nat.succ_pos _)]
      rw [WalledAt, many_eq hend hstart]
      cases hitem : item ts with
      | fail f n =>
        rw [hitem] at hused
        refine ⟨hused, fun us hagree => ?_⟩
        rw [many_eq hend (hstart' us hagree), hsame us hagree, hitem]
      | ok a n =>
        cases n with
        | zero =>
          refine ⟨Nat.zero_le _, fun us hagree => ?_⟩
          rw [many_eq hend (hstart' us hagree), hsame us hagree, hitem]
        | succ n =>
          rw [hitem, Outcome.used] at hused
          have hdrop := add_length_beforeEnd_drop hused
          have hshorter : (ts.drop (n + 1)).length < k := by
            have hle := length_beforeEnd_le ts
            rw [List.length_drop]
            omega
          obtain ⟨hused', hsame'⟩ := ih _ hshorter _ rfl
          refine ⟨?_, fun us hagree => ?_⟩
          · rw [Outcome.used_after, Outcome.used_map]
            omega
          · -- the item is the same in both lists, so the others start at the same place
            rw [many_eq hend (hstart' us hagree), hsame us hagree, hitem]
            rw [← hdrop, Nat.add_assoc] at hagree
            simp only [hsame' _ hagree.drop]
    · refine (walled_pure [] ts).congr fun us hus => ?_
      rw [many_stop]
      · rfl
      · rw [frontKind, hus]
        exact Bool.eq_false_iff.mpr hstart

end many

/-! ## Arithmetic expressions -/

theorem walled_factorOf {inner : Phrase Arith} (h : inner.Walled) : (factorOf inner).Walled := by
  refine walled_peek_bind fun t => ?_
  cases hkind : t.kind with
  | symbol s =>
    cases s with
    | lparen =>
      exact walledBehind_advance_bind (by rw [hkind]; nofun) <|
        h.bind fun e => (walled_expect (by nofun)).bind fun _ => walled_pure e
    | _ => exact (walled_fail _).behind t
  | number =>
    cases t.int? with
    | some n => exact walledBehind_advance_bind (by rw [hkind]; nofun) (walled_pure _)
    | none => exact (walled_fail _).behind t
  | ident =>
    cases t.text? with
    | some x => exact walledBehind_advance_bind (by rw [hkind]; nofun) (walled_pure _)
    | none => exact (walled_fail _).behind t
  | _ => exact (walled_fail _).behind t

theorem walled_summandOf {inner : Phrase Arith} (h : inner.Walled) : (summandOf inner).Walled :=
  walled_chain rfl (walled_factorOf h)

theorem walled_arith (d : Nat) : (arith d).Walled := by
  induction d using Nat.strongRecOn with
  | _ d ih =>
    rw [arith_eq]
    exact walled_chain rfl (walled_summandOf (walled_nested fun b hb => ih b (by omega)))

/-! ## Conditions -/

theorem walled_comparisonOf {arith : Phrase Arith} (h : arith.Walled) :
    (comparisonOf arith).Walled := by
  refine h.bind fun left => walled_peek_bind fun t => ?_
  cases hop : t.kind.relational? with
  | some op =>
    have ht : t.kind ≠ .eof := NoEnd.kind_ne rfl hop
    exact walledBehind_advance_bind ht (h.bind fun _ => walled_pure _)
  | none => exact (walled_fail _).behind t

theorem walled_conjunctOf {arith : Phrase Arith} {inner operand : Phrase Cond} (ha : arith.Walled)
    (hi : inner.Walled) (ho : operand.Walled) : (conjunctOf arith inner operand).Walled := by
  refine walled_peek_bind fun t => ?_
  have hcomparison : (comparisonOf arith).WalledBehind t := (walled_comparisonOf ha).behind t
  cases hkind : t.kind with
  | symbol s =>
    cases s with
    | lparen =>
      exact walledBehind_advance_bind (by rw [hkind]; nofun) <|
        hi.bind fun c => (walled_expect (by nofun)).bind fun _ => walled_pure c
    | _ => exact hcomparison
  | keyword k =>
    cases k with
    | notKw =>
      exact walledBehind_advance_bind (by rw [hkind]; nofun) (ho.bind fun _ => walled_pure _)
    | trueKw | falseKw =>
      exact walledBehind_advance_bind (by rw [hkind]; nofun) (walled_pure _)
    | _ => exact hcomparison
  | _ => exact hcomparison

theorem walled_condOf {conjunct : Phrase Cond} (h : conjunct.Walled) : (condOf conjunct).Walled :=
  walled_chain rfl (walled_chain rfl h)

theorem walled_conjunct (d : Nat) : (conjunct d).Walled := by
  induction d using Nat.strongRecOn with
  | _ d ih =>
    rw [conjunct_eq]
    exact walled_conjunctOf (walled_arith d)
      (walled_nested fun b hb => walled_condOf (ih b (by omega)))
      (walled_nested fun b hb => ih b (by omega))

theorem walled_cond (d : Nat) : (cond d).Walled :=
  walled_condOf (walled_conjunct d)

/-! ## Statements -/

section statements

variable {arith : Phrase Arith} {cond : Phrase Cond} {program : Phrase Program}

theorem walled_whileOf (hc : cond.Walled) (hp : program.Walled) : (whileOf cond program).Walled :=
  (walled_expect (by nofun)).bind fun _ => hc.bind fun _ => (walled_expect (by nofun)).bind fun _ =>
    hp.bind fun _ => (walled_expect (by nofun)).bind fun _ => walled_pure _

theorem walled_ifOf (hc : cond.Walled) (hp : program.Walled) : (ifOf cond program).Walled := by
  refine (walled_expect (by nofun)).bind fun _ => hc.bind fun _ =>
    (walled_expect (by nofun)).bind fun _ => hp.bind fun _ => walled_peek_bind fun t => ?_
  split
  · next ht =>
    exact walledBehind_advance_bind (by rw [ht]; nofun) <|
      hp.bind fun _ => (walled_expect (by nofun)).bind fun _ => walled_pure _
  · exact ((walled_expect (by nofun)).bind fun _ => walled_pure _).behind t

theorem walled_skip : skip.Walled :=
  (walled_expect (by nofun)).bind fun _ => (walled_expect (by nofun)).bind fun _ => walled_pure _

theorem walled_assignOf (h : arith.Walled) : (assignOf arith).Walled := by
  refine (walled_expect (by nofun)).bind fun target => ?_
  cases target.text? with
  | some x =>
    exact (walled_expect (by nofun)).bind fun _ => h.bind fun _ =>
      (walled_expect (by nofun)).bind fun _ => walled_pure _
  | none => exact walled_fail _

/-- The second token is asked for before the first one has been used, but it counts only where the
first one is a name, so that it stands at the end marker at the furthest. -/
theorem walled_statementOf (ha : arith.Walled) (hc : cond.Walled) (hp : program.Walled) :
    (statementOf arith cond program).Walled := by
  rintro (_ | ⟨t, rest⟩)
  · refine ⟨Nat.zero_le _, fun us hagree => ?_⟩
    have hus : us.headD .eof = .eof := hagree.headD (Nat.succ_pos _)
    rw [statementOf, peek_bind, peekSecond_bind, hus]
    rfl
  · by_cases ht : t.kind = .eof
    · refine (walled_fail (.noStatement t) (t :: rest)).congr fun us hus => ?_
      rw [List.headD_cons] at hus
      rw [statementOf, peek_bind, peekSecond_bind, hus, ht]
    · cases hkind : t.kind with
      | keyword k =>
        cases k with
        | whileKw =>
          exact (walled_whileOf hc hp _).congr_second ht fun vs _ => by
            rw [statementOf_cons, hkind]
        | ifKw =>
          exact (walled_ifOf hc hp _).congr_second ht fun vs _ => by rw [statementOf_cons, hkind]
        | skipKw =>
          exact (walled_skip _).congr_second ht fun vs _ => by rw [statementOf_cons, hkind]
        | _ =>
          exact (walled_fail (.noStatement t) _).congr_second ht fun vs _ => by
            rw [statementOf_cons, hkind]
            rfl
      | ident =>
        by_cases hassign : frontKind rest = .symbol .assign
        · exact (walled_assignOf ha _).congr_second ht fun vs hvs => by
            simp only [statementOf_cons, hkind, hvs, if_pos hassign]
        · exact (walled_fail (.noStatement t) _).congr_second ht fun vs hvs => by
            simp only [statementOf_cons, hkind, hvs, if_neg hassign]
            rfl
      | _ =>
        exact (walled_fail (.noStatement t) _).congr_second ht fun vs _ => by
          rw [statementOf_cons, hkind]
          rfl

end statements

theorem walled_programOf {statement : Phrase Stmt} (h : statement.Walled) :
    (programOf statement).Walled :=
  h.bind fun _ => (walled_many rfl h).bind fun _ => walled_pure _

theorem walled_statement (d : Nat) : (statement d).Walled := by
  induction d using Nat.strongRecOn with
  | _ d ih =>
    rw [statement_eq]
    exact walled_statementOf (walled_arith d) (walled_nested fun b _ => walled_cond b)
      (walled_nested fun b hb => walled_programOf (ih b (by omega)))

theorem walled_program (d : Nat) : (program d).Walled :=
  walled_programOf (walled_statement d)

theorem walled_outermost (d : Nat) : (outermost d).Walled := by
  intro ts
  obtain ⟨hused, hsame⟩ := walled_program d ts
  refine ⟨?_, fun us hagree => ?_⟩
  · rw [outermost]
    split
    · next hp => rwa [hp] at hused
    · exact hused
  · rw [outermost, outermost, hsame us hagree]

theorem walled_wholeProgram (d : Nat) : (wholeProgram d).Walled := by
  refine (walled_outermost d).bind fun p => walled_peek_bind fun t => ?_
  split
  · exact (walled_pure p).behind t
  · exact (walled_fail _).behind t

/-! ## All nonterminals -/

theorem walled_phrase (d : Nat) (nt : Nonterminal) : (nt.phrase d).Walled := by
  have harith : (nested 3 arith d).Walled := walled_nested fun b _ => walled_arith b
  have hcond : (nested 3 cond d).Walled := walled_nested fun b _ => walled_cond b
  have hprogram : (nested 3 program d).Walled := walled_nested fun b _ => walled_program b
  cases nt with
  | wholeProgram => exact (walled_wholeProgram d).map _
  | program => exact (walled_program d).map _
  | statement => exact (walled_statement d).map _
  | whileDo => exact (walled_whileOf hcond hprogram).map _
  | ifThenElse => exact (walled_ifOf hcond hprogram).map _
  | skip => exact walled_skip.map _
  | assign => exact (walled_assignOf (walled_arith d)).map _
  | arith => exact (walled_arith d).map _
  | summand => exact (walled_summandOf harith).map _
  | factor => exact (walled_factorOf harith).map _
  | cond => exact (walled_cond d).map _
  | disjunct => exact (walled_chain rfl (walled_conjunct d)).map _
  | conjunct => exact (walled_conjunct d).map _
  | comparison => exact (walled_comparisonOf (walled_arith d)).map _

/-! ## What whole programs depend on -/

theorem lookahead_wholeProgram (d : Nat) (ts : List Token) :
    (wholeProgram d ts).lookahead = (program d ts).lookahead := by
  rw [wholeProgram_apply]
  cases program d ts with
  | ok p n =>
    dsimp only
    split <;> rfl
  | fail f n => cases f <;> rfl

theorem wholeProgram_eq_of_agree {d d' : Nat} (hd : d ≤ d') {us : List Token}
    (hbudget : ∀ n, wholeProgram d ts ≠ .fail .programTooDeep n)
    (hagree : Agree (wholeProgram d ts).lookahead ts us) :
    wholeProgram d' us = wholeProgram d ts := by
  have hprogram : (program d ts).InBudget := Classical.byContradiction fun h => by
    obtain ⟨n, hn⟩ := Outcome.exists_of_not_inBudget h
    exact hbudget n (wholeProgram_of_tooDeep hn)
  rw [lookahead_wholeProgram] at hagree
  rw [wholeProgram_apply, wholeProgram_apply, persists_program hd ts us hprogram hagree]
  cases hp : program d ts with
  | ok p n =>
    rw [hp] at hagree
    have hnext : Agree 1 (ts.drop n) (us.drop n) := hagree.drop
    simp only [hnext.frontKind Nat.one_pos, hnext.headD Nat.one_pos]
  | fail f n => cases f <;> rfl

/-- The phrase of a nonterminal that is not too deep is read alike where the tokens it looks at are
the same. -/
theorem phrase_eq_of_agree {d d' : Nat} (hd : d ≤ d') {nt : Nonterminal} {us : List Token}
    (hbudget : ∀ f n, nt.phrase d ts = .fail f n → f ≠ .tooDeep ∧ f ≠ .programTooDeep)
    (hagree : Agree (nt.phrase d ts).lookahead ts us) : nt.phrase d' us = nt.phrase d ts := by
  by_cases hnt : nt = .wholeProgram
  · subst hnt
    refine congrArg (Outcome.map Program.toNode) (wholeProgram_eq_of_agree hd (fun n hn => ?_) ?_)
    · refine (hbudget .programTooDeep n ?_).2 rfl
      rw [Nonterminal.phrase, Phrase.map, hn]
      rfl
    · rwa [Nonterminal.phrase, Phrase.map, Outcome.lookahead_map] at hagree
  · refine persists_phrase hd hnt ts us ?_ hagree
    cases hread : nt.phrase d ts with
    | ok n k => trivial
    | fail f k => exact (hbudget f k hread).1

end Phrase

/-! ## Runs from a position -/

/-- The tokens from one position on, before another one, are the same. -/
def AgreeFrom (p k : Nat) (ts us : List Token) : Prop :=
  ∀ i, p ≤ i → i < k → ts.getD i .eof = us.getD i .eof

theorem AgreeFrom.drop {p n : Nat} {ts us : List Token} (h : AgreeFrom p (p + n) ts us) :
    Agree n (ts.drop p) (us.drop p) := by
  intro i hi
  have hget := h (p + i) (Nat.le_add_right p i) (Nat.add_lt_add_left hi p)
  simpa [List.getD_eq_getElem?_getD] using hget

/-- The first position that counts for nothing when a run has ended at `q`: on success the one
behind `q`, on failure the one behind that. -/
def horizon (r : Except CursorFault Node) (q : Nat) : Nat :=
  match r with
  | .ok _ => q + 1
  | .error _ => q + 2

/-- With an end marker and anything behind it a list is the same up to its end. -/
theorem agree_append_eof (ts vs : List Token) :
    Agree ((beforeEnd ts).length + 1) ts (ts ++ .eof :: vs) := by
  intro i hi
  have hlength := length_beforeEnd_le ts
  rw [List.getD_eq_getElem?_getD, List.getD_eq_getElem?_getD]
  rcases Nat.lt_or_ge i ts.length with hlt | hge
  · rw [List.getElem?_append_left hlt]
  · obtain rfl : i = ts.length := by omega
    simp

/--
**A bounded part of the tokens counts, and the end marker is a wall.** A run from a position ends at
a position `q` and has moved past no end marker. If nesting does not stop it, then it gives the same
on every list that is the same from the start to `q`, or to the token behind `q` if it fails. And
whatever follows an end marker behind the tokens is ignored.
-/
theorem read_eq_of_agreeFrom (d : Nat) (nt : Nonterminal) (ts : List Token) (p : Nat) :
    ∃ (r : Except CursorFault Node) (q : Nat),
      ({ tokens := ts, position := p } : Cursor).read d nt
        = (r, { tokens := ts, position := q }) ∧
      p ≤ q ∧ (∀ i, p ≤ i → i < q → (ts.getD i .eof).kind ≠ .eof) ∧
      (r ≠ .error (.parse .tooDeep) → r ≠ .error (.parse .programTooDeep) →
        ∀ us, AgreeFrom p (horizon r q) ts us →
          ({ tokens := us, position := p } : Cursor).read d nt
            = (r, { tokens := us, position := q })) ∧
      (p ≤ ts.length → ∀ vs,
        ({ tokens := ts ++ .eof :: vs, position := p } : Cursor).read d nt
          = (r, { tokens := ts ++ .eof :: vs, position := q })) := by
  obtain ⟨hused, hsame⟩ := Phrase.walled_phrase d nt (ts.drop p)
  have hbehind : p ≤ ts.length → ∀ vs,
      nt.phrase d ((ts ++ Token.eof :: vs).drop p) = nt.phrase d (ts.drop p) := by
    intro hp vs
    rw [List.drop_append_of_le_length hp]
    exact hsame _ (agree_append_eof _ vs)
  have hlook : (nt.phrase d (ts.drop p)).lookahead ≤ (nt.phrase d (ts.drop p)).used + 2 :=
    (nt.phrase d (ts.drop p)).lookahead_le
  simp only [Cursor.read_apply]
  cases hread : nt.phrase d (ts.drop p) with
  | ok n k =>
    rw [hread] at hused
    refine ⟨.ok n, p + k, rfl, Nat.le_add_right p k, fun _ => kind_ne_of_lt_add hused,
      fun _ _ us hagree => ?_, fun hp vs => ?_⟩
    · rw [Phrase.phrase_eq_of_agree (Nat.le_refl d) (by rw [hread]; rintro _ _ ⟨⟩)
        (by rw [hread]; exact AgreeFrom.drop hagree), hread]
    · rw [hbehind hp, hread]
  | fail f k =>
    rw [hread] at hused hlook
    refine ⟨.error (.parse f), p + k, rfl, Nat.le_add_right p k, fun _ => kind_ne_of_lt_add hused,
      fun hf hf' us hagree => ?_, fun hp vs => ?_⟩
    · have hbudget : ∀ g n, nt.phrase d (ts.drop p) = .fail g n →
          g ≠ .tooDeep ∧ g ≠ .programTooDeep := by
        rw [hread]
        rintro g n ⟨⟩
        exact ⟨fun h => hf (by rw [h]), fun h => hf' (by rw [h])⟩
      have hahead : Agree (k + 2) (ts.drop p) (us.drop p) := AgreeFrom.drop hagree
      rw [Phrase.phrase_eq_of_agree (Nat.le_refl d) hbudget
        (by rw [hread]; exact hahead.mono hlook), hread]
    · rw [hbehind hp, hread]

/-- A name that is refused for the token behind it: the run ends at the name and counts the token
behind it, but none further on. -/
theorem read_eq_of_agreeFrom_name :
    let start : List Token := [.keyword .skipKw, .symbol .semicolon, .ident ['x']]
    let ts := start ++ [.symbol .plus, .number 1]
    let us := start ++ [.symbol .assign, .number 1, .symbol .semicolon]
    let refused (vs : List Token) : Prop :=
      ({ tokens := vs, position := (0 : Nat) } : Cursor).read nestingLimit .wholeProgram
        = (.error (.parse (.noStatement (.ident ['x']))), { tokens := vs, position := (2 : Nat) })
    refused ts ∧ (∀ vs, AgreeFrom 0 4 ts vs → refused vs) ∧ (∀ vs, refused (ts ++ .eof :: vs)) ∧
      AgreeFrom 0 3 ts us ∧ ¬ refused us := by
  intro start ts us refused
  have hread : refused ts := by
    have hphrase : Nonterminal.wholeProgram.phrase nestingLimit (ts.drop 0)
        = .fail (.noStatement (.ident ['x'])) 2 := by decide +kernel
    exact (Cursor.read_apply _ _ _ 0).trans (by rw [hphrase])
  obtain ⟨r, q, hrun, -, -, hagree, hwall⟩ :=
    read_eq_of_agreeFrom nestingLimit .wholeProgram ts 0
  obtain ⟨rfl, hq⟩ := Prod.mk.inj (hread.symm.trans hrun)
  obtain rfl : 2 = q := Int.ofNat.inj (Cursor.mk.inj hq).2
  refine ⟨hread, fun vs hvs => hagree nofun nofun vs hvs, hwall (by decide), ?_, ?_⟩
  · intro i _ hi
    match i, hi with
    | 0, _ | 1, _ | 2, _ => rfl
  · have hused : (Nonterminal.wholeProgram.phrase nestingLimit (us.drop 0)).used = 6 := by
      decide +kernel
    intro hrefused
    have hrun' := (Cursor.read_apply _ _ _ 0).symm.trans hrefused
    cases hphrase : Nonterminal.wholeProgram.phrase nestingLimit (us.drop 0) with
    | ok n k =>
      rw [hphrase] at hrun'
      cases (Prod.mk.inj hrun').1
    | fail f k =>
      rw [hphrase] at hrun' hused
      obtain rfl : k = 6 := hused
      cases (Cursor.mk.inj (Prod.mk.inj hrun').2).2

end WhileFrontend
