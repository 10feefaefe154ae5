import WhileFrontend.Proofs.Grammar.Unbounded
import WhileFrontend.Proofs.Parsing.Persistence
import WhileFrontend.Proofs.Parsing.Soundness

/-!
# Where a phrase breaks off

A phrase that fails has used tokens that it could have gone on from: some tokens behind them would
have completed the phrase. The fault names the token behind the tokens used. So the parser reads on
for as long as there is a way to go on, and gives up on the first token that closes every way
(`breaks_program`).

`Breaks p R` states this of a phrase `p` whose values are related by `R` to what was read. It goes
together with `Sound p R`: where the second of two phrases breaks off, the first has been read, and
where the first does, its completion is followed by what the second would read (`Breaks.bind`). The
relations put no bound on nesting, because what completes a phrase may be nested as deeply as it
needs to be.
-/

namespace WhileFrontend

/-- A number carries its value and a name its text. -/
def Token.IsWellFormed (t : Token) : Prop :=
  (t.kind = .number → t.int?.isSome) ∧ (t.kind = .ident → t.text?.isSome)

/-- The token that a fault names. -/
def ParseFault.found? (f : ParseFault) : Option Token :=
  f.parts.2

theorem ParseFault.pending_eq_nil_or (f : ParseFault) :
    f.pending = [] ∨ ∃ t, f = .noStatement t ∧ t.kind = .ident := by
  cases f with
  | noStatement t =>
    by_cases ht : t.kind = .ident
    · exact .inr ⟨t, rfl, ht⟩
    · exact .inl (if_neg ht)
  | _ => exact .inl rfl

namespace Phrase

variable {α β : Type}

/-- The fault names the first token of `rest`. Before it, and before what it leaves pending, nothing
is at fault: with that, `us` can be completed to what `R` admits. A pending name is not followed by
an assignment. -/
structure FaultAt (R : List Token → α → Prop) (us rest : List Token) (f : ParseFault) : Prop where
  found : f.found? = some (rest.headD .eof)
  second : f.pending ≠ [] → (rest.getD 1 .eof).kind ≠ .symbol .assign
  completes : ∃ vs a, R (us ++ (f.pending ++ vs)) a

/-- A failure on `ts`, other than for want of budget, lies behind the tokens used. -/
def Faults (R : List Token → α → Prop) (ts : List Token) : Outcome β → Prop
  | .ok _ _ => True
  | .fail f n => f ≠ .tooDeep → ∃ us rest, ts = us ++ rest ∧ us.length = n ∧ FaultAt R us rest f

section faults

variable {R : List Token → α → Prop}

/-- What completes `S` may still have to be completed to what `R` admits. -/
theorem Faults.mono {γ : Type} {S : List Token → γ → Prop} {ts : List Token} {o : Outcome β}
    (h : Faults S ts o) (hR : ∀ us a, S us a → ∃ vs b, R (us ++ vs) b) : Faults R ts o := by
  cases o with
  | ok a n => trivial
  | fail f n =>
    intro hf
    obtain ⟨us, rest, hts, hn, hat⟩ := h hf
    obtain ⟨vs, a, ha⟩ := hat.completes
    obtain ⟨ws, b, hb⟩ := hR _ _ ha
    refine ⟨us, rest, hts, hn, hat.found, hat.second, vs ++ ws, b, ?_⟩
    simpa only [List.append_assoc] using hb

/-- A fault behind tokens that were read before. -/
theorem Faults.after {us rest : List Token} {o : Outcome β}
    (h : Faults (fun vs a => R (us ++ vs) a) rest o) :
    Faults R (us ++ rest) (o.after us.length) := by
  cases o with
  | ok a n => trivial
  | fail f n =>
    intro hf
    obtain ⟨vs, rest', rfl, rfl, hat⟩ := h hf
    obtain ⟨ws, a, ha⟩ := hat.completes
    refine ⟨us ++ vs, rest', by simp, by simp, hat.found, hat.second, ws, a, ?_⟩
    simpa only [List.append_assoc] using ha

/-- A fault at the first token. -/
theorem faults_front {ts : List Token} {f : ParseFault} (hR : ∃ us a, R us a)
    (hfound : f.found? = some (ts.headD .eof)) (hpending : f.pending = []) :
    Faults R ts (.fail f 0 : Outcome β) := by
  intro _
  refine ⟨[], ts, rfl, rfl, hfound, fun h => absurd hpending h, ?_⟩
  rw [hpending]
  exact hR

end faults

/-- There is something for the phrase to read, and where it fails on tokens that carry their values,
the fault lies behind tokens that can be completed. -/
structure Breaks (p : Phrase α) (R : List Token → α → Prop) : Prop where
  inhabited : ∃ us a, R us a
  faults : ∀ ts, (∀ t ∈ ts, t.IsWellFormed) → Faults R ts (p ts)

variable {p : Phrase α} {f : α → Phrase β} {S : List Token → α → Prop} {R : List Token → β → Prop}

/-! ## Parts and wholes -/

theorem breaks_pure {b : β} (h : R [] b) : (Pure.pure b : Phrase β).Breaks R :=
  ⟨⟨[], b, h⟩, fun _ _ => trivial⟩

theorem breaks_expect (k : Kind) : (expect k).Breaks fun us t => us = [t] ∧ t.kind = k := by
  have hinh : ∃ (us : List Token) (t : Token), us = [t] ∧ t.kind = k := ⟨[⟨k, none⟩], _, rfl, rfl⟩
  refine ⟨hinh, fun ts _ => ?_⟩
  rw [expect_apply]
  split
  · trivial
  · exact faults_front hinh rfl rfl

/-- Two phrases in a row: whatever the first reads, the second can go on from. -/
theorem Breaks.bind (hp : p.Breaks S) (hS : p.Sound S)
    (hf : ∀ us a, S us a → (f a).Breaks fun vs b => R (us ++ vs) b) : (p >>= f).Breaks R where
  inhabited := by
    obtain ⟨us, a, ha⟩ := hp.inhabited
    obtain ⟨vs, b, hb⟩ := (hf us a ha).inhabited
    exact ⟨us ++ vs, b, hb⟩
  faults := by
    intro ts hwf
    rw [bind_apply]
    cases hts : p ts with
    | ok a n =>
      obtain ⟨us, rest, rfl, rfl, ha⟩ := hS _ _ _ hts
      have hrest : ∀ t ∈ rest, t.IsWellFormed := fun t ht => hwf t (List.mem_append_right us ht)
      simp only [List.drop_left]
      exact ((hf us a ha).faults rest hrest).after
    | fail g n =>
      have hfault : Faults S ts (.fail g n : Outcome α) := hts ▸ hp.faults ts hwf
      exact hfault.mono fun us a ha => (hf us a ha).inhabited

/-- The last phrase, whose value is given in another form. -/
theorem Breaks.return {g : α → β} (hp : p.Breaks S) (hS : p.Sound S)
    (hR : ∀ us a, S us a → R us (g a)) :
    (p >>= fun a => Pure.pure (g a)).Breaks R := by
  refine hp.bind hS fun us a ha => breaks_pure ?_
  rw [List.append_nil]
  exact hR us a ha

/-- The last phrase is a token that closes what was read before. -/
theorem breaks_expect_return {k : Kind} (hk : k ≠ .eof) {b : β} (hR : ∀ t, t.kind = k → R [t] b) :
    (expect k >>= fun _ => Pure.pure b).Breaks R := by
  refine (breaks_expect k).return (sound_expect hk) ?_
  rintro _ t ⟨rfl, ht⟩
  exact hR t ht

/-- What is sound within a bound is sound without one. -/
theorem Sound.unbounded {D : Nat → List Token → α → Prop} {d : Nat} (h : p.Sound (D d)) :
    p.Sound fun us a => ∃ d, D d us a :=
  h.mono fun _ _ hD => ⟨d, hD⟩

theorem sound_nested_unbounded {cost d : Nat} {p : Nat → Phrase α}
    {D : Nat → List Token → α → Prop} (h : ∀ b, (p b).Sound (D b)) :
    (nested cost p d).Sound fun us a => ∃ b, D b us a :=
  (sound_nested fun b _ => h b).mono fun _ _ ⟨b, _, hD⟩ => ⟨b, hD⟩

theorem breaks_nested {cost d : Nat} {p : Nat → Phrase α} (hS : ∃ us a, S us a)
    (h : ∀ b, b + cost = d → (p b).Breaks S) : (nested cost p d).Breaks S := by
  rw [nested]
  split
  · next hd => exact h _ (Nat.sub_add_cancel hd)
  · exact ⟨hS, fun _ _ hf => absurd rfl hf⟩

section chain

variable {γ : Type} {op? : Kind → Option γ} {combine : γ → α → α → α} {operand : Phrase α}
  {R : List Token → α → Prop}

/-- The loop of a chain breaks off in an operand to the right of an operator. -/
theorem breaks_chainFrom (hB : operand.Breaks S) (hS : operand.Sound S)
    (hstep : ∀ us vs t op l r, R us l → op? t.kind = some op → S vs r →
      R (us ++ t :: vs) (combine op l r))
    {us : List Token} {left : α} (hleft : R us left) :
    (chainFrom op? combine operand left).Breaks fun vs a => R (us ++ vs) a := by
  refine ⟨⟨[], left, by rwa [List.append_nil]⟩, fun ts hwf => ?_⟩
  fun_induction chainFrom op? combine operand left ts generalizing us with
  | case1 => trivial
  | case2 => trivial
  | case3 left t rest op hop f n hfail =>
    have hfault : Faults S rest (.fail f n : Outcome α) :=
      hfail ▸ hB.faults rest (List.forall_mem_cons.mp hwf).2
    have hcons : Faults (fun vs a => R (us ++ ([t] ++ vs)) a) rest (.fail f n : Outcome α) :=
      hfault.mono fun vs r hr =>
        ⟨[], combine op left r, by simpa using hstep us vs t op left r hleft hop hr⟩
    rw [Nat.add_comm n 1]
    show Faults (fun vs a => R (us ++ vs) a) ([t] ++ rest) (.after [t].length (.fail f n))
    exact Faults.after hcons
  | case4 left t rest op hop right n hright ih =>
    obtain ⟨vs, rest, rfl, rfl, hvs⟩ := hS _ _ _ hright
    rw [List.drop_left] at ih ⊢
    have hrest : ∀ t ∈ rest, t.IsWellFormed := fun u hu =>
      hwf u (List.mem_cons_of_mem t (List.mem_append_right vs hu))
    have hloop := ih (hstep _ _ _ _ _ _ hleft hop hvs) hrest
    simp only [List.append_assoc] at hloop
    show Faults (fun ws a => R (us ++ ws) a) ((t :: vs) ++ rest) (.after (t :: vs).length _)
    exact hloop.after

theorem breaks_chain (hB : operand.Breaks S) (hS : operand.Sound S)
    (hfirst : ∀ us a, S us a → R us a)
    (hstep : ∀ us vs t op l r, R us l → op? t.kind = some op → S vs r →
      R (us ++ t :: vs) (combine op l r)) :
    (chain op? combine operand).Breaks R :=
  hB.bind hS fun us a ha => breaks_chainFrom hB hS hstep (hfirst us a ha)

end chain

/-- A sequence breaks off in an item. -/
theorem breaks_many {starts : Kind → Bool} {item : Phrase α} (hB : item.Breaks S)
    (hS : item.Sound S) : (many starts item).Breaks (Concat S) := by
  refine ⟨⟨[], [], .nil⟩, fun ts hwf => ?_⟩
  fun_induction many starts item ts with
  | case1 => trivial
  | case2 t rest hstart f n hfail =>
    have hfault : Faults S (t :: rest) (.fail f n : Outcome α) := hfail ▸ hB.faults _ hwf
    exact hfault.mono fun us a ha => ⟨[], [a], .cons ha .nil⟩
  | case3 => trivial
  | case4 t rest hstart a n ha ih =>
    obtain ⟨us, rest', hus, hlen, hua⟩ := hS _ _ _ ha
    have hdrop : rest.drop n = rest' := by
      have hdrop' : (t :: rest).drop (n + 1) = (us ++ rest').drop us.length := by rw [hus, hlen]
      rwa [List.drop_succ_cons, List.drop_left] at hdrop'
    rw [hdrop] at ih ⊢
    rw [hus] at hwf ⊢
    have hrest : ∀ t ∈ rest', t.IsWellFormed := fun t ht => hwf t (List.mem_append_right us ht)
    have hloop := ih hrest
    show Faults (Concat S) (us ++ rest') (.after n.succ _)
    rw [← hlen]
    refine Faults.after ?_
    cases hmany : many starts item rest' with
    | ok as m => trivial
    | fail f m =>
      rw [hmany] at hloop
      exact hloop.mono fun vs as has => ⟨[], a :: as, by simpa using Concat.cons hua has⟩
  | case5 => trivial

/-! ## Arithmetic expressions -/

theorem exists_isArith : ∃ us e, IsArith .sum us e :=
  ⟨_, _, .single (.operand (.number 0))⟩

theorem breaks_factorOf {inner : Phrase Arith} (hB : inner.Breaks (IsArith .sum))
    (hS : inner.Sound (IsArith .sum)) : (factorOf inner).Breaks (IsArith .operand) := by
  have hinh : ∃ us e, IsArith .operand us e := ⟨_, _, .number 0⟩
  refine ⟨hinh, fun ts hwf => ?_⟩
  cases ts with
  | nil => exact faults_front hinh rfl rfl
  | cons t rest =>
    obtain ⟨⟨hint, htext⟩, hrest⟩ := List.forall_mem_cons.mp hwf
    rw [factorOf_cons]
    split
    · next hkind =>
      have hgroup : (do let e ← inner; let _ ← expect (.symbol .rparen); return e :
          Phrase Arith).Breaks fun vs e => IsArith .operand ([t] ++ vs) e :=
        hB.bind hS fun us e he => breaks_expect_return (by decide)
          fun closing hclose => .group hkind he hclose
      exact (hgroup.faults rest hrest).after
    · next hkind =>
      split
      · trivial
      · next hnone => simp [hnone] at hint; exact absurd hkind hint
    · next hkind =>
      split
      · trivial
      · next hnone => simp [hnone] at htext; exact absurd hkind htext
    · exact faults_front hinh rfl rfl

theorem sound_factor (d : Nat) : (factor d).Sound (IsArith .operand) :=
  (sound_factorOf (sound_nested fun b _ => sound_arith b)).unbounded

theorem sound_summand (d : Nat) : (summand d).Sound (IsArith .product) :=
  (sound_summandOf (sound_nested fun b _ => sound_arith b)).unbounded

theorem breaks_arith (d : Nat) : (arith d).Breaks (IsArith .sum) := by
  induction d using Nat.strongRecOn with
  | _ d ih =>
    have hfactor : (factor d).Breaks (IsArith .operand) :=
      breaks_factorOf (breaks_nested exists_isArith fun b hb => ih b (by omega))
        (sound_nested_unbounded sound_arith)
    have hsummand : (summand d).Breaks (IsArith .product) :=
      breaks_chain hfactor (sound_factor d) (fun _ _ => .operand)
        fun _ _ _ _ _ _ left kind right => .product left kind right
    rw [arith_eq]
    exact breaks_chain hsummand (sound_summand d) (fun _ _ => .single)
      fun _ _ _ _ _ _ left kind right => .sum left kind right

/-! ## Conditions -/

theorem exists_isCond : ∃ us c, IsCond .disjunction us c :=
  ⟨[.keyword .trueKw], _, .single (.conjunct (.truth rfl))⟩

theorem breaks_comparisonOf {arith : Phrase Arith} (hB : arith.Breaks (IsArith .sum))
    (hS : arith.Sound (IsArith .sum)) : (comparisonOf arith).Breaks IsComparison := by
  refine hB.bind hS fun us l hl => ?_
  have hinh : ∃ vs c, IsComparison (us ++ vs) c :=
    ⟨.symbol .eq :: [.number 0], _, .compare hl rfl (.single (.operand (.number 0)))⟩
  refine ⟨hinh, fun ts hwf => ?_⟩
  rw [peek_bind]
  cases ts with
  | nil => exact faults_front hinh rfl rfl
  | cons t rest =>
    rw [List.headD_cons]
    cases hop : t.kind.relational? with
    | none => exact faults_front hinh rfl rfl
    | some op =>
      have hright : (do let r ← arith; return .compare op l r : Phrase Cond).Breaks
          fun vs c => IsComparison (us ++ ([t] ++ vs)) c :=
        hB.return hS fun vs r hr => .compare hl hop hr
      show Faults _ ([t] ++ rest) (.after [t].length _)
      exact Faults.after (hright.faults rest (List.forall_mem_cons.mp hwf).2)

/-- A comparison that breaks off could have become a conjunct, if it does not start with a
parenthesis. -/
theorem Faults.conjunct {ts : List Token} {o : Outcome β} (h : Faults IsComparison ts o)
    (hts : frontKind ts ≠ .symbol .lparen) : Faults (IsCond .conjunct) ts o := by
  cases o with
  | ok a n => trivial
  | fail f n =>
    intro hf
    obtain ⟨us, rest, rfl, rfl, hat⟩ := h hf
    obtain ⟨vs, c, hc⟩ := hat.completes
    refine ⟨us, rest, rfl, rfl, hat.found, hat.second, ?_⟩
    obtain ⟨t, ws, hws, -⟩ := hc.first
    rw [hws] at hc
    by_cases ht : t.kind = .symbol .lparen
    · -- that parenthesis would have been the first token behind the fault
      have hus : us = [] := by
        cases us with
        | nil => rfl
        | cons u us =>
          obtain rfl : u = t := (List.cons.inj hws).1
          exact absurd ht hts
      have hpending : f.pending = [] := by
        rcases f.pending_eq_nil_or with hnil | ⟨u, rfl, hu⟩
        · exact hnil
        · rw [hus, ParseFault.pending_noStatement hu] at hws
          obtain rfl : u = t := (List.cons.inj hws).1
          rw [ht] at hu
          cases hu
      rw [hus, hpending]
      exact ⟨[.keyword .trueKw], _, .truth rfl⟩
    · exact ⟨vs, c, hws ▸ .comparison hc ht⟩

theorem breaks_conjunctOf {arith : Phrase Arith} {inner operand : Phrase Cond}
    (hA : arith.Breaks (IsArith .sum)) (hAS : arith.Sound (IsArith .sum))
    (hI : inner.Breaks (IsCond .disjunction)) (hIS : inner.Sound (IsCond .disjunction))
    (hO : operand.Breaks (IsCond .conjunct)) (hOS : operand.Sound (IsCond .conjunct)) :
    (conjunctOf arith inner operand).Breaks (IsCond .conjunct) := by
  refine ⟨⟨[.keyword .trueKw], _, .truth rfl⟩, fun ts hwf => ?_⟩
  have hcomparison := (breaks_comparisonOf hA hAS).faults ts hwf
  cases ts with
  | nil =>
    rw [conjunctOf_nil]
    exact hcomparison.conjunct (by decide)
  | cons t rest =>
    have hrest : ∀ t ∈ rest, t.IsWellFormed := (List.forall_mem_cons.mp hwf).2
    rw [conjunctOf_cons]
    split
    · next hkind =>
      have hgroup : (do let c ← inner; let _ ← expect (.symbol .rparen); return c :
          Phrase Cond).Breaks fun vs c => IsCond .conjunct ([t] ++ vs) c :=
        hI.bind hIS fun us c hc => breaks_expect_return (by decide)
          fun closing hclose => .group hkind hc hclose
      exact (hgroup.faults rest hrest).after
    · next hkind =>
      have hnot : (do let c ← operand; return .negation c : Phrase Cond).Breaks
          fun vs c => IsCond .conjunct ([t] ++ vs) c :=
        hO.return hOS fun us c hc => .negation hkind hc
      exact (hnot.faults rest hrest).after
    · trivial
    · trivial
    · next hparen _ _ _ => exact hcomparison.conjunct hparen

theorem breaks_condOf {conjunct : Phrase Cond} {d : Nat}
    (hB : conjunct.Breaks (IsCond .conjunct)) (hS : conjunct.Sound (DerivesCond d .conjunct)) :
    (condOf conjunct).Breaks (IsCond .disjunction) := by
  have hdisjunct : (disjunctOf conjunct).Breaks (IsCond .conjunction) :=
    breaks_chain hB hS.unbounded (fun _ _ => .conjunct)
      fun _ _ _ _ _ _ left kind right => .conjunction left kind right
  exact breaks_chain hdisjunct (sound_disjunctOf hS).unbounded (fun _ _ => .single)
    fun _ _ _ _ _ _ left kind right => .disjunction left kind right

theorem breaks_conjunct (d : Nat) : (conjunct d).Breaks (IsCond .conjunct) := by
  induction d using Nat.strongRecOn with
  | _ d ih =>
    rw [conjunct_eq]
    refine breaks_conjunctOf (breaks_arith d) (sound_arith d).unbounded ?_ ?_ ?_ ?_
    · exact breaks_nested exists_isCond fun b hb =>
        breaks_condOf (ih b (by omega)) (sound_conjunct b)
    · exact sound_nested_unbounded sound_cond
    · exact breaks_nested ⟨[.keyword .trueKw], _, .truth rfl⟩ fun b hb => ih b (by omega)
    · exact sound_nested_unbounded sound_conjunct

theorem breaks_cond (d : Nat) : (cond d).Breaks (IsCond .disjunction) :=
  breaks_condOf (breaks_conjunct d) (sound_conjunct d)

/-! ## Statements -/

theorem exists_isSentence : ∃ us p, IsSentence us p :=
  ⟨[.keyword .skipKw, .symbol .semicolon], _, .last (.skip rfl rfl)⟩

section statements

variable {arith : Phrase Arith} {cond : Phrase Cond} {program : Phrase Program}

theorem breaks_whileOf (hC : cond.Breaks (IsCond .disjunction))
    (hCS : cond.Sound (IsCond .disjunction)) (hP : program.Breaks IsSentence)
    (hPS : program.Sound IsSentence) : (whileOf cond program).Breaks IsStmt := by
  refine (breaks_expect _).bind (sound_expect (by decide)) ?_
  rintro _ t₁ ⟨rfl, hwhile⟩
  refine hC.bind hCS fun us c hc => ?_
  refine (breaks_expect _).bind (sound_expect (by decide)) ?_
  rintro _ t₂ ⟨rfl, hdo⟩
  refine hP.bind hPS fun vs p hp => ?_
  refine breaks_expect_return (by decide) fun t₃ hdone => ?_
  exact .whileDo hwhile hc hdo hp hdone

theorem breaks_ifOf (hC : cond.Breaks (IsCond .disjunction))
    (hCS : cond.Sound (IsCond .disjunction)) (hP : program.Breaks IsSentence)
    (hPS : program.Sound IsSentence) : (ifOf cond program).Breaks IsStmt := by
  refine (breaks_expect _).bind (sound_expect (by decide)) ?_
  rintro _ t₁ ⟨rfl, hif⟩
  refine hC.bind hCS fun us c hc => ?_
  refine (breaks_expect _).bind (sound_expect (by decide)) ?_
  rintro _ t₂ ⟨rfl, hthen⟩
  refine hP.bind hPS fun vs p hp => ?_
  -- what follows is a second branch or the end
  have hfi : (do let _ ← expect (.keyword .fiKw); return .ifThen c p : Phrase Stmt).Breaks
      fun ws s => IsStmt ([t₁] ++ (us ++ ([t₂] ++ (vs ++ ws)))) s :=
    breaks_expect_return (by decide) fun t₃ hfi => .ifThen hif hc hthen hp hfi
  refine ⟨hfi.inhabited, fun ts hwf => ?_⟩
  rw [peek_bind]
  split
  · next helse =>
    cases ts with
    | nil => cases helse
    | cons t₃ rest =>
      have hbranch : (do let q ← program; let _ ← expect (.keyword .fiKw); return .ifElse c p q :
          Phrase Stmt).Breaks
            fun ws s => IsStmt ([t₁] ++ (us ++ ([t₂] ++ (vs ++ ([t₃] ++ ws))))) s :=
        hP.bind hPS fun ws q hq => breaks_expect_return (by decide)
          fun t₄ hfi => .ifElse hif hc hthen hp helse hq hfi
      show Faults _ ([t₃] ++ rest) (.after [t₃].length _)
      exact Faults.after (hbranch.faults rest (List.forall_mem_cons.mp hwf).2)
  · exact hfi.faults ts hwf

theorem breaks_skip : skip.Breaks IsStmt := by
  refine (breaks_expect _).bind (sound_expect (by decide)) ?_
  rintro _ t₁ ⟨rfl, hskip⟩
  exact breaks_expect_return (by decide) fun t₂ hsemi => .skip hskip hsemi

/-- An assignment breaks off behind its target, which carries a text. -/
theorem faults_assignOf (hA : arith.Breaks (IsArith .sum)) (hAS : arith.Sound (IsArith .sum))
    {t : Token} {rest : List Token} (ht : t.kind = .ident)
    (hwf : ∀ u ∈ t :: rest, u.IsWellFormed) :
    Faults IsStmt (t :: rest) (assignOf arith (t :: rest)) := by
  obtain ⟨⟨-, htext⟩, hrest⟩ := List.forall_mem_cons.mp hwf
  obtain ⟨x, hx⟩ := Option.isSome_iff_exists.mp (htext ht)
  have hexpr : Breaks (do
      let _ ← expect (.symbol .assign)
      let e ← arith
      let _ ← expect (.symbol .semicolon)
      return .assign x e) fun vs s => IsStmt ([t] ++ vs) s := by
    refine (breaks_expect _).bind (sound_expect (by decide)) ?_
    rintro _ t₂ ⟨rfl, hassign⟩
    refine hA.bind hAS fun us e he => ?_
    exact breaks_expect_return (by decide) fun t₃ hsemi => .assign ht hx hassign he hsemi
  have htarget : expect .ident (t :: rest) = .ok t 1 := reads_expect ht rest
  rw [assignOf, bind_of_ok htarget, hx]
  exact Faults.after (hexpr.faults rest hrest)

theorem breaks_statementOf (hA : arith.Breaks (IsArith .sum)) (hAS : arith.Sound (IsArith .sum))
    (hC : cond.Breaks (IsCond .disjunction)) (hCS : cond.Sound (IsCond .disjunction))
    (hP : program.Breaks IsSentence) (hPS : program.Sound IsSentence) :
    (statementOf arith cond program).Breaks IsStmt := by
  have hinh : ∃ us s, IsStmt us s := breaks_skip.inhabited
  refine ⟨hinh, fun ts hwf => ?_⟩
  cases ts with
  | nil => exact faults_front hinh rfl rfl
  | cons t rest =>
    rw [statementOf_cons]
    split
    · exact (breaks_whileOf hC hCS hP hPS).faults _ hwf
    · exact (breaks_ifOf hC hCS hP hPS).faults _ hwf
    · exact breaks_skip.faults _ hwf
    · next hident =>
      split
      · exact faults_assignOf hA hAS hident hwf
      · next hassign =>
        -- the name alone is not at fault: an assignment to it could have followed
        obtain ⟨x, hx⟩ := Option.isSome_iff_exists.mp ((hwf t List.mem_cons_self).2 hident)
        refine fun _ => ⟨[], t :: rest, rfl, rfl, rfl, fun _ => ?_, ?_⟩
        · have hsecond : ((t :: rest).getD 1 .eof).kind = frontKind rest := by cases rest <;> rfl
          rwa [hsecond]
        · rw [ParseFault.pending_noStatement hident]
          exact ⟨.symbol .assign :: ([.number 0] ++ [.symbol .semicolon]), _,
            .assign hident hx rfl (.single (.operand (.number 0))) rfl⟩
    · next hident => exact faults_front hinh rfl (if_neg hident)

end statements

/-- Statements one by one make up a program. -/
theorem isSentence_of_concat {us vs : List Token} {s : Stmt} {ss : List Stmt} (hs : IsStmt us s)
    (hss : Concat IsStmt vs ss) : IsSentence (us ++ vs) (.ofStmts s ss) := by
  induction hss generalizing us s with
  | nil =>
    rw [List.append_nil]
    exact .last hs
  | cons first rest ih => exact .seq hs (ih first)

theorem breaks_programOf {statement : Phrase Stmt} (hB : statement.Breaks IsStmt)
    (hS : statement.Sound IsStmt) : (programOf statement).Breaks IsSentence :=
  hB.bind hS fun _ _ hs => (breaks_many hB hS).return (sound_many hS)
    fun _ _ hss => isSentence_of_concat hs hss

theorem breaks_statement (d : Nat) : (statement d).Breaks IsStmt := by
  induction d using Nat.strongRecOn with
  | _ d ih =>
    rw [statement_eq]
    refine breaks_statementOf (breaks_arith d) (sound_arith d).unbounded ?_ ?_ ?_ ?_
    · exact breaks_nested exists_isCond fun b _ => breaks_cond b
    · exact sound_nested_unbounded sound_cond
    · exact breaks_nested exists_isSentence fun b hb => breaks_programOf (ih b (by omega))
        (sound_statement b).unbounded
    · exact sound_nested_unbounded sound_program

/-- **What is used before a fault is the beginning of a program.** -/
theorem breaks_program (d : Nat) : (program d).Breaks IsSentence :=
  breaks_programOf (breaks_statement d) (sound_statement d).unbounded

end Phrase

end WhileFrontend
