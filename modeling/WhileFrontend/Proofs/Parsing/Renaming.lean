import WhileFrontend.Proofs.Parsing.Faults
import WhileFrontend.Proofs.Tree.Renamed

/-!
# The parser does not look at values

The parser goes by the kinds of tokens. Names and numbers may be replaced by any others in the
tokens: what is read is then the tree with the same replacements, and a fault stays where it is and
names the token that stands there now.

`Renames r h p q` says that `q` makes of the renamed tokens what `p` makes of the tokens, renamed:
a value by `h`, a fault by the token that it names. It passes from the parts of a phrase to the
whole, successes and failures alike. A value is used only behind a test for the kind of its token
(`Token.int?_rename`, `Token.text?_rename`), which is why it is renamed there in any case.

Since this holds of every renaming, a fault names no number that is not among the tokens
(`Phrase.number_of_fault`).
-/

namespace WhileFrontend

variable (r : Renaming)

/-! ## Tokens and faults -/

/-- The value with another name or number. -/
def Payload.rename : Payload → Payload
  | .int n => .int (r.number n)
  | .text s => .text (r.name s)

/-- The token with another value, if it is a number with an integer or a name with a text. -/
def Token.rename : Token → Token
  | ⟨.number, some (.int n)⟩ => ⟨.number, some (.int (r.number n))⟩
  | ⟨.ident, some (.text s)⟩ => ⟨.ident, some (.text (r.name s))⟩
  | t => t

/-- The fault with another value in the token that it names. -/
def ParseFault.rename : ParseFault → ParseFault
  | .expected kinds t => .expected kinds (t.rename r)
  | .noStatement t => .noStatement (t.rename r)
  | .noOperand t => .noOperand (t.rename r)
  | .noComparison t => .noComparison (t.rename r)
  | .malformedIdent t => .malformedIdent (t.rename r)
  | .malformedNumber t => .malformedNumber (t.rename r)
  | .trailing t => .trailing (t.rename r)
  | .tooDeep => .tooDeep
  | .programTooDeep => .programTooDeep

/-- A token is left as it is, or it has a value, which is renamed; an integer only in a number. -/
theorem Token.rename_eq_or (t : Token) :
    t.rename r = t ∨ ∃ v, t.value = some v ∧ (∀ n, v = .int n → t.kind = .number) ∧
      t.rename r = ⟨t.kind, some (v.rename r)⟩ := by
  unfold rename
  split
  · exact .inr ⟨_, rfl, fun _ _ => rfl, rfl⟩
  · exact .inr ⟨_, rfl, nofun, rfl⟩
  · exact .inl rfl

@[simp] theorem Token.kind_rename (t : Token) : (t.rename r).kind = t.kind := by
  rcases t.rename_eq_or r with h | ⟨v, -, -, h⟩ <;> rw [h]

theorem Token.int?_rename {t : Token} (ht : t.kind = .number) :
    (t.rename r).int? = t.int?.map r.number := by
  obtain ⟨k, v⟩ := t
  obtain rfl : k = .number := ht
  rcases v with _ | ⟨n⟩ | ⟨s⟩ <;> rfl

theorem Token.text?_rename {t : Token} (ht : t.kind = .ident) :
    (t.rename r).text? = t.text?.map r.name := by
  obtain ⟨k, v⟩ := t
  obtain rfl : k = .ident := ht
  rcases v with _ | ⟨n⟩ | ⟨s⟩ <;> rfl

theorem headD_rename (ts : List Token) :
    (ts.map (Token.rename r)).headD .eof = (ts.headD .eof).rename r := by
  cases ts <;> rfl

theorem frontKind_rename (ts : List Token) :
    frontKind (ts.map (Token.rename r)) = frontKind ts := by
  rw [frontKind, headD_rename, Token.kind_rename, frontKind]

theorem getD_rename (ts : List Token) (i : Nat) :
    (ts.map (Token.rename r)).getD i .eof = (ts.getD i .eof).rename r := by
  rw [List.getD_eq_getElem?_getD, List.getD_eq_getElem?_getD, List.getElem?_map]
  cases ts[i]? <;> rfl

/-! ## Outcomes -/

namespace Outcome

variable {α : Type}

/-- The outcome with the value changed by `h` and the fault renamed. -/
def rename (h : α → α) : Outcome α → Outcome α
  | ok a n => ok (h a) n
  | fail f n => fail (f.rename r) n

@[simp] theorem rename_ok (h : α → α) (a : α) (n : Nat) : (ok a n).rename r h = ok (h a) n := rfl

theorem rename_after (h : α → α) (n : Nat) (o : Outcome α) :
    (o.after n).rename r h = (o.rename r h).after n := by
  cases o <;> rfl

end Outcome

namespace Phrase

variable {α β : Type} {h : α → α} {k : β → β} {p q : Phrase α}

/-- What `q` makes of the renamed tokens is what `p` makes of the tokens, renamed. -/
def Renames (h : α → α) (p q : Phrase α) : Prop :=
  ∀ ts, q (ts.map (Token.rename r)) = (p ts).rename r h

variable {r}

/-! ## Parts and wholes -/

theorem renames_pure (a : α) : Renames r h (Pure.pure a) (Pure.pure (h a)) :=
  fun _ => rfl

theorem renames_fail (f : ParseFault) : Renames r h (fail f) (fail (f.rename r)) :=
  fun _ => rfl

theorem renames_advance : Renames r id advance advance :=
  fun _ => rfl

theorem Renames.bind {f g : α → Phrase β} (hp : Renames r h p q)
    (hf : ∀ a, Renames r k (f a) (g (h a))) : Renames r k (p >>= f) (q >>= g) := by
  intro ts
  rw [bind_apply, bind_apply, hp ts]
  cases p ts with
  | ok a n =>
    simp only [Outcome.rename_ok, ← List.map_drop]
    rw [hf a, Outcome.rename_after]
  | fail e n => rfl

theorem renames_peek_bind {f g : Token → Phrase β}
    (hf : ∀ t, Renames r k (f t) (g (t.rename r))) : Renames r k (peek >>= f) (peek >>= g) := by
  intro ts
  rw [peek_bind, peek_bind, headD_rename]
  exact hf _ ts

theorem renames_peekSecond_bind {f g : Token → Phrase β}
    (hf : ∀ t, Renames r k (f t) (g (t.rename r))) :
    Renames r k (peekSecond >>= f) (peekSecond >>= g) := by
  intro ts
  rw [peekSecond_bind, peekSecond_bind, getD_rename]
  exact hf _ ts

/-- What follows a token of a kind may depend on that kind. -/
theorem renames_expect_bind {i : Kind} {f g : Token → Phrase β}
    (hf : ∀ t, t.kind = i → Renames r k (f t) (g (t.rename r))) :
    Renames r k (expect i >>= f) (expect i >>= g) := by
  intro ts
  rw [bind_apply, bind_apply, expect_apply, expect_apply, frontKind_rename, headD_rename]
  by_cases hi : frontKind ts = i
  · simp only [if_pos hi, ← List.map_drop]
    rw [hf _ hi, Outcome.rename_after]
  · simp only [if_neg hi]
    rfl

theorem renames_expect (i : Kind) : Renames r (Token.rename r) (expect i) (expect i) := by
  refine renames_peek_bind fun t => ?_
  rw [Token.kind_rename]
  split
  · exact renames_advance.bind fun _ => renames_pure t
  · exact renames_fail _

theorem renames_nested {cost d : Nat} {p : Nat → Phrase α}
    (hp : ∀ b, b + cost = d → Renames r h (p b) (p b)) :
    Renames r h (nested cost p d) (nested cost p d) := by
  unfold nested
  split
  · next hcost => exact hp _ (Nat.sub_add_cancel hcost)
  · exact renames_fail .tooDeep

theorem Renames.map {g : α → β} (hp : Renames r h p q) (hg : ∀ a, g (h a) = k (g a)) :
    Renames r k (p.map g) (q.map g) := by
  intro ts
  rw [Phrase.map, Phrase.map, hp ts]
  cases p ts with
  | ok a n => exact congrArg (Outcome.ok · n) (hg a)
  | fail f n => rfl

section chain

variable {γ : Type} {op? : Kind → Option γ} {combine : γ → α → α → α} {operand : Phrase α}

theorem renames_chainFrom (hcombine : ∀ op a b, h (combine op a b) = combine op (h a) (h b))
    (hp : Renames r h operand operand) (left : α) :
    Renames r h (chainFrom op? combine operand left) (chainFrom op? combine operand (h left)) := by
  intro ts
  fun_induction chainFrom op? combine operand left ts with
  | case1 left => rw [List.map_nil, chainFrom, Outcome.rename]
  | case2 left t rest hop =>
    rw [List.map_cons, chainFrom, Token.kind_rename, hop]
    rfl
  | case3 left t rest op hop f n hfail =>
    rw [List.map_cons, chainFrom_cons (by rw [Token.kind_rename, hop]), hp rest, hfail]
    rfl
  | case4 left t rest op hop right n hright ih =>
    rw [List.map_cons, chainFrom_cons (by rw [Token.kind_rename, hop]), hp rest, hright]
    simp only [Outcome.rename_ok, ← hcombine, ← List.map_drop]
    rw [ih, Outcome.rename_after]

theorem renames_chain (hcombine : ∀ op a b, h (combine op a b) = combine op (h a) (h b))
    (hp : Renames r h operand operand) :
    Renames r h (chain op? combine operand) (chain op? combine operand) :=
  hp.bind fun left => renames_chainFrom hcombine hp left

end chain

theorem renames_many {starts : Kind → Bool} {item : Phrase α} (hp : Renames r h item item) :
    Renames r (List.map h) (many starts item) (many starts item) := by
  intro ts
  have hitem : ∀ t rest, item (t.rename r :: rest.map (Token.rename r))
      = (item (t :: rest)).rename r h := fun t rest => hp (t :: rest)
  fun_induction many starts item ts with
  | case1 => rw [List.map_nil, many]; rfl
  | case2 t rest hstart f n hfail =>
    rw [List.map_cons, many, Token.kind_rename, if_pos hstart, hitem, hfail]
    rfl
  | case3 t rest hstart a ha =>
    rw [List.map_cons, many, Token.kind_rename, if_pos hstart, hitem, ha]
    rfl
  | case4 t rest hstart a n ha ih =>
    rw [List.map_cons, many, Token.kind_rename, if_pos hstart, hitem, ha]
    simp only [Outcome.rename_ok, ← List.map_drop]
    rw [ih, Outcome.rename_after]
    cases many starts item (rest.drop n) <;> rfl
  | case5 t rest hstart =>
    rw [List.map_cons, many, Token.kind_rename, if_neg hstart]
    rfl

/-! ## Arithmetic expressions -/

theorem renames_factorOf {inner : Phrase Arith} (hi : Renames r (Arith.rename r) inner inner) :
    Renames r (Arith.rename r) (factorOf inner) (factorOf inner) := by
  refine renames_peek_bind fun t => ?_
  rw [Token.kind_rename]
  cases hkind : t.kind with
  | symbol s =>
    cases s with
    | lparen =>
      exact renames_advance.bind fun _ => hi.bind fun e =>
        (renames_expect _).bind fun _ => renames_pure e
    | _ => exact renames_fail (.noOperand t)
  | number =>
    simp only [Token.int?_rename r hkind]
    cases t.int? with
    | some n => exact renames_advance.bind fun _ => renames_pure (Arith.const n)
    | none => exact renames_fail (.malformedNumber t)
  | ident =>
    simp only [Token.text?_rename r hkind]
    cases t.text? with
    | some x => exact renames_advance.bind fun _ => renames_pure (Arith.var x)
    | none => exact renames_fail (.malformedIdent t)
  | _ => exact renames_fail (.noOperand t)

theorem renames_summandOf {inner : Phrase Arith} (hi : Renames r (Arith.rename r) inner inner) :
    Renames r (Arith.rename r) (summandOf inner) (summandOf inner) :=
  renames_chain (fun _ _ _ => rfl) (renames_factorOf hi)

theorem renames_arith (d : Nat) : Renames r (Arith.rename r) (arith d) (arith d) := by
  induction d using Nat.strongRecOn with
  | _ d ih =>
    rw [arith_eq]
    exact renames_chain (fun _ _ _ => rfl)
      (renames_summandOf (renames_nested fun b hb => ih b (by omega)))

/-! ## Conditions -/

theorem renames_comparisonOf {arith : Phrase Arith} (ha : Renames r (Arith.rename r) arith arith) :
    Renames r (Cond.rename r) (comparisonOf arith) (comparisonOf arith) := by
  refine ha.bind fun left => renames_peek_bind fun t => ?_
  rw [Token.kind_rename]
  cases t.kind.relational? with
  | some op =>
    exact renames_advance.bind fun _ => ha.bind fun right =>
      renames_pure (Cond.compare op left right)
  | none => exact renames_fail (.noComparison t)

theorem renames_conjunctOf {arith : Phrase Arith} {inner operand : Phrase Cond}
    (ha : Renames r (Arith.rename r) arith arith) (hi : Renames r (Cond.rename r) inner inner)
    (ho : Renames r (Cond.rename r) operand operand) :
    Renames r (Cond.rename r) (conjunctOf arith inner operand)
      (conjunctOf arith inner operand) := by
  refine renames_peek_bind fun t => ?_
  rw [Token.kind_rename]
  have hcomparison := renames_comparisonOf ha
  cases t.kind with
  | symbol s =>
    cases s with
    | lparen =>
      exact renames_advance.bind fun _ => hi.bind fun c =>
        (renames_expect _).bind fun _ => renames_pure c
    | _ => exact hcomparison
  | keyword k =>
    cases k with
    | notKw => exact renames_advance.bind fun _ => ho.bind fun c => renames_pure (Cond.negation c)
    | trueKw => exact renames_advance.bind fun _ => renames_pure (Cond.truth true)
    | falseKw => exact renames_advance.bind fun _ => renames_pure (Cond.truth false)
    | _ => exact hcomparison
  | _ => exact hcomparison

theorem renames_disjunctOf {conjunct : Phrase Cond}
    (hc : Renames r (Cond.rename r) conjunct conjunct) :
    Renames r (Cond.rename r) (disjunctOf conjunct) (disjunctOf conjunct) :=
  renames_chain (fun _ _ _ => rfl) hc

theorem renames_condOf {conjunct : Phrase Cond}
    (hc : Renames r (Cond.rename r) conjunct conjunct) :
    Renames r (Cond.rename r) (condOf conjunct) (condOf conjunct) :=
  renames_chain (fun _ _ _ => rfl) (renames_disjunctOf hc)

theorem renames_conjunct (d : Nat) : Renames r (Cond.rename r) (conjunct d) (conjunct d) := by
  induction d using Nat.strongRecOn with
  | _ d ih =>
    rw [conjunct_eq]
    exact renames_conjunctOf (renames_arith d)
      (renames_nested fun b hb => renames_condOf (ih b (by omega)))
      (renames_nested fun b hb => ih b (by omega))

theorem renames_cond (d : Nat) : Renames r (Cond.rename r) (cond d) (cond d) :=
  renames_condOf (renames_conjunct d)

/-! ## Statements -/

section statements

variable {arith : Phrase Arith} {cond : Phrase Cond} {program : Phrase Program}

theorem renames_whileOf (hc : Renames r (Cond.rename r) cond cond)
    (hp : Renames r (Program.rename r) program program) :
    Renames r (Stmt.rename r) (whileOf cond program) (whileOf cond program) :=
  (renames_expect _).bind fun _ => hc.bind fun c => (renames_expect _).bind fun _ =>
    hp.bind fun body => (renames_expect _).bind fun _ => renames_pure (Stmt.whileDo c body)

theorem renames_ifOf (hc : Renames r (Cond.rename r) cond cond)
    (hp : Renames r (Program.rename r) program program) :
    Renames r (Stmt.rename r) (ifOf cond program) (ifOf cond program) := by
  refine (renames_expect _).bind fun _ => hc.bind fun c => (renames_expect _).bind fun _ =>
    hp.bind fun yes => renames_peek_bind fun t => ?_
  rw [Token.kind_rename]
  split
  · exact renames_advance.bind fun _ => hp.bind fun no =>
      (renames_expect _).bind fun _ => renames_pure (Stmt.ifElse c yes no)
  · exact (renames_expect _).bind fun _ => renames_pure (Stmt.ifThen c yes)

theorem renames_skip : Renames r (Stmt.rename r) skip skip :=
  (renames_expect _).bind fun _ => (renames_expect _).bind fun _ => renames_pure Stmt.skip

theorem renames_assignOf (ha : Renames r (Arith.rename r) arith arith) :
    Renames r (Stmt.rename r) (assignOf arith) (assignOf arith) := by
  -- the text is looked at without another test of the kind, so what was expected has to be kept
  refine renames_expect_bind fun target htarget => ?_
  rw [Token.text?_rename r htarget]
  cases target.text? with
  | some x =>
    exact (renames_expect _).bind fun _ => ha.bind fun e =>
      (renames_expect _).bind fun _ => renames_pure (Stmt.assign x e)
  | none => exact renames_fail (.malformedIdent target)

theorem renames_statementOf (ha : Renames r (Arith.rename r) arith arith)
    (hc : Renames r (Cond.rename r) cond cond)
    (hp : Renames r (Program.rename r) program program) :
    Renames r (Stmt.rename r) (statementOf arith cond program)
      (statementOf arith cond program) := by
  refine renames_peek_bind fun t => renames_peekSecond_bind fun second => ?_
  rw [Token.kind_rename, Token.kind_rename]
  cases t.kind with
  | keyword k =>
    cases k with
    | whileKw => exact renames_whileOf hc hp
    | ifKw => exact renames_ifOf hc hp
    | skipKw => exact renames_skip
    | _ => exact renames_fail (.noStatement t)
  | ident =>
    dsimp only
    split
    · exact renames_assignOf ha
    · exact renames_fail (.noStatement t)
  | _ => exact renames_fail (.noStatement t)

end statements

theorem renames_programOf {statement : Phrase Stmt}
    (hs : Renames r (Stmt.rename r) statement statement) :
    Renames r (Program.rename r) (programOf statement) (programOf statement) := by
  refine hs.bind fun first => (renames_many hs).bind fun rest => ?_
  rw [← Program.rename_ofStmts]
  exact renames_pure (Program.ofStmts first rest)

theorem renames_statement (d : Nat) : Renames r (Stmt.rename r) (statement d) (statement d) := by
  induction d using Nat.strongRecOn with
  | _ d ih =>
    rw [statement_eq]
    exact renames_statementOf (renames_arith d) (renames_nested fun b _ => renames_cond b)
      (renames_nested fun b hb => renames_programOf (ih b (by omega)))

theorem renames_program (d : Nat) : Renames r (Program.rename r) (program d) (program d) :=
  renames_programOf (renames_statement d)

theorem renames_wholeProgram (d : Nat) :
    Renames r (Program.rename r) (wholeProgram d) (wholeProgram d) := by
  intro ts
  rw [wholeProgram_apply, wholeProgram_apply, renames_program d ts]
  cases program d ts with
  | ok p n =>
    simp only [Outcome.rename, ← List.map_drop, frontKind_rename, headD_rename]
    split <;> rfl
  | fail f n => cases f <;> rfl

/-! ## All nonterminals -/

theorem renames_phrase (d : Nat) (nt : Nonterminal) :
    Renames r (Node.rename r) (nt.phrase d) (nt.phrase d) := by
  have harith : Renames r (Arith.rename r) (nested 3 arith d) (nested 3 arith d) :=
    renames_nested fun b _ => renames_arith b
  have hcond : Renames r (Cond.rename r) (nested 3 cond d) (nested 3 cond d) :=
    renames_nested fun b _ => renames_cond b
  have hprogram : Renames r (Program.rename r) (nested 3 program d) (nested 3 program d) :=
    renames_nested fun b _ => renames_program b
  cases nt with
  | wholeProgram => exact (renames_wholeProgram d).map (Program.toNode_rename r)
  | program => exact (renames_program d).map (Program.toNode_rename r)
  | statement => exact (renames_statement d).map (Stmt.toNode_rename r)
  | whileDo => exact (renames_whileOf hcond hprogram).map (Stmt.toNode_rename r)
  | ifThenElse => exact (renames_ifOf hcond hprogram).map (Stmt.toNode_rename r)
  | skip => exact renames_skip.map (Stmt.toNode_rename r)
  | assign => exact (renames_assignOf (renames_arith d)).map (Stmt.toNode_rename r)
  | arith => exact (renames_arith d).map (Arith.toNode_rename r)
  | summand => exact (renames_summandOf harith).map (Arith.toNode_rename r)
  | factor => exact (renames_factorOf harith).map (Arith.toNode_rename r)
  | cond => exact (renames_cond d).map (Cond.toNode_rename r)
  | disjunct => exact (renames_disjunctOf (renames_conjunct d)).map (Cond.toNode_rename r)
  | conjunct => exact (renames_conjunct d).map (Cond.toNode_rename r)
  | comparison => exact (renames_comparisonOf (renames_arith d)).map (Cond.toNode_rename r)

end Phrase

/-! ## Reports -/

theorem ParseFault.found?_rename (f : ParseFault) :
    (f.rename r).found? = f.found?.map (Token.rename r) := by
  cases f <;> rfl

theorem ParseFault.front_rename (f : ParseFault) : (f.rename r).parts.1 = f.parts.1 := by
  cases f <;> rfl

/-- The report of the fault is not changed by the renaming but for the value in the token that it
shows, which is written both before and after. -/
def ParseFault.KeepsReport (f : ParseFault) : Prop :=
  (f.rename r).report = f.report ∨
    ∃ (t : Token) (v : Payload) (before after : String),
      f.found? = some t ∧ t.value = some v ∧
      v.shown = .ok before ∧ (v.rename r).shown = .ok after ∧
      f.report = .ok (f.parts.1 ++ ("Token(" ++ t.kind.name ++ ", " ++ before ++ ")")) ∧
      (f.rename r).report = .ok (f.parts.1 ++ ("Token(" ++ t.kind.name ++ ", " ++ after ++ ")"))

variable {r}

theorem Payload.exists_shown {v : Payload} (h : ∀ n, v = .int n → Text.isWritable n = true) :
    ∃ text, v.shown = .ok text := by
  cases v with
  | int n => exact ⟨toString n, by rw [shown, Text.decimal, if_pos (h n rfl)]⟩
  | text s => exact ⟨_, rfl⟩

theorem ParseFault.report_eq_of_value {f : ParseFault} {t : Token} {v : Payload} {text : String}
    (hf : f.found? = some t) (hv : t.value = some v) (htext : v.shown = .ok text) :
    f.report = .ok (f.parts.1 ++ ("Token(" ++ t.kind.name ++ ", " ++ text ++ ")")) := by
  rw [report_eq hf, Token.shown, hv]
  dsimp only
  rw [htext]
  rfl

theorem ParseFault.keepsReport {f : ParseFault}
    (h : ∀ t, f.found? = some t → t.kind = .number → ∀ n, t.int? = some n →
      Text.isWritable n = true ∧ Text.isWritable (r.number n) = true) : f.KeepsReport r := by
  cases hfound : f.found? with
  | none =>
    left
    cases f with
    | tooDeep | programTooDeep => rfl
    | _ => cases hfound
  | some t =>
    have hfound' : (f.rename r).found? = some (t.rename r) := by
      rw [found?_rename, hfound, Option.map_some]
    rcases t.rename_eq_or r with hsame | ⟨v, hv, hnumber, hrename⟩
    · left
      rw [report_eq hfound', report_eq hfound, front_rename, hsame]
    · right
      have hint : ∀ n, v = .int n →
          Text.isWritable n = true ∧ Text.isWritable (r.number n) = true := by
        intro n hn
        refine h t hfound (hnumber n hn) n ?_
        rw [Token.int?, hv, hn]
      obtain ⟨before, hbefore⟩ := Payload.exists_shown fun n hn => (hint n hn).1
      have hint' : ∀ n, v.rename r = .int n → Text.isWritable n = true := by
        intro n hn
        cases v with
        | int m =>
          obtain rfl := Payload.int.inj hn
          exact (hint m rfl).2
        | text s => cases hn
      obtain ⟨after, hafter⟩ := Payload.exists_shown hint'
      refine ⟨t, v, before, after, hfound, hv, hbefore, hafter,
        report_eq_of_value hfound hv hbefore, ?_⟩
      have hreport := report_eq_of_value (by rw [hfound', hrename]) rfl hafter
      rwa [front_rename] at hreport

theorem Token.rename_eq_self {t : Token}
    (hnumber : t.kind = .number → ∀ n, t.int? = some n → r.number n = n)
    (hident : t.kind = .ident → ∀ x, t.text? = some x → r.name x = x) : t.rename r = t := by
  unfold rename
  split
  · rw [hnumber rfl _ rfl]
  · rw [hident rfl _ rfl]
  · rfl

/-- A fault names no number that does not stand among the tokens: else a renaming that changes that
number alone would change the fault, but not the tokens. -/
theorem Phrase.number_of_fault {P : Int → Prop} {d k : Nat} {nt : Nonterminal} {ts : List Token}
    {f : ParseFault} (hP : ∀ t ∈ ts, t.kind = .number → ∀ n, t.int? = some n → P n)
    (hfail : nt.phrase d ts = .fail f k) {t : Token} (hf : f.found? = some t)
    (ht : t.kind = .number) {n : Int} (hn : t.int? = some n) : P n := by
  apply Classical.byContradiction
  intro hnot
  let other : Renaming := ⟨id, fun m => if m = n then n + 1 else m⟩
  have hsame : ts.map (Token.rename other) = ts := by
    refine (List.map_congr_left fun u hu => ?_).trans (List.map_id ts)
    refine Token.rename_eq_self (fun hu' m hm => ?_) fun _ _ _ => rfl
    refine if_neg ?_
    rintro rfl
    exact hnot (hP u hu hu' m hm)
  have hfault := renames_phrase (r := other) d nt ts
  rw [hsame, hfail] at hfault
  have hfixed : f.rename other = f := (Outcome.fail.inj hfault).1.symm
  have hfound := f.found?_rename other
  rw [hfixed, hf, Option.map_some] at hfound
  have hint := Token.int?_rename other ht
  rw [← Option.some.inj hfound, hn, Option.map_some] at hint
  have hchanged : n = other.number n := Option.some.inj hint
  simp only [other, if_true] at hchanged
  omega

/-! ## Cursors -/

variable (r)

/-- The cursor in the renamed tokens. -/
def Cursor.rename (c : Cursor) : Cursor :=
  { c with tokens := c.tokens.map (Token.rename r) }

/-- The fault with another value in the token that it names. -/
def CursorFault.rename : CursorFault → CursorFault
  | outOfRange => outOfRange
  | parse f => parse (f.rename r)

theorem Cursor.ahead?_rename (c : Cursor) :
    (c.rename r).ahead? = c.ahead?.map (List.map (Token.rename r)) := by
  have hlength : (c.rename r).length = c.length := by
    rw [length, length, Cursor.rename, List.length_map]
  have hposition : (c.rename r).position = c.position := rfl
  have htokens : (c.rename r).tokens = c.tokens.map (Token.rename r) := rfl
  rw [ahead?, ahead?, aheadFrom?, aheadFrom?, hlength, hposition, htokens]
  split
  · rw [Option.map_some, List.map_drop]
  · split
    · rw [Option.map_some, List.map_append, List.map_drop]
    · rfl

theorem Cursor.mem_of_mem_ahead {c : Cursor} {ts : List Token} (h : c.ahead? = some ts) {t : Token}
    (ht : t ∈ ts) : t ∈ c.tokens := by
  rw [ahead?, aheadFrom?] at h
  split at h
  · obtain rfl := Option.some.inj h
    exact List.mem_of_mem_drop ht
  · split at h
    · obtain rfl := Option.some.inj h
      rcases List.mem_append.mp ht with hdrop | htokens
      · exact List.mem_of_mem_drop hdrop
      · exact htokens
    · cases h

/--
**The parser is blind to values.** With other names and other numbers in the tokens a run ends at
the same position, with the tree in which they are replaced, or with a fault that names the renamed
token. If the numbers among the tokens can be written before and after, then the report of that
fault is the same but for the value shown.
-/
theorem Cursor.read_rename (c : Cursor) (d : Nat) (nt : Nonterminal)
    (hnumbers : ∀ t ∈ c.tokens, t.kind = .number → ∀ n, t.int? = some n →
      Text.isWritable n = true ∧ Text.isWritable (r.number n) = true) :
    (c.rename r).read d nt
        = (((c.read d nt).1.map (Node.rename r)).mapError (CursorFault.rename r),
          (c.read d nt).2.rename r) ∧
      ∀ f, (c.read d nt).1 = .error (.parse f) → f.KeepsReport r := by
  rw [read, read, ahead?_rename]
  cases hahead : c.ahead? with
  | none => exact ⟨rfl, fun g hg => by cases hg⟩
  | some ts =>
    dsimp only [Option.map_some]
    rw [Phrase.renames_phrase d nt ts]
    cases hread : nt.phrase d ts with
    | ok n k => exact ⟨rfl, fun g hg => by cases hg⟩
    | fail f k =>
      refine ⟨rfl, fun g hg => ?_⟩
      obtain rfl := CursorFault.parse.inj (Except.error.inj hg)
      refine ParseFault.keepsReport fun t hfound ht n hn => ?_
      exact Phrase.number_of_fault (fun u hu => hnumbers u (mem_of_mem_ahead hahead hu)) hread
        hfound ht hn

/-- Every name with a dash and every number one higher: the assignment that is read, and the number
that is refused in the place of a semicolon. -/
theorem Cursor.read_rename_successor :
    let r : Renaming := ⟨fun x => x ++ "'", fun n => n + 1⟩
    let start : List Token := [.ident ['x'], .symbol .assign, .number 1]
    let read : Cursor := { tokens := start ++ [.symbol .semicolon] }
    let refused : Cursor := { tokens := start ++ [.number 2] }
    (∀ c ∈ [read, refused], ∀ t ∈ c.tokens, t.kind = .number → ∀ n ∈ t.int?,
      Text.isWritable n = true ∧ Text.isWritable (r.number n) = true) ∧
    ((read.rename r).read nestingLimit .statement).1 = .ok (.assign "x'" (.const 2)) ∧
    ((refused.rename r).read nestingLimit .statement).1
      = .error (.parse (.expected [.symbol .semicolon] (.number 3))) ∧
    ((refused.rename r).read nestingLimit .statement).2.position = 3 ∧
    ParseFault.KeepsReport r (.expected [.symbol .semicolon] (.number 2)) := by
  intro r start read refused
  have hnumbers : ∀ c ∈ [read, refused], ∀ t ∈ c.tokens, t.kind = .number → ∀ n ∈ t.int?,
      Text.isWritable n = true ∧ Text.isWritable (r.number n) = true := by
    decide +kernel
  have hread : (read.read nestingLimit .statement).1 = .ok (.assign "x" (.const 1)) := by
    have hstmt : DerivesStmt nestingLimit read.tokens (.assign "x" (.const 1)) :=
      .assign rfl rfl rfl (.single (.operand (.const rfl rfl))) rfl
    have hahead : read.ahead? = some (read.tokens ++ []) := rfl
    have hphrase : Phrase.statement nestingLimit (read.tokens ++ [])
        = .ok (.assign "x" (.const 1)) 4 := Phrase.reads_statement hstmt []
    rw [Cursor.read, hahead]
    simp only [Nonterminal.phrase, Phrase.map, hphrase, Outcome.map, Stmt.toNode, Arith.toNode]
  have hrefused : refused.read nestingLimit .statement
      = (.error (.parse (.expected [.symbol .semicolon] (.number 2))),
        { refused with position := 3 }) := by
    have hahead : refused.ahead? = some refused.tokens := rfl
    have hphrase : Nonterminal.statement.phrase nestingLimit refused.tokens
        = .fail (.expected [.symbol .semicolon] (.number 2)) 3 := by decide +kernel
    rw [Cursor.read, hahead]
    simp only [hphrase]
    rfl
  obtain ⟨hread', -⟩ := read_rename r read nestingLimit .statement (hnumbers _ (by simp))
  obtain ⟨hrefused', hreport⟩ :=
    read_rename r refused nestingLimit .statement (hnumbers _ (by simp))
  rw [hread] at hread'
  rw [hrefused] at hrefused' hreport
  refine ⟨hnumbers, ?_, ?_, ?_, hreport _ rfl⟩
  · rw [hread']
    rfl
  · rw [hrefused']
    rfl
  · rw [hrefused']
    rfl

end WhileFrontend
