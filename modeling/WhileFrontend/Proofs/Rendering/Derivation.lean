import WhileFrontend.Proofs.Grammar.Shape
import WhileFrontend.Proofs.Parsing.Reading
import WhileFrontend.Proofs.Rendering.Nesting
import WhileFrontend.Proofs.Rendering.Tokens

/-!
# Renderings are sentences

The tokens of a rendered tree are derived by the grammar with that tree, as deeply nested as
`nesting` says. At a place that admits operators from some level on, an expression is rendered as a
phrase of the sort that this level stands for (`ArithSort.ofLevel`, `CondSort.ofLevel`): an operator
that the place admits makes up a phrase of its own sort, which a looser sort includes, and any other
stands in parentheses, which every sort includes (`derives_grouped`).
-/

namespace WhileFrontend

/-! ## Sorts by level -/

/-- The sort of what is rendered where operators from a level on are admitted. -/
def ArithSort.ofLevel : Nat → ArithSort
  | 0 => sum
  | 1 => sum
  | 2 => product
  | _ + 3 => operand

/-- The sort of what is rendered where connectives from a level on are admitted. -/
def CondSort.ofLevel : Nat → CondSort
  | 0 => disjunction
  | 1 => disjunction
  | 2 => conjunction
  | _ + 3 => conjunct

theorem DerivesArith.of_succ {d n : Nat} {ts : List Token} {e : Arith}
    (h : DerivesArith d (.ofLevel (n + 1)) ts e) : DerivesArith d (.ofLevel n) ts e :=
  match n, h with
  | 0, h => h
  | 1, h => .single h
  | 2, h => .operand h
  | _ + 3, h => h

theorem DerivesCond.of_succ {d n : Nat} {ts : List Token} {c : Cond}
    (h : DerivesCond d (.ofLevel (n + 1)) ts c) : DerivesCond d (.ofLevel n) ts c :=
  match n, h with
  | 0, h => h
  | 1, h => .single h
  | 2, h => .conjunct h
  | _ + 3, h => h

section levels

/-! `D d level ts` stands for either relation: `ts` is derived within the bound `d` by the sort of
`level`, with a tree that is left out. -/

variable {D : Nat → Nat → List Token → Prop}

/-- A place that admits looser operators admits whatever it did before. -/
theorem derives_of_le (hsucc : ∀ d n ts, D d (n + 1) ts → D d n ts) {d m n : Nat}
    {ts : List Token} (h : D d n ts) (hmn : m ≤ n) : D d m ts := by
  induction hmn with
  | refl => exact h
  | step _ ih => exact ih (hsucc _ _ _ h)

/-- With parentheses where it asks for them, a place admits any operator. -/
theorem derives_grouped (hsucc : ∀ d n ts, D d (n + 1) ts → D d n ts)
    (hgroup : ∀ d n ts, D d 0 ts →
      D (d + 3) (n + 3) (.symbol .lparen :: (ts ++ [.symbol .rparen])))
    {opLevel level nesting d : Nat} {ts : List Token} (h : ∀ d, nesting ≤ d → D d opLevel ts)
    (hd : nesting + groupCost opLevel level ≤ d) : D d level (grouped opLevel level ts) := by
  unfold groupCost at hd
  unfold grouped
  split
  · next hlt =>
    rw [if_pos hlt] at hd
    obtain ⟨b, rfl, hb⟩ := exists_add_of_le hd
    have hinside : D b 0 ts := derives_of_le hsucc (h b hb) (Nat.zero_le _)
    exact derives_of_le hsucc (hgroup b level ts hinside) (Nat.le_add_right level 3)
  · next hge =>
    rw [if_neg hge] at hd
    exact derives_of_le hsucc (h d hd) (Nat.le_of_not_lt hge)

end levels

section

variable {d : Nat} {ts : List Token}

theorem DerivesArith.of_operand {e : Arith} (h : DerivesArith d .operand ts e) (level : Nat) :
    DerivesArith d (.ofLevel level) ts e :=
  derives_of_le (D := fun d n ts => DerivesArith d (.ofLevel n) ts e) (fun _ _ _ => of_succ)
    (n := level + 3) h (Nat.le_add_right level 3)

theorem DerivesCond.of_conjunct {c : Cond} (h : DerivesCond d .conjunct ts c) (level : Nat) :
    DerivesCond d (.ofLevel level) ts c :=
  derives_of_le (D := fun d n ts => DerivesCond d (.ofLevel n) ts c) (fun _ _ _ => of_succ)
    (n := level + 3) h (Nat.le_add_right level 3)

theorem DerivesArith.grouped {e : Arith} {opLevel level nesting : Nat}
    (h : ∀ d, nesting ≤ d → DerivesArith d (.ofLevel opLevel) ts e)
    (hd : nesting + groupCost opLevel level ≤ d) :
    DerivesArith d (.ofLevel level) (grouped opLevel level ts) e :=
  derives_grouped (D := fun d n ts => DerivesArith d (.ofLevel n) ts e) (fun _ _ _ => of_succ)
    (fun _ _ _ inside => .group rfl inside rfl) h hd

theorem DerivesCond.grouped {c : Cond} {opLevel level nesting : Nat}
    (h : ∀ d, nesting ≤ d → DerivesCond d (.ofLevel opLevel) ts c)
    (hd : nesting + groupCost opLevel level ≤ d) :
    DerivesCond d (.ofLevel level) (grouped opLevel level ts) c :=
  derives_grouped (D := fun d n ts => DerivesCond d (.ofLevel n) ts c) (fun _ _ _ => of_succ)
    (fun _ _ _ inside => .group rfl inside rfl) h hd

end

/-! ## Operators -/

section operators

variable {d : Nat} {ts us : List Token}

theorem DerivesArith.binary {op : ArithOp} {l r : Arith}
    (hl : DerivesArith d (.ofLevel op.level) ts l)
    (hr : DerivesArith d (.ofLevel (op.level + 1)) us r) :
    DerivesArith d (.ofLevel op.level) (ts ++ op.token :: us) (.binary op l r) := by
  cases op with
  | add => exact .sum hl rfl hr
  | sub => exact .sum hl rfl hr
  | mul => exact .product hl rfl hr
  | intDiv => exact .product hl rfl hr
  | mod => exact .product hl rfl hr

theorem DerivesCond.binary {op : BoolOp} {l r : Cond}
    (hl : DerivesCond d (.ofLevel op.level) ts l)
    (hr : DerivesCond d (.ofLevel (op.level + 1)) us r) :
    DerivesCond d (.ofLevel op.level) (ts ++ op.token :: us) (.binary op l r) := by
  cases op with
  | and => exact .conjunction hl rfl hr
  | or => exact .disjunction hl rfl hr

theorem RelOp.relational?_token (op : RelOp) : op.token.kind.relational? = some op := by
  cases op <;> rfl

/-- A comparison that starts with no parenthesis is a conjunct. -/
theorem DerivesComparison.conjunct {c : Cond} (h : DerivesComparison d ts c)
    (hfirst : frontKind ts ≠ .symbol .lparen) : DerivesCond d .conjunct ts c := by
  obtain ⟨t, us, rfl, -⟩ := h.first
  exact .comparison h hfirst

end operators

/-! ## First tokens -/

/-- An expression whose text starts bare is rendered without a parenthesis at its start, where it
needs none around all of it. -/
theorem Arith.frontKind_tokens {e : Arith} (h : e.StartsBare) {level : Nat} (hlevel : level ≤ 2)
    (hsum : ¬ (level = 2 ∧ e.IsSum)) (rest : List Token) :
    frontKind (e.tokens level ++ rest) ≠ .symbol .lparen := by
  induction e generalizing level rest with
  | const n => exact Kind.noConfusion
  | var x => exact Kind.noConfusion
  | binary op l r ihl ihr =>
    obtain ⟨hleft, hl⟩ := h
    -- the whole is not in parentheses, so it starts as its left operand does
    have hop := op.level_eq
    have hle : ¬ op.level < level := by
      intro hlt
      exact hsum ⟨by omega, show op.level = 1 by omega⟩
    rw [tokens, grouped, if_neg hle, List.append_assoc]
    exact ihl hl (by omega) hleft _

/-! ## Trees -/

theorem Arith.derives_tokens (e : Arith) {level d : Nat} (hd : e.nesting level ≤ d) :
    DerivesArith d (.ofLevel level) (e.tokens level) e := by
  induction e generalizing level d with
  | const n => exact DerivesArith.of_operand (.const rfl rfl) level
  | var x => exact DerivesArith.of_operand (.var rfl rfl) level
  | binary op l r ihl ihr =>
    refine DerivesArith.grouped (fun b hb => ?_) hd
    obtain ⟨hl, hr⟩ := Nat.max_le.mp hb
    exact .binary (ihl hl) (ihr hr)

theorem Cond.derives_tokens {c : Cond} (hc : c.Expressible) {level d : Nat}
    (hd : c.nesting level ≤ d) : DerivesCond d (.ofLevel level) (c.tokens level) c := by
  induction c generalizing level d with
  | truth b =>
    cases b with
    | true => exact DerivesCond.of_conjunct (.truth rfl) level
    | false => exact DerivesCond.of_conjunct (.falsity rfl) level
  | negation c ih =>
    obtain ⟨b, rfl, hb⟩ := exists_add_of_le (k := 1) hd
    have hoperand : DerivesCond b .conjunct (c.tokens 3) c := ih hc hb
    exact DerivesCond.of_conjunct (.negation rfl hoperand) level
  | compare op l r =>
    obtain ⟨-, hbare, -⟩ := hc
    obtain ⟨hl, hr⟩ := Nat.max_le.mp hd
    have hcompare : DerivesComparison d (l.tokens 0 ++ op.token :: r.tokens 0) (.compare op l r) :=
      .compare (l.derives_tokens hl) op.relational?_token (r.derives_tokens hr)
    have hfirst := Arith.frontKind_tokens hbare (Nat.zero_le 2) (by simp) (op.token :: r.tokens 0)
    exact DerivesCond.of_conjunct (hcompare.conjunct hfirst) level
  | binary op l r ihl ihr =>
    obtain ⟨hcl, hcr⟩ := hc
    refine DerivesCond.grouped (fun b hb => ?_) hd
    obtain ⟨hl, hr⟩ := Nat.max_le.mp hb
    exact .binary (ihl hcl hl) (ihr hcr hr)

mutual

theorem Stmt.derives_tokens {s : Stmt} (hs : s.Expressible) {d : Nat} (hd : s.nesting ≤ d) :
    DerivesStmt d s.tokens s := by
  match s with
  | .assign x e => exact .assign rfl rfl rfl (e.derives_tokens hd) rfl
  | .skip => exact .skip rfl rfl
  | .whileDo c body =>
    obtain ⟨hc, hbody⟩ := hs
    obtain ⟨b, rfl, hb⟩ := exists_add_of_le (k := 3) hd
    obtain ⟨hdc, hdbody⟩ := Nat.max_le.mp hb
    exact .whileDo rfl (Cond.derives_tokens hc hdc) rfl (Program.derives_tokens hbody hdbody) rfl
  | .ifThen c t =>
    obtain ⟨hc, ht⟩ := hs
    obtain ⟨b, rfl, hb⟩ := exists_add_of_le (k := 3) hd
    obtain ⟨hdc, hdt⟩ := Nat.max_le.mp hb
    exact .ifThen rfl (Cond.derives_tokens hc hdc) rfl (Program.derives_tokens ht hdt) rfl
  | .ifElse c t e =>
    obtain ⟨hc, ht, he⟩ := hs
    obtain ⟨b, rfl, hb⟩ := exists_add_of_le (k := 3) hd
    obtain ⟨hdc, hdbranches⟩ := Nat.max_le.mp hb
    obtain ⟨hdt, hde⟩ := Nat.max_le.mp hdbranches
    exact .ifElse rfl (Cond.derives_tokens hc hdc) rfl (Program.derives_tokens ht hdt) rfl
      (Program.derives_tokens he hde) rfl

/-- The tokens of a rendered program are derived with that program, no deeper than it is nested. -/
theorem Program.derives_tokens {p : Program} (hp : p.Expressible) {d : Nat} (hd : p.nesting ≤ d) :
    DerivesProgram d p.tokens p := by
  match p with
  | .last s => exact .last (Stmt.derives_tokens hp hd)
  | .seq s rest =>
    obtain ⟨hs, hrest⟩ := hp
    obtain ⟨hds, hdrest⟩ := Nat.max_le.mp hd
    exact .seq (Stmt.derives_tokens hs hds) (Program.derives_tokens hrest hdrest)

end

/-- A rendered program is nested just as deeply as `nesting` says. -/
theorem Program.derives_tokens_iff {p : Program} (hp : p.Expressible) {d : Nat} :
    DerivesProgram d p.tokens p ↔ p.nesting ≤ d := by
  constructor
  · intro h
    exact h.nesting_le
  · intro hd
    exact Program.derives_tokens hp hd

end WhileFrontend
