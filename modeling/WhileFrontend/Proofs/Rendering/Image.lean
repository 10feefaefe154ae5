import WhileFrontend.Proofs.Grammar.Shape
import WhileFrontend.Proofs.Parsing.Reading
import WhileFrontend.Proofs.Rendering.Nesting
import WhileFrontend.Proofs.Rendering.Spelling

/-!
# Trees of program texts are expressible

The tokens of a text carry no other values than numerals and names have (`Token.IsLexical`), so a
tree that is derived from them holds no others. That its comparisons start with no parenthesis is
not seen from the tokens: a sum can only be the left operand of a product in parentheses, and a
comparison that is a conjunct does not start with one (`DerivesArith.startsBare`).
-/

namespace WhileFrontend

open Text Lexer

/-! ## Values of tokens -/

/-- A number is a numeral's and a name is a word that spells no keyword. -/
def Token.IsLexical (t : Token) : Prop :=
  (t.kind = .number → ∀ n, t.int? = some n → 0 ≤ n) ∧
  (t.kind = .ident → ∀ x, t.text? = some x → IsName x)

theorem isLexical_of_kind {t : Token} (hnumber : t.kind ≠ .number) (hident : t.kind ≠ .ident) :
    t.IsLexical :=
  ⟨fun h => absurd h hnumber, fun h => absurd h hident⟩

theorem Token.IsOfText.isLexical {t : Token} (h : t.IsOfText) : t.IsLexical := by
  cases h with
  | symbol s => exact isLexical_of_kind Kind.noConfusion Kind.noConfusion
  | keyword k => exact isLexical_of_kind Kind.noConfusion Kind.noConfusion
  | @number n hn =>
    refine ⟨fun _ m hm => ?_, fun hident => Kind.noConfusion hident⟩
    obtain rfl : n = m := Option.some.inj hm
    exact hn
  | @name x hx =>
    refine ⟨fun hnumber => Kind.noConfusion hnumber, fun _ y hy => ?_⟩
    obtain rfl : x = y := Option.some.inj hy
    exact hx
  | unknown => exact isLexical_of_kind Kind.noConfusion Kind.noConfusion

/-- All tokens of a text carry what numerals and names have. -/
theorem isLexical_of_mem_tokenize {s : String} : ∀ t ∈ tokenize s, t.IsLexical :=
  fun t ht => (isOfText_of_mem_tokenize t ht).isLexical

/-! ## Trees -/

theorem DerivesArith.expressible {d : Nat} {s : ArithSort} {ts : List Token} {e : Arith}
    (h : DerivesArith d s ts e) (hts : ∀ t ∈ ts, t.IsLexical) : e.Expressible := by
  induction h with
  | const kind value => exact (hts _ List.mem_cons_self).1 kind _ value
  | var kind value => exact (hts _ List.mem_cons_self).2 kind _ value
  | group openKind inside closeKind ih =>
    exact ih (List.forall_mem_append.mp (List.forall_mem_cons.mp hts).2).1
  | operand h ih => exact ih hts
  | product left kind right ihl ihr =>
    obtain ⟨hl, hr⟩ := List.forall_mem_append.mp hts
    exact ⟨ihl hl, ihr (List.forall_mem_cons.mp hr).2⟩
  | single h ih => exact ih hts
  | sum left kind right ihl ihr =>
    obtain ⟨hl, hr⟩ := List.forall_mem_append.mp hts
    exact ⟨ihl hl, ihr (List.forall_mem_cons.mp hr).2⟩

/-- The first token of a chain is the first of its first operand. -/
theorem DerivesArith.frontKind_append {d : Nat} {s : ArithSort} {ts : List Token} {e : Arith}
    (h : DerivesArith d s ts e) (us : List Token) : frontKind (ts ++ us) = frontKind ts := by
  obtain ⟨t, ts, rfl, -⟩ := h.first
  rfl

/-- Without a parenthesis at its start, a phrase has no sum as left operand of a product, and a
product is no sum. -/
theorem DerivesArith.startsBare {d : Nat} {s : ArithSort} {ts : List Token} {e : Arith}
    (h : DerivesArith d s ts e) (hfirst : frontKind ts ≠ .symbol .lparen) :
    e.StartsBare ∧ (s ≠ .sum → ¬ e.IsSum) := by
  induction h with
  | const kind value => exact ⟨trivial, fun _ => id⟩
  | var kind value => exact ⟨trivial, fun _ => id⟩
  | group openKind inside closeKind ih => exact absurd openKind hfirst
  | operand h ih =>
    obtain ⟨hbare, hsum⟩ := ih hfirst
    exact ⟨hbare, fun _ => hsum ArithSort.noConfusion⟩
  | product left kind right ihl ihr =>
    rw [left.frontKind_append] at hfirst
    obtain ⟨hbare, hsum⟩ := ihl hfirst
    have hlevel := ArithOp.level_of_multiplicative? kind
    refine ⟨⟨fun h => hsum ArithSort.noConfusion h.2, hbare⟩, fun _ h => ?_⟩
    have hone : _ = 1 := h
    omega
  | single h ih => exact ⟨(ih hfirst).1, fun hs => absurd rfl hs⟩
  | sum left kind right ihl ihr =>
    rw [left.frontKind_append] at hfirst
    obtain ⟨hbare, -⟩ := ihl hfirst
    have hlevel := ArithOp.level_of_additive? kind
    exact ⟨⟨fun h => by omega, hbare⟩, fun hs => absurd rfl hs⟩

theorem DerivesComparison.expressible {d : Nat} {ts : List Token} {c : Cond}
    (h : DerivesComparison d ts c) (hts : ∀ t ∈ ts, t.IsLexical)
    (hfirst : frontKind ts ≠ .symbol .lparen) : c.Expressible := by
  cases h with
  | compare left kind right =>
    obtain ⟨hl, hr⟩ := List.forall_mem_append.mp hts
    rw [left.frontKind_append] at hfirst
    have hright := right.expressible (List.forall_mem_cons.mp hr).2
    exact ⟨left.expressible hl, (left.startsBare hfirst).1, hright⟩

theorem DerivesCond.expressible {d : Nat} {s : CondSort} {ts : List Token} {c : Cond}
    (h : DerivesCond d s ts c) (hts : ∀ t ∈ ts, t.IsLexical) : c.Expressible := by
  induction h with
  | truth kind => trivial
  | falsity kind => trivial
  | negation kind operand ih => exact ih (List.forall_mem_cons.mp hts).2
  | group openKind inside closeKind ih =>
    exact ih (List.forall_mem_append.mp (List.forall_mem_cons.mp hts).2).1
  | comparison h hfirst => exact h.expressible hts hfirst
  | conjunct h ih => exact ih hts
  | conjunction left kind right ihl ihr =>
    obtain ⟨hl, hr⟩ := List.forall_mem_append.mp hts
    exact ⟨ihl hl, ihr (List.forall_mem_cons.mp hr).2⟩
  | single h ih => exact ih hts
  | disjunction left kind right ihl ihr =>
    obtain ⟨hl, hr⟩ := List.forall_mem_append.mp hts
    exact ⟨ihl hl, ihr (List.forall_mem_cons.mp hr).2⟩

mutual

theorem DerivesStmt.expressible {d : Nat} {ts : List Token} {s : Stmt} (h : DerivesStmt d ts s)
    (hts : ∀ t ∈ ts, t.IsLexical) : s.Expressible := by
  match h with
  | .assign targetKind value kind expr endKind =>
    simp only [List.forall_mem_cons, List.forall_mem_append] at hts
    exact ⟨hts.1.2 targetKind _ value, expr.expressible hts.2.2.1⟩
  | .skip kind endKind => trivial
  | .whileDo whileKind cond doKind inside doneKind =>
    simp only [List.forall_mem_cons, List.forall_mem_append] at hts
    exact ⟨cond.expressible hts.2.1, inside.expressible hts.2.2.2.1⟩
  | .ifThen ifKind cond thenKind thenBranch fiKind =>
    simp only [List.forall_mem_cons, List.forall_mem_append] at hts
    exact ⟨cond.expressible hts.2.1, thenBranch.expressible hts.2.2.2.1⟩
  | .ifElse ifKind cond thenKind thenBranch elseKind elseBranch fiKind =>
    simp only [List.forall_mem_cons, List.forall_mem_append] at hts
    exact ⟨cond.expressible hts.2.1, thenBranch.expressible hts.2.2.2.1,
      elseBranch.expressible hts.2.2.2.2.2.1⟩

/-- A program that is derived from the tokens of a text is expressible. -/
theorem DerivesProgram.expressible {d : Nat} {ts : List Token} {p : Program}
    (h : DerivesProgram d ts p) (hts : ∀ t ∈ ts, t.IsLexical) : p.Expressible := by
  match h with
  | .last h => exact h.expressible hts
  | .seq first rest =>
    obtain ⟨hfirst, hrest⟩ := List.forall_mem_append.mp hts
    exact ⟨first.expressible hfirst, rest.expressible hrest⟩

end

end WhileFrontend
