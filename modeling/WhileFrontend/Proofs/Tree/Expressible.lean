import WhileFrontend.Token.Lexer
import WhileFrontend.Tree.Source

/-!
# Trees that program text can express

A tree can hold more than any program text says: a negative constant, a name that is no word or that
spells a keyword, and a comparison whose text would start with a parenthesis, which opens a
condition. `Program.Expressible` rules these out and nothing else. It can be decided for a given
tree.
-/

namespace WhileFrontend

open Text Lexer

/-! ## Names -/

/-- A letter with name characters after it. -/
def IsWord : List Char → Prop
  | [] => False
  | c :: cs => isLetter c = true ∧ ∀ d ∈ cs, isNameChar d = true

/-- A word that spells no keyword. -/
def IsName (x : String) : Prop :=
  IsWord x.toList ∧ Keyword.ofSpelling? x.toList = none

instance IsWord.decidable : (cs : List Char) → Decidable (IsWord cs)
  | [] => .isFalse id
  | c :: cs =>
    have := List.decidableBAll (fun d => isNameChar d = true) cs
    inferInstanceAs (Decidable (isLetter c = true ∧ ∀ d ∈ cs, isNameChar d = true))

instance (x : String) : Decidable (IsName x) :=
  inferInstanceAs (Decidable (_ ∧ _))

/-! ## Expressions -/

namespace Arith

/-- The outermost operator is additive. -/
def IsSum : Arith → Prop
  | const _ => False
  | var _ => False
  | binary op _ _ => op.level = 1

/-- Along the left spine no additive node is the left child of a multiplicative one, so the text
starts with no parenthesis. -/
def StartsBare : Arith → Prop
  | const _ => True
  | var _ => True
  | binary op l _ => ¬ (op.level = 2 ∧ l.IsSum) ∧ l.StartsBare

/-- Every constant is a numeral's and every name is a word. -/
def Expressible : Arith → Prop
  | const n => 0 ≤ n
  | var x => IsName x
  | binary _ l r => l.Expressible ∧ r.Expressible

instance IsSum.decidable : (e : Arith) → Decidable e.IsSum
  | const _ => .isFalse id
  | var _ => .isFalse id
  | binary op _ _ => inferInstanceAs (Decidable (op.level = 1))

instance StartsBare.decidable : (e : Arith) → Decidable e.StartsBare
  | const _ => .isTrue trivial
  | var _ => .isTrue trivial
  | binary op l _ =>
    have := StartsBare.decidable l
    inferInstanceAs (Decidable (¬ (op.level = 2 ∧ l.IsSum) ∧ l.StartsBare))

instance Expressible.decidable : (e : Arith) → Decidable e.Expressible
  | const n => inferInstanceAs (Decidable (0 ≤ n))
  | var x => inferInstanceAs (Decidable (IsName x))
  | binary _ l r =>
    have := Expressible.decidable l
    have := Expressible.decidable r
    inferInstanceAs (Decidable (l.Expressible ∧ r.Expressible))

end Arith

namespace Cond

/-- Every arithmetic expression inside is expressible, and no comparison's text starts with a
parenthesis. -/
def Expressible : Cond → Prop
  | truth _ => True
  | negation c => c.Expressible
  | binary _ l r => l.Expressible ∧ r.Expressible
  | compare _ l r => l.Expressible ∧ l.StartsBare ∧ r.Expressible

instance Expressible.decidable : (c : Cond) → Decidable c.Expressible
  | truth _ => .isTrue trivial
  | negation c => Expressible.decidable c
  | binary _ l r =>
    have := Expressible.decidable l
    have := Expressible.decidable r
    inferInstanceAs (Decidable (l.Expressible ∧ r.Expressible))
  | compare _ l r => inferInstanceAs (Decidable (l.Expressible ∧ l.StartsBare ∧ r.Expressible))

end Cond

/-! ## Statements -/

mutual

/-- Every expression inside is expressible, and what is assigned to is a name. -/
def Stmt.Expressible : Stmt → Prop
  | .assign x e => IsName x ∧ e.Expressible
  | .skip => True
  | .ifThen c t => c.Expressible ∧ t.Expressible
  | .ifElse c t e => c.Expressible ∧ t.Expressible ∧ e.Expressible
  | .whileDo c body => c.Expressible ∧ body.Expressible

/-- Every statement is expressible. -/
def Program.Expressible : Program → Prop
  | .last s => s.Expressible
  | .seq s rest => s.Expressible ∧ rest.Expressible

end

mutual

instance Stmt.Expressible.decidable : (s : Stmt) → Decidable s.Expressible
  | .assign x e => inferInstanceAs (Decidable (IsName x ∧ e.Expressible))
  | .skip => .isTrue trivial
  | .ifThen c t =>
    have := Program.Expressible.decidable t
    inferInstanceAs (Decidable (c.Expressible ∧ t.Expressible))
  | .ifElse c t e =>
    have := Program.Expressible.decidable t
    have := Program.Expressible.decidable e
    inferInstanceAs (Decidable (c.Expressible ∧ t.Expressible ∧ e.Expressible))
  | .whileDo c body =>
    have := Program.Expressible.decidable body
    inferInstanceAs (Decidable (c.Expressible ∧ body.Expressible))

instance Program.Expressible.decidable : (p : Program) → Decidable p.Expressible
  | .last s => Stmt.Expressible.decidable s
  | .seq s rest =>
    have := Stmt.Expressible.decidable s
    have := Program.Expressible.decidable rest
    inferInstanceAs (Decidable (s.Expressible ∧ rest.Expressible))

end

/-- A sum may be the right operand of a product that is compared, but not the left one. -/
example :
    (Cond.compare .lt (.binary .mul (.var "x") (.binary .add (.const 1) (.const 2)))
      (.var "y")).Expressible ∧
    ¬ (Cond.compare .lt (.binary .mul (.binary .add (.const 1) (.const 2)) (.var "x"))
      (.var "y")).Expressible := by
  decide +kernel

end WhileFrontend
