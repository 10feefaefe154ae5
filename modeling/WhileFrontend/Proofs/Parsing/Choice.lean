import WhileFrontend.Proofs.Parsing.Reading
import WhileFrontend.Parsing.Program

/-!
# The choice by the first token

A factor, a conjunct and a statement are chosen by the kind of the first token. Here each choice is
an equation for a list that starts with `t`.
-/

namespace WhileFrontend.Phrase

theorem factorOf_cons (inner : Phrase Arith) (t : Token) (ts : List Token) :
    factorOf inner (t :: ts) =
      match t.kind with
      | .symbol .lparen =>
        ((do let e ← inner; let _ ← expect (.symbol .rparen); return e : Phrase Arith) ts).after 1
      | .number =>
        match t.int? with
        | some n => .ok (.const n) 1
        | none => .fail (.malformedNumber t) 0
      | .ident =>
        match t.text? with
        | some x => .ok (.var x) 1
        | none => .fail (.malformedIdent t) 0
      | _ => .fail (.noOperand t) 0 := by
  rw [factorOf, peek_bind, List.headD_cons]
  cases t.kind with
  | symbol s => cases s <;> rfl
  | number => cases t.int? <;> rfl
  | ident => cases t.text? <;> rfl
  | _ => rfl

theorem conjunctOf_nil (arith : Phrase Arith) (inner operand : Phrase Cond) :
    conjunctOf arith inner operand [] = comparisonOf arith [] := by
  rw [conjunctOf, peek_bind]
  rfl

theorem conjunctOf_cons (arith : Phrase Arith) (inner operand : Phrase Cond) (t : Token)
    (ts : List Token) :
    conjunctOf arith inner operand (t :: ts) =
      match t.kind with
      | .symbol .lparen =>
        ((do let c ← inner; let _ ← expect (.symbol .rparen); return c : Phrase Cond) ts).after 1
      | .keyword .notKw => ((do let c ← operand; return .negation c : Phrase Cond) ts).after 1
      | .keyword .trueKw => .ok (.truth true) 1
      | .keyword .falseKw => .ok (.truth false) 1
      | _ => comparisonOf arith (t :: ts) := by
  rw [conjunctOf, peek_bind, List.headD_cons]
  cases t.kind with
  | symbol s => cases s <;> rfl
  | keyword k => cases k <;> rfl
  | _ => rfl

theorem statementOf_cons (arith : Phrase Arith) (cond : Phrase Cond) (program : Phrase Program)
    (t : Token) (ts : List Token) :
    statementOf arith cond program (t :: ts) =
      match t.kind with
      | .keyword .whileKw => whileOf cond program (t :: ts)
      | .keyword .ifKw => ifOf cond program (t :: ts)
      | .keyword .skipKw => skip (t :: ts)
      | .ident =>
        if frontKind ts = .symbol .assign then assignOf arith (t :: ts)
        else .fail (.noStatement t) 0
      | _ => .fail (.noStatement t) 0 := by
  rw [statementOf, peek_bind, peekSecond_bind, List.headD_cons]
  have hsecond : ((t :: ts).getD 1 .eof).kind = frontKind ts := by cases ts <;> rfl
  cases t.kind with
  | symbol s => rfl
  | keyword k => cases k <;> rfl
  | ident =>
    simp only [hsecond]
    split <;> rfl
  | _ => rfl

end WhileFrontend.Phrase
