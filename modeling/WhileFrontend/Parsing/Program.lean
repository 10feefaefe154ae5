import WhileFrontend.Parsing.Phrase
import WhileFrontend.Token.Lexer
import WhileFrontend.Tree.Basic

/-!
# Parsing programs

    program    := statement program?
    statement  := "while" cond "do" program "done"
                | "if" cond "then" program ("else" program)? "fi"
                | "skip" ";"
                | IDENT ":=" arith ";"
    arith      := summand (("+" | "-") summand)*
    summand    := factor (("*" | "div" | "mod") factor)*
    factor     := "(" arith ")" | NUMBER | IDENT
    cond       := disjunct ("or" disjunct)*
    disjunct   := conjunct ("and" conjunct)*
    conjunct   := "(" cond ")" | "not" conjunct | "true" | "false" | comparison
    comparison := arith ("=" | "<>" | "<" | "<=" | ">" | ">=") arith

Every alternative is chosen from the kind of the next token, an assignment from the next two, and
chains of operators are combined to the left. A conjunct that starts with a parenthesis is always a
condition in parentheses, so a comparison that stands as a conjunct does not start with one.

## Mechanism

Each nonterminal is given as a phrase over the phrases that may be nested inside it (`factorOf`,
`conjunctOf`, `statementOf`); `arith`, `conjunct` and `statement` close that recursion over a budget
of nesting. A parenthesis, a `while` or an `if` costs three units of the budget for what is inside,
and a `not` one unit for its operand; where the budget does not reach, the phrase inside is too deep
(`nested`). Chains and sequences cost nothing, so only nesting is limited.

## Termination

The budget is a natural number, and the recursion is structural in it. The equations in terms of
`nested` (`arith_eq`, `conjunct_eq`, `statement_eq`) hold for every budget alike.
-/

namespace WhileFrontend

namespace Kind

/-- The additive operators. -/
def additive? : Kind → Option ArithOp
  | symbol .plus => some .add
  | symbol .minus => some .sub
  | _ => none

/-- The multiplicative operators. -/
def multiplicative? : Kind → Option ArithOp
  | symbol .times => some .mul
  | keyword .divKw => some .intDiv
  | keyword .modKw => some .mod
  | _ => none

/-- The comparisons. -/
def relational? : Kind → Option RelOp
  | symbol .eq => some .eq
  | symbol .neq => some .neq
  | symbol .lt => some .lt
  | symbol .leq => some .leq
  | symbol .gt => some .gt
  | symbol .geq => some .geq
  | _ => none

/-- The connective `and`. -/
def conjunctive? : Kind → Option BoolOp
  | keyword .andKw => some .and
  | _ => none

/-- The connective `or`. -/
def disjunctive? : Kind → Option BoolOp
  | keyword .orKw => some .or
  | _ => none

/-- The kinds with which a statement may start. -/
def startsStmt : Kind → Bool
  | keyword .whileKw => true
  | keyword .ifKw => true
  | keyword .skipKw => true
  | ident => true
  | _ => false

end Kind

namespace Phrase

/-- A phrase nested at a cost: it has what is left of the budget, or is too deep. -/
def nested {α : Type} (cost : Nat) (p : Nat → Phrase α) (budget : Nat) : Phrase α :=
  if cost ≤ budget then p (budget - cost) else fail .tooDeep

/-! ## Arithmetic expressions -/

/-- An operand: `inner` in parentheses, a number or a name. -/
def factorOf (inner : Phrase Arith) : Phrase Arith := do
  let t ← peek
  match t.kind with
  | .symbol .lparen =>
    advance
    let e ← inner
    let _ ← expect (.symbol .rparen)
    return e
  | .number =>
    match t.int? with
    | some n =>
      advance
      return .const n
    | none => fail (.malformedNumber t)
  | .ident =>
    match t.text? with
    | some x =>
      advance
      return .var x
    | none => fail (.malformedIdent t)
  | _ => fail (.noOperand t)

/-- Factors joined by multiplicative operators. -/
def summandOf (inner : Phrase Arith) : Phrase Arith :=
  chain Kind.multiplicative? .binary (factorOf inner)

/-- Summands joined by additive operators. -/
def arithOf (inner : Phrase Arith) : Phrase Arith :=
  chain Kind.additive? .binary (summandOf inner)

/-- An arithmetic expression within a budget. -/
def arith : Nat → Phrase Arith
  | budget + 3, ts => arithOf (arith budget) ts
  | _, ts => arithOf (fail .tooDeep) ts

theorem arith_eq (budget : Nat) : arith budget = arithOf (nested 3 arith budget) :=
  match budget with
  | 0 => rfl
  | 1 => rfl
  | 2 => rfl
  | _ + 3 => rfl

/-- A factor within a budget. -/
def factor (budget : Nat) : Phrase Arith :=
  factorOf (nested 3 arith budget)

/-- A summand within a budget. -/
def summand (budget : Nat) : Phrase Arith :=
  summandOf (nested 3 arith budget)

/-! ## Conditions -/

/-- Two arithmetic expressions with a comparison between them. -/
def comparisonOf (arith : Phrase Arith) : Phrase Cond := do
  let left ← arith
  let t ← peek
  match t.kind.relational? with
  | some op =>
    advance
    let right ← arith
    return .compare op left right
  | none => fail (.noComparison t)

/-- A conjunct with `inner` in its parentheses and `operand` after its `not`. -/
def conjunctOf (arith : Phrase Arith) (inner operand : Phrase Cond) : Phrase Cond := do
  let t ← peek
  match t.kind with
  | .symbol .lparen =>
    advance
    let c ← inner
    let _ ← expect (.symbol .rparen)
    return c
  | .keyword .notKw =>
    advance
    let c ← operand
    return .negation c
  | .keyword .trueKw =>
    advance
    return .truth true
  | .keyword .falseKw =>
    advance
    return .truth false
  | _ => comparisonOf arith

/-- Conjuncts joined by `and`. -/
def disjunctOf (conjunct : Phrase Cond) : Phrase Cond :=
  chain Kind.conjunctive? .binary conjunct

/-- Disjuncts joined by `or`. -/
def condOf (conjunct : Phrase Cond) : Phrase Cond :=
  chain Kind.disjunctive? .binary (disjunctOf conjunct)

/-- A conjunct within a budget. -/
def conjunct : Nat → Phrase Cond
  | 0, ts => conjunctOf (arith 0) (fail .tooDeep) (fail .tooDeep) ts
  | 1, ts => conjunctOf (arith 1) (fail .tooDeep) (conjunct 0) ts
  | 2, ts => conjunctOf (arith 2) (fail .tooDeep) (conjunct 1) ts
  | budget + 3, ts =>
    conjunctOf (arith (budget + 3)) (condOf (conjunct budget)) (conjunct (budget + 2)) ts

/-- A disjunct within a budget. -/
def disjunct (budget : Nat) : Phrase Cond :=
  disjunctOf (conjunct budget)

/-- A condition within a budget. -/
def cond (budget : Nat) : Phrase Cond :=
  condOf (conjunct budget)

theorem conjunct_eq (budget : Nat) :
    conjunct budget = conjunctOf (arith budget) (nested 3 cond budget) (nested 1 conjunct budget) :=
  match budget with
  | 0 => rfl
  | 1 => rfl
  | 2 => rfl
  | _ + 3 => rfl

/-- A comparison within a budget. -/
def comparison (budget : Nat) : Phrase Cond :=
  comparisonOf (arith budget)

/-! ## Statements -/

/-- A loop with the given phrases for its condition and its body. -/
def whileOf (cond : Phrase Cond) (program : Phrase Program) : Phrase Stmt := do
  let _ ← expect (.keyword .whileKw)
  let c ← cond
  let _ ← expect (.keyword .doKw)
  let body ← program
  let _ ← expect (.keyword .doneKw)
  return .whileDo c body

/-- A conditional with the given phrases for its condition and its branches. -/
def ifOf (cond : Phrase Cond) (program : Phrase Program) : Phrase Stmt := do
  let _ ← expect (.keyword .ifKw)
  let c ← cond
  let _ ← expect (.keyword .thenKw)
  let thenBranch ← program
  let t ← peek
  if t.kind = .keyword .elseKw then
    advance
    let elseBranch ← program
    let _ ← expect (.keyword .fiKw)
    return .ifElse c thenBranch elseBranch
  else
    let _ ← expect (.keyword .fiKw)
    return .ifThen c thenBranch

/-- The statement without effect. -/
def skip : Phrase Stmt := do
  let _ ← expect (.keyword .skipKw)
  let _ ← expect (.symbol .semicolon)
  return .skip

/-- An assignment of an expression to a name. -/
def assignOf (arith : Phrase Arith) : Phrase Stmt := do
  let target ← expect .ident
  match target.text? with
  | some x =>
    let _ ← expect (.symbol .assign)
    let e ← arith
    let _ ← expect (.symbol .semicolon)
    return .assign x e
  | none => fail (.malformedIdent target)

/-- A statement with the given phrases for its expression and for what is nested inside it. -/
def statementOf (arith : Phrase Arith) (cond : Phrase Cond) (program : Phrase Program) :
    Phrase Stmt := do
  let t ← peek
  let second ← peekSecond
  match t.kind with
  | .keyword .whileKw => whileOf cond program
  | .keyword .ifKw => ifOf cond program
  | .keyword .skipKw => skip
  | .ident => if second.kind = .symbol .assign then assignOf arith else fail (.noStatement t)
  | _ => fail (.noStatement t)

/-- A statement and all that follow it. -/
def programOf (statement : Phrase Stmt) : Phrase Program := do
  let first ← statement
  let rest ← many Kind.startsStmt statement
  return .ofStmts first rest

/-- A statement within a budget. -/
def statement : Nat → Phrase Stmt
  | budget + 3, ts =>
    statementOf (arith (budget + 3)) (cond budget) (programOf (statement budget)) ts
  | budget, ts => statementOf (arith budget) (fail .tooDeep) (fail .tooDeep) ts

/-- A program within a budget. -/
def program (budget : Nat) : Phrase Program :=
  programOf (statement budget)

theorem statement_eq (budget : Nat) :
    statement budget =
      statementOf (arith budget) (nested 3 cond budget) (nested 3 program budget) :=
  match budget with
  | 0 => rfl
  | 1 => rfl
  | 2 => rfl
  | _ + 3 => rfl

/-- A loop within a budget. -/
def whileDo (budget : Nat) : Phrase Stmt :=
  whileOf (nested 3 cond budget) (nested 3 program budget)

/-- A conditional within a budget. -/
def ifThenElse (budget : Nat) : Phrase Stmt :=
  ifOf (nested 3 cond budget) (nested 3 program budget)

/-- An assignment within a budget. -/
def assign (budget : Nat) : Phrase Stmt :=
  assignOf (arith budget)

/-- A program in no other one; nested too deeply, it is the whole program that is. -/
def outermost (budget : Nat) : Phrase Program := fun ts =>
  match program budget ts with
  | .fail .tooDeep n => .fail .programTooDeep n
  | o => o

/-- A program that all tokens up to the end belong to. -/
def wholeProgram (budget : Nat) : Phrase Program := do
  let p ← outermost budget
  let t ← peek
  if t.kind = .eof then return p else fail (.trailing t)

end Phrase

/-- The budget of nesting that a parse starts with. -/
def nestingLimit : Nat := 1000

/-- The program that a token list holds, or why it holds none. -/
def parseTokens (ts : List Token) : Except ParseFault Program :=
  match Phrase.wholeProgram nestingLimit ts with
  | .ok p _ => .ok p
  | .fail f _ => .error f

/-- The program that a source text holds, or why it holds none. -/
def parse (source : String) : Except ParseFault Program :=
  parseTokens (tokenize source)

end WhileFrontend
