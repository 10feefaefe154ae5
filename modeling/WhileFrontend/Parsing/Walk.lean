import WhileFrontend.Parsing.Cursor

/-!
# Walking through a token list

The parser as procedures that share one position in a token list: they look at the token there and
behind it, move on, call one another and go round loops. A walk may start at any position. It reads
tokens through a cursor, and stops with the cursor's fault where there is none to be read. On its
way it leaves a trail, which tells at which positions it has read and where the turns of its loops
have started and stopped.

## Mechanism

The procedures are those of the phrases, one for one, over the same budget of nesting. But a phrase
is given the tokens that are left and tells how many it has used, while a walk has nothing but the
position.

## Termination

A loop goes round again only if its last turn has left fewer tokens than there were before it. If
not, the walk is at a standstill.
-/

namespace WhileFrontend

/-- What a walk leaves on its trail. -/
inductive Mark where
  /-- The token at a position has been read. -/
  | read (position : Int)
  /-- A turn of a loop has been completed, from one position to another. -/
  | turn (start stop : Int)
  deriving DecidableEq, Repr

/-- Why a walk stops before its end. -/
inductive Hindrance where
  | fault (f : CursorFault)
  /-- A turn of a loop has not moved the position forward. -/
  | standstill
  deriving DecidableEq, Repr

/-- What comes of a walk: a value or a hindrance, the position where it ends, and its trail. -/
structure Walked (α : Type) where
  result : Except Hindrance α
  position : Int
  trail : List Mark := []

/-- A procedure on a position in a token list. -/
def Walk (α : Type) := List Token → Int → Walked α

namespace Walk

variable {α β : Type}

/-- Goes nowhere. -/
def pure (a : α) : Walk α :=
  fun _ p => { result := .ok a, position := p }

/-- Walks on from where the first walk has ended. -/
def bind (w : Walk α) (next : α → Walk β) : Walk β := fun ts p =>
  match w ts p with
  | { result := .ok a, position := q, trail } =>
    { next a ts q with trail := trail ++ (next a ts q).trail }
  | { result := .error e, position := q, trail } => { result := .error e, position := q, trail }

instance : Monad Walk where
  pure := pure
  bind := bind

/-- The walk with another value. -/
def map (g : α → β) (w : Walk α) : Walk β := fun ts p =>
  { w ts p with result := (w ts p).result.map g }

/-! ## Single steps -/

/-- The token at the position. -/
def current : Walk Token := fun ts p =>
  let c : Cursor := { tokens := ts, position := p }
  { result := c.current.mapError .fault, position := p, trail := [.read p] }

/-- The token behind the position. -/
def peek : Walk Token := fun ts p =>
  let c : Cursor := { tokens := ts, position := p }
  { result := (c.peek 1).mapError .fault, position := p, trail := [.read (p + 1)] }

/-- Moves on by one token, and reads the one that it comes to. -/
def advance : Walk Unit := fun ts p =>
  let c : Cursor := { tokens := ts, position := p }
  { result := (c.advance.1.mapError .fault).map fun _ => (), position := c.advance.2.position,
    trail := [.read c.advance.2.position] }

/-- Stops on the spot. -/
def fail (f : ParseFault) : Walk α :=
  fun _ p => { result := .error (.fault (.parse f)), position := p }

/-- Moves on past the token at the position, which has to be of the given kind. -/
def expect (k : Kind) : Walk Token := do
  let t ← current
  if t.kind = k then
    advance
    return t
  else
    fail (.expected [k] t)

/-! ## Loops -/

/-- The number of tokens from a position on. -/
def tokensLeft (ts : List Token) (p : Int) : Nat :=
  (ts.length - p).toNat

/-- Goes round for as long as the kind of the token at the position asks for a turn. -/
def loop (turn? : α → Kind → Option (Walk α)) (a : α) : Walk α := fun ts p =>
  match current ts p with
  | { result := .error e, position := q, trail } => { result := .error e, position := q, trail }
  | { result := .ok t, trail, .. } =>
    match turn? a t.kind with
    | none => { result := .ok a, position := p, trail }
    | some turn =>
      match turn ts p with
      | { result := .error e, position := q, trail := way } =>
        { result := .error e, position := q, trail := trail ++ way }
      | { result := .ok next, position := q, trail := way } =>
        if _h : tokensLeft ts q < tokensLeft ts p then
          { loop turn? next ts q with
            trail := trail ++ way ++ .turn p q :: (loop turn? next ts q).trail }
        else { result := .error .standstill, position := q, trail := trail ++ way }
termination_by ts p => tokensLeft ts p

/-- A turn for an operator and the operand to its right, which are combined with what is left of
them. -/
def chainTurn (op? : Kind → Option β) (combine : β → α → α → α) (operand : Walk α) (left : α)
    (k : Kind) : Option (Walk α) :=
  (op? k).map fun op => do
    advance
    let right ← operand
    return combine op left right

/-- Operands with operators between them, combined to the left. -/
def chain (op? : Kind → Option β) (combine : β → α → α → α) (operand : Walk α) : Walk α := do
  let first ← operand
  loop (chainTurn op? combine operand) first

/-- A turn for one more item, where one may start. -/
def itemTurn (starts : Kind → Bool) (item : Walk α) (before : List α) (k : Kind) :
    Option (Walk (List α)) :=
  if starts k then some do
    let a ← item
    return before ++ [a]
  else none

/-- A walk nested at a cost: it has what is left of the budget, or is too deep. -/
def nested (cost : Nat) (w : Nat → Walk α) (budget : Nat) : Walk α :=
  if cost ≤ budget then w (budget - cost) else fail .tooDeep

/-! ## Arithmetic expressions -/

/-- An operand: `inner` in parentheses, a number or a name. -/
def factorOf (inner : Walk Arith) : Walk Arith := do
  let t ← current
  match t.kind with
  | .symbol .lparen =>
    advance
    let e ← inner
    let _ ← expect (.symbol .rparen)
    return e
  | .number =>
    match t.int? with
    | some n =>
      advance
      return .const n
    | none => fail (.malformedNumber t)
  | .ident =>
    match t.text? with
    | some x =>
      advance
      return .var x
    | none => fail (.malformedIdent t)
  | _ => fail (.noOperand t)

/-- Factors joined by multiplicative operators. -/
def summandOf (inner : Walk Arith) : Walk Arith :=
  chain Kind.multiplicative? .binary (factorOf inner)

/-- Summands joined by additive operators. -/
def arithOf (inner : Walk Arith) : Walk Arith :=
  chain Kind.additive? .binary (summandOf inner)

/-- An arithmetic expression within a budget. -/
def arith : Nat → Walk Arith
  | budget + 3, ts, p => arithOf (arith budget) ts p
  | _, ts, p => arithOf (fail .tooDeep) ts p

theorem arith_eq (budget : Nat) : arith budget = arithOf (nested 3 arith budget) :=
  match budget with
  | 0 => rfl
  | 1 => rfl
  | 2 => rfl
  | _ + 3 => rfl

/-! ## Conditions -/

/-- Two arithmetic expressions with a comparison between them. -/
def comparisonOf (arith : Walk Arith) : Walk Cond := do
  let left ← arith
  let t ← current
  match t.kind.relational? with
  | some op =>
    advance
    let right ← arith
    return .compare op left right
  | none => fail (.noComparison t)

/-- A conjunct with `inner` in its parentheses and `operand` after its `not`. -/
def conjunctOf (arith : Walk Arith) (inner operand : Walk Cond) : Walk Cond := do
  let t ← current
  match t.kind with
  | .symbol .lparen =>
    advance
    let c ← inner
    let _ ← expect (.symbol .rparen)
    return c
  | .keyword .notKw =>
    advance
    let c ← operand
    return .negation c
  | .keyword .trueKw =>
    advance
    return .truth true
  | .keyword .falseKw =>
    advance
    return .truth false
  | _ => comparisonOf arith

/-- Conjuncts joined by `and`. -/
def disjunctOf (conjunct : Walk Cond) : Walk Cond :=
  chain Kind.conjunctive? .binary conjunct

/-- Disjuncts joined by `or`. -/
def condOf (conjunct : Walk Cond) : Walk Cond :=
  chain Kind.disjunctive? .binary (disjunctOf conjunct)

/-- A conjunct within a budget. -/
def conjunct : Nat → Walk Cond
  | 0, ts, p => conjunctOf (arith 0) (fail .tooDeep) (fail .tooDeep) ts p
  | 1, ts, p => conjunctOf (arith 1) (fail .tooDeep) (conjunct 0) ts p
  | 2, ts, p => conjunctOf (arith 2) (fail .tooDeep) (conjunct 1) ts p
  | budget + 3, ts, p =>
    conjunctOf (arith (budget + 3)) (condOf (conjunct budget)) (conjunct (budget + 2)) ts p

/-- A condition within a budget. -/
def cond (budget : Nat) : Walk Cond :=
  condOf (conjunct budget)

theorem conjunct_eq (budget : Nat) :
    conjunct budget = conjunctOf (arith budget) (nested 3 cond budget) (nested 1 conjunct budget) :=
  match budget with
  | 0 => rfl
  | 1 => rfl
  | 2 => rfl
  | _ + 3 => rfl

/-! ## Statements -/

/-- A loop with the given walks for its condition and its body. -/
def whileOf (cond : Walk Cond) (program : Walk Program) : Walk Stmt := do
  let _ ← expect (.keyword .whileKw)
  let c ← cond
  let _ ← expect (.keyword .doKw)
  let body ← program
  let _ ← expect (.keyword .doneKw)
  return .whileDo c body

/-- A conditional with the given walks for its condition and its branches. -/
def ifOf (cond : Walk Cond) (program : Walk Program) : Walk Stmt := do
  let _ ← expect (.keyword .ifKw)
  let c ← cond
  let _ ← expect (.keyword .thenKw)
  let thenBranch ← program
  let t ← current
  if t.kind = .keyword .elseKw then
    advance
    let elseBranch ← program
    let _ ← expect (.keyword .fiKw)
    return .ifElse c thenBranch elseBranch
  else
    let _ ← expect (.keyword .fiKw)
    return .ifThen c thenBranch

/-- The statement without effect. -/
def skip : Walk Stmt := do
  let _ ← expect (.keyword .skipKw)
  let _ ← expect (.symbol .semicolon)
  return .skip

/-- An assignment of an expression to a name. -/
def assignOf (arith : Walk Arith) : Walk Stmt := do
  let target ← expect .ident
  match target.text? with
  | some x =>
    let _ ← expect (.symbol .assign)
    let e ← arith
    let _ ← expect (.symbol .semicolon)
    return .assign x e
  | none => fail (.malformedIdent target)

/-- A statement with the given walks for its expression and for what is nested inside it. Only
behind a name the second token is looked at. -/
def statementOf (arith : Walk Arith) (cond : Walk Cond) (program : Walk Program) : Walk Stmt := do
  let t ← current
  match t.kind with
  | .keyword .whileKw => whileOf cond program
  | .keyword .ifKw => ifOf cond program
  | .keyword .skipKw => skip
  | .ident =>
    let second ← peek
    if second.kind = .symbol .assign then assignOf arith else fail (.noStatement t)
  | _ => fail (.noStatement t)

/-- A statement and all that follow it. -/
def programOf (statement : Walk Stmt) : Walk Program := do
  let first ← statement
  let rest ← loop (itemTurn Kind.startsStmt statement) []
  return .ofStmts first rest

/-- A statement within a budget. -/
def statement : Nat → Walk Stmt
  | budget + 3, ts, p =>
    statementOf (arith (budget + 3)) (cond budget) (programOf (statement budget)) ts p
  | budget, ts, p => statementOf (arith budget) (fail .tooDeep) (fail .tooDeep) ts p

/-- A program within a budget. -/
def program (budget : Nat) : Walk Program :=
  programOf (statement budget)

theorem statement_eq (budget : Nat) :
    statement budget =
      statementOf (arith budget) (nested 3 cond budget) (nested 3 program budget) :=
  match budget with
  | 0 => rfl
  | 1 => rfl
  | 2 => rfl
  | _ + 3 => rfl

/-- A program in no other one; nested too deeply, it is the whole program that is. -/
def outermost (budget : Nat) : Walk Program := fun ts p =>
  match program budget ts p with
  | { result := .error (.fault (.parse .tooDeep)), position := q, trail } =>
    { result := .error (.fault (.parse .programTooDeep)), position := q, trail }
  | walked => walked

/-- A program that all tokens up to the end belong to. -/
def wholeProgram (budget : Nat) : Walk Program := do
  let p ← outermost budget
  let t ← current
  if t.kind = .eof then return p else fail (.trailing t)

end Walk

/-- The walk of a nonterminal within a budget of nesting. -/
def Nonterminal.walk (budget : Nat) : Nonterminal → Walk Node
  | wholeProgram => .map Program.toNode (.wholeProgram budget)
  | program => .map Program.toNode (.program budget)
  | statement => .map Stmt.toNode (.statement budget)
  | whileDo => .map Stmt.toNode (.whileOf (.nested 3 .cond budget) (.nested 3 .program budget))
  | ifThenElse => .map Stmt.toNode (.ifOf (.nested 3 .cond budget) (.nested 3 .program budget))
  | skip => .map Stmt.toNode .skip
  | assign => .map Stmt.toNode (.assignOf (.arith budget))
  | arith => .map Arith.toNode (.arith budget)
  | summand => .map Arith.toNode (.summandOf (.nested 3 .arith budget))
  | factor => .map Arith.toNode (.factorOf (.nested 3 .arith budget))
  | cond => .map Cond.toNode (.cond budget)
  | disjunct => .map Cond.toNode (.disjunctOf (.conjunct budget))
  | conjunct => .map Cond.toNode (.conjunct budget)
  | comparison => .map Cond.toNode (.comparisonOf (.arith budget))

end WhileFrontend
