import WhileFrontend.Tree.Basic

/-!
# Programs as text

The text of a tree, with a blank between words and with parentheses only where the tree asks for
them: around an operand whose operator binds less tightly than its place admits. A left operand may
bind as tightly as the operator itself, a right operand has to bind more tightly, and the operand of
`not` has to be no chain at all. A comparison is never put in parentheses.
-/

namespace WhileFrontend

/-- How tightly an arithmetic operator binds. -/
def ArithOp.level : ArithOp → Nat
  | add => 1
  | sub => 1
  | mul => 2
  | intDiv => 2
  | mod => 2

/-- How tightly a connective binds. -/
def BoolOp.level : BoolOp → Nat
  | or => 1
  | and => 2

/-- A text in parentheses if the place at `level` needs an operator that binds more tightly. -/
def parenthesized (opLevel level : Nat) (text : List Char) : List Char :=
  if opLevel < level then '(' :: (text ++ [')']) else text

/-- An operator between its operands. -/
def infixed (left : List Char) (op : String) (right : List Char) : List Char :=
  left ++ (' ' :: (op.toList ++ (' ' :: right)))

/-- The text of an arithmetic expression at a place that admits operators from `level` on. -/
def Arith.source (level : Nat) : Arith → List Char
  | const n => (toString n).toList
  | var x => x.toList
  | binary op l r =>
    parenthesized op.level level
      (infixed (l.source op.level) op.spelling (r.source (op.level + 1)))

/-- The text of a condition at a place that admits connectives from `level` on. -/
def Cond.source (level : Nat) : Cond → List Char
  | truth true => ['t', 'r', 'u', 'e']
  | truth false => ['f', 'a', 'l', 's', 'e']
  | negation c => 'n' :: 'o' :: 't' :: ' ' :: c.source 3
  | compare op l r => infixed (l.source 0) op.spelling (r.source 0)
  | binary op l r =>
    parenthesized op.level level
      (infixed (l.source op.level) op.spelling (r.source (op.level + 1)))

mutual

/-- The text of a statement. -/
def Stmt.source : Stmt → List Char
  | .assign x e => x.toList ++ (" := ".toList ++ (e.source 0 ++ [';']))
  | .skip => "skip;".toList
  | .whileDo c body =>
    "while ".toList ++ (c.source 0 ++ (" do ".toList ++ (body.source ++ " done".toList)))
  | .ifThen c t =>
    "if ".toList ++ (c.source 0 ++ (" then ".toList ++ (t.source ++ " fi".toList)))
  | .ifElse c t e =>
    "if ".toList ++ (c.source 0 ++ (" then ".toList ++ (t.source ++
      (" else ".toList ++ (e.source ++ " fi".toList)))))

/-- The text of a program. -/
def Program.source : Program → List Char
  | .last s => s.source
  | .seq s rest => s.source ++ (' ' :: rest.source)

end

/-- The program text of a tree. -/
def Program.render (p : Program) : String :=
  String.ofList p.source

end WhileFrontend
