import WhileFrontend.Tree.Basic

/-!
# Nodes

A node is a tree in which any node may stand in any child's place. Trees put together node by node,
rather than by the parser, have this freedom; every syntax tree is such a node (`Arith.toNode`,
`Cond.toNode`, `Stmt.toNode`, `Program.toNode`). What is written about trees (their JSON, shown form
and outline) is defined on nodes once for all of them.
-/

namespace WhileFrontend

mutual

/-- A tree whose children may be of any kind. -/
inductive Node where
  | program (statements : Nodes)
  | assign (target : String) (expr : Node)
  | skip
  | ifThen (cond thenBranch : Node)
  | ifElse (cond thenBranch elseBranch : Node)
  | whileDo (cond body : Node)
  | const (value : Int)
  | var (name : String)
  | arith (op : ArithOp) (left right : Node)
  | truth (value : Bool)
  | negation (operand : Node)
  | bool (op : BoolOp) (left right : Node)
  | compare (op : RelOp) (left right : Node)

/-- One node or more. -/
inductive Nodes where
  | last (node : Node)
  | seq (node : Node) (rest : Nodes)

end

deriving instance DecidableEq for Node, Nodes

namespace Nodes

/-- The nodes `first` and then `rest`. -/
def ofList (first : Node) : List Node → Nodes
  | [] => last first
  | next :: rest => seq first (ofList next rest)

/-- The nodes in order. -/
def toList : Nodes → List Node
  | last n => [n]
  | seq n rest => n :: rest.toList

@[simp] theorem toList_ofList (first : Node) (rest : List Node) :
    (ofList first rest).toList = first :: rest := by
  induction rest generalizing first with
  | nil => rfl
  | cons next rest ih => simp [ofList, toList, ih]

end Nodes

/-- The node of an arithmetic expression. -/
def Arith.toNode : Arith → Node
  | .const n => .const n
  | .var x => .var x
  | .binary op l r => .arith op l.toNode r.toNode

/-- The node of a boolean expression. -/
def Cond.toNode : Cond → Node
  | .truth b => .truth b
  | .negation c => .negation c.toNode
  | .binary op l r => .bool op l.toNode r.toNode
  | .compare op l r => .compare op l.toNode r.toNode

mutual

/-- The node of a statement. -/
def Stmt.toNode : Stmt → Node
  | .assign x e => .assign x e.toNode
  | .skip => .skip
  | .ifThen c t => .ifThen c.toNode t.toNode
  | .ifElse c t e => .ifElse c.toNode t.toNode e.toNode
  | .whileDo c b => .whileDo c.toNode b.toNode

/-- The nodes of a program's statements. -/
def Program.toNodes : Program → Nodes
  | .last s => .last s.toNode
  | .seq s rest => .seq s.toNode rest.toNodes

/-- The node of a program. -/
def Program.toNode (p : Program) : Node :=
  .program p.toNodes

end

namespace Node

/-- The kind of a node, as its JSON form names it. -/
def kind : Node → String
  | program _ => "program"
  | assign _ _ => "assign"
  | skip => "skip"
  | ifThen _ _ => "if"
  | ifElse _ _ _ => "if"
  | whileDo _ _ => "while"
  | const _ => "constant"
  | var _ => "variable"
  | arith _ _ _ => "binary_arith"
  | truth true => "true"
  | truth false => "false"
  | negation _ => "not"
  | bool _ _ _ => "binary_bool"
  | compare _ _ _ => "relational"

end Node

mutual

/-- The number of nodes on the longest way down from a node, itself included. -/
def Node.levels : Node → Nat
  | .program ns => ns.levels + 1
  | .assign _ e => e.levels + 1
  | .skip => 1
  | .ifThen c t => max c.levels t.levels + 1
  | .ifElse c t e => max c.levels (max t.levels e.levels) + 1
  | .whileDo c b => max c.levels b.levels + 1
  | .const _ => 1
  | .var _ => 1
  | .arith _ l r => max l.levels r.levels + 1
  | .truth _ => 1
  | .negation c => c.levels + 1
  | .bool _ l r => max l.levels r.levels + 1
  | .compare _ l r => max l.levels r.levels + 1

/-- The most levels of any of the nodes. -/
def Nodes.levels : Nodes → Nat
  | .last n => n.levels
  | .seq n rest => max n.levels rest.levels

end

/-- The most levels that a tree may have to be written out or compared. -/
def levelLimit : Nat := 1000

/-- The cause of a refusal to write or compare a tree: it has more than `levelLimit` levels. -/
inductive TooDeep where
  | tooDeep
  deriving DecidableEq, Repr

/-- Whether two trees are the same, refused if one has too many levels. -/
def Node.same (a b : Node) : Except TooDeep Bool :=
  if a.levels ≤ levelLimit ∧ b.levels ≤ levelLimit then .ok (decide (a = b)) else .error .tooDeep

end WhileFrontend
