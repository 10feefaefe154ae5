import WhileFrontend.Tree.Node

/-!
# Other names and constants

A renaming gives every name a name and every integer an integer. It changes a tree at its variables,
its assignment targets and its constants, and nowhere else, and it changes a syntax tree as it
changes the node of that tree (`Program.toNode_rename` and the lemmas before it). Neither of its
maps has to be injective.
-/

namespace WhileFrontend

/-- Other names for names, and other integers for integers. -/
structure Renaming where
  name : String → String
  number : Int → Int

/-- The expression with other names and constants. -/
def Arith.rename (r : Renaming) : Arith → Arith
  | .const n => .const (r.number n)
  | .var x => .var (r.name x)
  | .binary op left right => .binary op (left.rename r) (right.rename r)

/-- The condition with other names and constants. -/
def Cond.rename (r : Renaming) : Cond → Cond
  | .truth b => .truth b
  | .negation c => .negation (c.rename r)
  | .binary op left right => .binary op (left.rename r) (right.rename r)
  | .compare op left right => .compare op (left.rename r) (right.rename r)

mutual

/-- The statement with other names and constants. -/
def Stmt.rename (r : Renaming) : Stmt → Stmt
  | .assign x e => .assign (r.name x) (e.rename r)
  | .skip => .skip
  | .ifThen c t => .ifThen (c.rename r) (t.rename r)
  | .ifElse c t e => .ifElse (c.rename r) (t.rename r) (e.rename r)
  | .whileDo c b => .whileDo (c.rename r) (b.rename r)

/-- The program with other names and constants. -/
def Program.rename (r : Renaming) : Program → Program
  | .last s => .last (s.rename r)
  | .seq s rest => .seq (s.rename r) (rest.rename r)

end

mutual

/-- The node with other names and constants. -/
def Node.rename (r : Renaming) : Node → Node
  | .program ns => .program (ns.rename r)
  | .assign x e => .assign (r.name x) (e.rename r)
  | .skip => .skip
  | .ifThen c t => .ifThen (c.rename r) (t.rename r)
  | .ifElse c t e => .ifElse (c.rename r) (t.rename r) (e.rename r)
  | .whileDo c b => .whileDo (c.rename r) (b.rename r)
  | .const n => .const (r.number n)
  | .var x => .var (r.name x)
  | .arith op left right => .arith op (left.rename r) (right.rename r)
  | .truth b => .truth b
  | .negation c => .negation (c.rename r)
  | .bool op left right => .bool op (left.rename r) (right.rename r)
  | .compare op left right => .compare op (left.rename r) (right.rename r)

/-- The nodes with other names and constants. -/
def Nodes.rename (r : Renaming) : Nodes → Nodes
  | .last n => .last (n.rename r)
  | .seq n rest => .seq (n.rename r) (rest.rename r)

end

variable (r : Renaming)

theorem Program.rename_ofStmts (first : Stmt) (rest : List Stmt) :
    (Program.ofStmts first rest).rename r
      = .ofStmts (first.rename r) (rest.map (Stmt.rename r)) := by
  induction rest generalizing first with
  | nil => rw [ofStmts, Program.rename, List.map_nil, ofStmts]
  | cons next rest ih => rw [ofStmts, Program.rename, ih, List.map_cons, ofStmts]

/-! ## Trees and their nodes -/

theorem Arith.toNode_rename (e : Arith) : (e.rename r).toNode = e.toNode.rename r := by
  induction e with
  | const n => rw [Arith.rename, toNode, toNode, Node.rename]
  | var x => rw [Arith.rename, toNode, toNode, Node.rename]
  | binary op left right ihl ihr => rw [Arith.rename, toNode, toNode, Node.rename, ihl, ihr]

theorem Cond.toNode_rename (c : Cond) : (c.rename r).toNode = c.toNode.rename r := by
  induction c with
  | truth b => rw [Cond.rename, toNode, Node.rename]
  | negation c ih => rw [Cond.rename, toNode, toNode, Node.rename, ih]
  | binary op left right ihl ihr => rw [Cond.rename, toNode, toNode, Node.rename, ihl, ihr]
  | compare op left right =>
    rw [Cond.rename, toNode, toNode, Node.rename, left.toNode_rename, right.toNode_rename]

mutual

theorem Stmt.toNode_rename (s : Stmt) : (s.rename r).toNode = s.toNode.rename r := by
  match s with
  | .assign x e => rw [Stmt.rename, Stmt.toNode, Stmt.toNode, Node.rename, e.toNode_rename]
  | .skip => rw [Stmt.rename, Stmt.toNode, Node.rename]
  | .ifThen c t =>
    rw [Stmt.rename, Stmt.toNode, Stmt.toNode, Node.rename, c.toNode_rename, t.toNode_rename]
  | .ifElse c t e =>
    rw [Stmt.rename, Stmt.toNode, Stmt.toNode, Node.rename, c.toNode_rename, t.toNode_rename,
      e.toNode_rename]
  | .whileDo c b =>
    rw [Stmt.rename, Stmt.toNode, Stmt.toNode, Node.rename, c.toNode_rename, b.toNode_rename]

theorem Program.toNodes_rename (p : Program) : (p.rename r).toNodes = p.toNodes.rename r := by
  match p with
  | .last s => rw [Program.rename, Program.toNodes, Program.toNodes, Nodes.rename, s.toNode_rename]
  | .seq s rest =>
    rw [Program.rename, Program.toNodes, Program.toNodes, Nodes.rename, s.toNode_rename,
      rest.toNodes_rename]

theorem Program.toNode_rename (p : Program) : (p.rename r).toNode = p.toNode.rename r := by
  rw [Program.toNode, Program.toNode, Node.rename, p.toNodes_rename]

end

end WhileFrontend
