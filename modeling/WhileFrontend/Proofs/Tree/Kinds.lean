import WhileFrontend.Tree.Node

/-!
# Nodes with the right kinds of children

A node takes any node for a child. `Node.IsProgram` singles out those in which every child is of the
kind that its place asks for: arithmetic under arithmetic and comparisons, boolean under `not`,
connectives and as conditions, programs as bodies and branches, statements in programs. They are
exactly the nodes of syntax trees (`Node.isProgram_iff`), so what is shown of all syntax trees is
shown of all of them.
-/

namespace WhileFrontend

namespace Node

/-- An arithmetic expression with the right kinds of children throughout. -/
inductive IsArith : Node → Prop where
  | const (n : Int) : IsArith (.const n)
  | var (x : String) : IsArith (.var x)
  | arith (op : ArithOp) {l r : Node} (left : IsArith l) (right : IsArith r) :
    IsArith (.arith op l r)

/-- A boolean expression with the right kinds of children throughout. -/
inductive IsCond : Node → Prop where
  | truth (b : Bool) : IsCond (.truth b)
  | negation {c : Node} (operand : IsCond c) : IsCond (.negation c)
  | bool (op : BoolOp) {l r : Node} (left : IsCond l) (right : IsCond r) : IsCond (.bool op l r)
  | compare (op : RelOp) {l r : Node} (left : IsArith l) (right : IsArith r) :
    IsCond (.compare op l r)

mutual

/-- A statement with the right kinds of children throughout. -/
inductive IsStmt : Node → Prop where
  | assign (x : String) {e : Node} (expr : IsArith e) : IsStmt (.assign x e)
  | skip : IsStmt .skip
  | ifThen {c t : Node} (cond : IsCond c) (thenBranch : IsProgram t) : IsStmt (.ifThen c t)
  | ifElse {c t e : Node} (cond : IsCond c) (thenBranch : IsProgram t) (elseBranch : IsProgram e) :
    IsStmt (.ifElse c t e)
  | whileDo {c b : Node} (cond : IsCond c) (body : IsProgram b) : IsStmt (.whileDo c b)

/-- A program with the right kinds of children throughout. -/
inductive IsProgram : Node → Prop where
  | program {ns : Nodes} (statements : AreStmts ns) : IsProgram (.program ns)

/-- Statements, each with the right kinds of children throughout. -/
inductive AreStmts : Nodes → Prop where
  | last {n : Node} (h : IsStmt n) : AreStmts (.last n)
  | seq {n : Node} {rest : Nodes} (first : IsStmt n) (others : AreStmts rest) :
    AreStmts (.seq n rest)

end

end Node

/-! ## Nodes of syntax trees -/

theorem Arith.isArith_toNode (e : Arith) : e.toNode.IsArith := by
  induction e with
  | const n => exact .const n
  | var x => exact .var x
  | binary op l r ihl ihr => exact .arith op ihl ihr

theorem Cond.isCond_toNode (c : Cond) : c.toNode.IsCond := by
  induction c with
  | truth b => exact .truth b
  | negation c ih => exact .negation ih
  | binary op l r ihl ihr => exact .bool op ihl ihr
  | compare op l r => exact .compare op l.isArith_toNode r.isArith_toNode

mutual

theorem Stmt.isStmt_toNode (s : Stmt) : s.toNode.IsStmt := by
  match s with
  | .assign x e =>
    rw [Stmt.toNode]
    exact .assign x e.isArith_toNode
  | .skip =>
    rw [Stmt.toNode]
    exact .skip
  | .ifThen c t =>
    rw [Stmt.toNode, Program.toNode]
    exact .ifThen c.isCond_toNode (.program t.areStmts_toNodes)
  | .ifElse c t e =>
    rw [Stmt.toNode, Program.toNode, Program.toNode]
    exact .ifElse c.isCond_toNode (.program t.areStmts_toNodes) (.program e.areStmts_toNodes)
  | .whileDo c body =>
    rw [Stmt.toNode, Program.toNode]
    exact .whileDo c.isCond_toNode (.program body.areStmts_toNodes)

theorem Program.areStmts_toNodes (p : Program) : Node.AreStmts p.toNodes := by
  match p with
  | .last s =>
    rw [Program.toNodes]
    exact .last s.isStmt_toNode
  | .seq s rest =>
    rw [Program.toNodes]
    exact .seq s.isStmt_toNode rest.areStmts_toNodes

end

theorem Program.isProgram_toNode (p : Program) : p.toNode.IsProgram := by
  rw [toNode]
  exact .program p.areStmts_toNodes

/-! ## A node is that of one tree only -/

theorem Arith.toNode_injective {e e' : Arith} (h : e.toNode = e'.toNode) : e = e' := by
  induction e generalizing e' with
  | const n | var x =>
    cases e' <;> cases h
    rfl
  | binary op l r ihl ihr =>
    cases e' with
    | const | var => cases h
    | binary op' l' r' =>
      obtain ⟨rfl, hl, hr⟩ := Node.arith.inj h
      rw [ihl hl, ihr hr]

theorem Cond.toNode_injective {c c' : Cond} (h : c.toNode = c'.toNode) : c = c' := by
  induction c generalizing c' with
  | truth b =>
    cases c' <;> cases h
    rfl
  | negation c ih =>
    cases c' with
    | negation c' => rw [ih (Node.negation.inj h)]
    | _ => cases h
  | binary op l r ihl ihr =>
    cases c' with
    | binary op' l' r' =>
      obtain ⟨rfl, hl, hr⟩ := Node.bool.inj h
      rw [ihl hl, ihr hr]
    | _ => cases h
  | compare op l r =>
    cases c' with
    | compare op' l' r' =>
      obtain ⟨rfl, hl, hr⟩ := Node.compare.inj h
      rw [Arith.toNode_injective hl, Arith.toNode_injective hr]
    | _ => cases h

mutual

theorem Stmt.toNode_injective {s s' : Stmt} (h : s.toNode = s'.toNode) : s = s' := by
  cases s <;> cases s' <;> simp only [Stmt.toNode, Program.toNode, reduceCtorEq] at h
  case assign.assign =>
    obtain ⟨rfl, he⟩ := Node.assign.inj h
    rw [Arith.toNode_injective he]
  case skip.skip => rfl
  case ifThen.ifThen =>
    obtain ⟨hc, hp⟩ := Node.ifThen.inj h
    rw [Cond.toNode_injective hc, Program.toNodes_injective (Node.program.inj hp)]
  case ifElse.ifElse =>
    obtain ⟨hc, hp, hq⟩ := Node.ifElse.inj h
    rw [Cond.toNode_injective hc, Program.toNodes_injective (Node.program.inj hp),
      Program.toNodes_injective (Node.program.inj hq)]
  case whileDo.whileDo =>
    obtain ⟨hc, hp⟩ := Node.whileDo.inj h
    rw [Cond.toNode_injective hc, Program.toNodes_injective (Node.program.inj hp)]

theorem Program.toNodes_injective {p p' : Program} (h : p.toNodes = p'.toNodes) : p = p' := by
  cases p <;> cases p' <;> simp only [Program.toNodes, reduceCtorEq] at h
  case last.last => rw [Stmt.toNode_injective (Nodes.last.inj h)]
  case seq.seq =>
    obtain ⟨hs, hp⟩ := Nodes.seq.inj h
    rw [Stmt.toNode_injective hs, Program.toNodes_injective hp]

end

theorem Program.toNode_injective {p p' : Program} (h : p.toNode = p'.toNode) : p = p' := by
  rw [toNode, toNode] at h
  exact toNodes_injective (Node.program.inj h)

/-! ## No other nodes -/

namespace Node

theorem IsArith.exists_toNode {n : Node} (h : n.IsArith) : ∃ e : Arith, e.toNode = n := by
  induction h with
  | const n => exact ⟨.const n, rfl⟩
  | var x => exact ⟨.var x, rfl⟩
  | arith op left right ihl ihr =>
    obtain ⟨l, rfl⟩ := ihl
    obtain ⟨r, rfl⟩ := ihr
    exact ⟨.binary op l r, rfl⟩

theorem IsCond.exists_toNode {n : Node} (h : n.IsCond) : ∃ c : Cond, c.toNode = n := by
  induction h with
  | truth b => exact ⟨.truth b, rfl⟩
  | negation operand ih =>
    obtain ⟨c, rfl⟩ := ih
    exact ⟨.negation c, rfl⟩
  | bool op left right ihl ihr =>
    obtain ⟨l, rfl⟩ := ihl
    obtain ⟨r, rfl⟩ := ihr
    exact ⟨.binary op l r, rfl⟩
  | compare op left right =>
    obtain ⟨l, rfl⟩ := left.exists_toNode
    obtain ⟨r, rfl⟩ := right.exists_toNode
    exact ⟨.compare op l r, rfl⟩

mutual

theorem IsStmt.exists_toNode {n : Node} (h : n.IsStmt) : ∃ s : Stmt, s.toNode = n := by
  match h with
  | .assign x expr =>
    obtain ⟨e, rfl⟩ := expr.exists_toNode
    exact ⟨.assign x e, by rw [Stmt.toNode]⟩
  | .skip => exact ⟨.skip, by rw [Stmt.toNode]⟩
  | .ifThen cond thenBranch =>
    obtain ⟨c, rfl⟩ := cond.exists_toNode
    obtain ⟨t, rfl⟩ := thenBranch.exists_toNode
    exact ⟨.ifThen c t, by rw [Stmt.toNode]⟩
  | .ifElse cond thenBranch elseBranch =>
    obtain ⟨c, rfl⟩ := cond.exists_toNode
    obtain ⟨t, rfl⟩ := thenBranch.exists_toNode
    obtain ⟨e, rfl⟩ := elseBranch.exists_toNode
    exact ⟨.ifElse c t e, by rw [Stmt.toNode]⟩
  | .whileDo cond body =>
    obtain ⟨c, rfl⟩ := cond.exists_toNode
    obtain ⟨b, rfl⟩ := body.exists_toNode
    exact ⟨.whileDo c b, by rw [Stmt.toNode]⟩

theorem IsProgram.exists_toNode {n : Node} (h : n.IsProgram) : ∃ p : Program, p.toNode = n := by
  match h with
  | .program statements =>
    obtain ⟨p, rfl⟩ := statements.exists_toNodes
    exact ⟨p, by rw [Program.toNode]⟩

theorem AreStmts.exists_toNodes {ns : Nodes} (h : AreStmts ns) :
    ∃ p : Program, p.toNodes = ns := by
  match h with
  | .last h =>
    obtain ⟨s, rfl⟩ := h.exists_toNode
    exact ⟨.last s, by rw [Program.toNodes]⟩
  | .seq first others =>
    obtain ⟨s, rfl⟩ := first.exists_toNode
    obtain ⟨rest, rfl⟩ := others.exists_toNodes
    exact ⟨.seq s rest, by rw [Program.toNodes]⟩

end

/-- The nodes with the right kinds of children are the nodes of syntax trees. -/
theorem isProgram_iff {n : Node} : n.IsProgram ↔ ∃ p : Program, p.toNode = n := by
  constructor
  · intro h
    exact h.exists_toNode
  · rintro ⟨p, rfl⟩
    exact p.isProgram_toNode

end Node

end WhileFrontend
