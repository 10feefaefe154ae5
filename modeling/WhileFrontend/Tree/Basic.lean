import WhileFrontend.Tree.Operator

/-!
# Syntax trees of programs

The trees that the parser builds. The types keep the sorts apart: an arithmetic expression never
stands where a condition is asked for, and a program has at least one statement. A conditional
without an `else` branch is a shape of its own, not one with an empty branch.
-/

namespace WhileFrontend

/-- Arithmetic expressions. -/
inductive Arith where
  | const (value : Int)
  | var (name : String)
  | binary (op : ArithOp) (left right : Arith)
  deriving DecidableEq, Repr

/-- Boolean expressions. A comparison compares two arithmetic expressions and is never chained. -/
inductive Cond where
  | truth (value : Bool)
  | negation (operand : Cond)
  | binary (op : BoolOp) (left right : Cond)
  | compare (op : RelOp) (left right : Arith)
  deriving DecidableEq, Repr

mutual

/-- Statements. -/
inductive Stmt where
  | assign (target : String) (expr : Arith)
  | skip
  | ifThen (cond : Cond) (thenBranch : Program)
  | ifElse (cond : Cond) (thenBranch elseBranch : Program)
  | whileDo (cond : Cond) (body : Program)

/-- One statement or more, in the order of execution. -/
inductive Program where
  | last (stmt : Stmt)
  | seq (stmt : Stmt) (rest : Program)

end

deriving instance DecidableEq for Stmt, Program

namespace Program

/-- The program that runs `first` and then `rest`. -/
def ofStmts (first : Stmt) : List Stmt → Program
  | [] => last first
  | next :: rest => seq first (ofStmts next rest)

/-- The statements of a program in order. -/
def stmts : Program → List Stmt
  | last s => [s]
  | seq s rest => s :: rest.stmts

@[simp] theorem stmts_ofStmts (first : Stmt) (rest : List Stmt) :
    (ofStmts first rest).stmts = first :: rest := by
  induction rest generalizing first with
  | nil => rfl
  | cons next rest ih => simp [ofStmts, stmts, ih]

theorem stmts_ne_nil (p : Program) : p.stmts ≠ [] := by
  cases p <;> simp [stmts]

/-- Two programs with the same statements are the same. -/
theorem stmts_injective : ∀ {p q : Program}, p.stmts = q.stmts → p = q
  | last _, last _, h => by rw [(List.cons.inj h).1]
  | last _, seq _ rest, h => absurd (List.cons.inj h).2.symm (stmts_ne_nil rest)
  | seq _ rest, last _, h => absurd (List.cons.inj h).2 (stmts_ne_nil rest)
  | seq _ p, seq _ q, h => by
    obtain ⟨h1, h2⟩ := List.cons.inj h
    rw [h1, stmts_injective h2]

end Program

end WhileFrontend
