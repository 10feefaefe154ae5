import WhileFrontend.Parsing.Program
import WhileFrontend.Tree.Node

/-!
# Nonterminals

The constructs that can be parsed on their own, each with its phrase. The trees of all of them are
given as nodes.
-/

namespace WhileFrontend

/-- A construct that can be parsed on its own. -/
inductive Nonterminal where
  /-- A program to which all tokens belong. -/
  | wholeProgram
  | program
  | statement
  | whileDo
  | ifThenElse
  | skip
  | assign
  | arith
  | summand
  | factor
  | cond
  | disjunct
  | conjunct
  | comparison
  deriving DecidableEq, Repr

/-- The phrase of a nonterminal within a budget of nesting. -/
def Nonterminal.phrase (budget : Nat) : Nonterminal → Phrase Node
  | wholeProgram => .map Program.toNode (.wholeProgram budget)
  | program => .map Program.toNode (.program budget)
  | statement => .map Stmt.toNode (.statement budget)
  | whileDo => .map Stmt.toNode (.whileDo budget)
  | ifThenElse => .map Stmt.toNode (.ifThenElse budget)
  | skip => .map Stmt.toNode .skip
  | assign => .map Stmt.toNode (.assign budget)
  | arith => .map Arith.toNode (.arith budget)
  | summand => .map Arith.toNode (.summand budget)
  | factor => .map Arith.toNode (.factor budget)
  | cond => .map Cond.toNode (.cond budget)
  | disjunct => .map Cond.toNode (.disjunct budget)
  | conjunct => .map Cond.toNode (.conjunct budget)
  | comparison => .map Cond.toNode (.comparison budget)

end WhileFrontend
