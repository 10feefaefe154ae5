import WhileFrontend.Text.Decimal
import WhileFrontend.Text.Quoted
import WhileFrontend.Tree.Node

/-!
# Trees as text

A node is shown as its constructor applied to its named fields, an operator as its member with its
spelling, and a program's statements as a tuple, where a single statement is followed by a comma.
Showing goes down from the root and from left to right, and the first place that cannot be shown, a
node below too many levels or an integer with too many digits, decides the failure.
-/

namespace WhileFrontend

/-- Why a tree cannot be shown. -/
inductive ShowFault where
  /-- A node lies below more than `levelLimit` levels. -/
  | tooDeep
  /-- An integer is too long to be written. -/
  | tooManyDigits
  deriving DecidableEq, Repr

/-- An operator: the name of its family and member, and its spelling. -/
def shownOperator (family member spelling : String) : String :=
  "<" ++ family ++ "." ++ member ++ ": " ++ Text.quote spelling ++ ">"

/-- A constructor applied to named fields. -/
def shownNode (name : String) (fields : List (String × String)) : String :=
  name ++ "(" ++ ", ".intercalate (fields.map fun f => f.1 ++ "=" ++ f.2) ++ ")"

/-- An integer of a tree. -/
def shownInt (n : Int) : Except ShowFault String :=
  (Text.decimal n).mapError fun _ => .tooManyDigits

mutual

/-- The shown form of a node with at most `room` levels. -/
def Node.shownWithin (room : Nat) (n : Node) : Except ShowFault String :=
  match room with
  | 0 => .error .tooDeep
  | room + 1 =>
    match n with
    | .program ns => do
      return shownNode "Program" [("statements", "(" ++ (← ns.shownWithin room) ++ ")")]
    | .assign x e => do
      return shownNode "Assign" [("variable", Text.quote x), ("expr", ← e.shownWithin room)]
    | .skip => return shownNode "Skip" []
    | .ifThen c t => do
      return shownNode "If" [("cond", ← c.shownWithin room), ("then_branch", ← t.shownWithin room),
        ("else_branch", "None")]
    | .ifElse c t e => do
      return shownNode "If" [("cond", ← c.shownWithin room), ("then_branch", ← t.shownWithin room),
        ("else_branch", ← e.shownWithin room)]
    | .whileDo c b => do
      return shownNode "While" [("cond", ← c.shownWithin room), ("body", ← b.shownWithin room)]
    | .const k => do return shownNode "Constant" [("value", ← shownInt k)]
    | .var x => return shownNode "Variable" [("name", Text.quote x)]
    | .arith op l r => do
      return shownNode "BinaryArith" [("op", shownOperator "ArithOp" op.name op.spelling),
        ("left", ← l.shownWithin room), ("right", ← r.shownWithin room)]
    | .truth true => return shownNode "TrueConst" []
    | .truth false => return shownNode "FalseConst" []
    | .negation c => do return shownNode "Not" [("operand", ← c.shownWithin room)]
    | .bool op l r => do
      return shownNode "BinaryBool" [("op", shownOperator "BoolOp" op.name op.spelling),
        ("left", ← l.shownWithin room), ("right", ← r.shownWithin room)]
    | .compare op l r => do
      return shownNode "Relational" [("op", shownOperator "RelOp" op.name op.spelling),
        ("left", ← l.shownWithin room), ("right", ← r.shownWithin room)]

/-- The inside of the tuple of a program's statements. -/
def Nodes.shownWithin (room : Nat) : Nodes → Except ShowFault String
  | .last n => do return (← n.shownWithin room) ++ ","
  | .seq n rest => do return (← n.shownWithin room) ++ (← rest.shownAfter room)

/-- The rest of the inside of such a tuple, after at least one statement. -/
def Nodes.shownAfter (room : Nat) : Nodes → Except ShowFault String
  | .last n => do return ", " ++ (← n.shownWithin room)
  | .seq n rest => do return ", " ++ (← n.shownWithin room) ++ (← rest.shownAfter room)

end

/-- The form in which a tree is shown. -/
def Node.shown (n : Node) : Except ShowFault String :=
  n.shownWithin levelLimit

end WhileFrontend
