import WhileFrontend.Tree.Node

/-!
# Outlines of trees

One line per node, each node before its children and the children in order. A line names the sort of
the node and what it holds beside its children; a program's line gives the number of its statements,
so the tree can be read back from its outline. An outline has no limit on depth or digits.
-/

namespace WhileFrontend

/-- The number of nodes. -/
def Nodes.length (ns : Nodes) : Nat :=
  ns.toList.length

mutual

/-- The outline of a node. -/
def Node.outline : Node → List String
  | .program ns => ("program " ++ toString ns.length) :: ns.outline
  | .assign x e => ("assign " ++ x) :: e.outline
  | .skip => ["skip"]
  | .ifThen c t => "if" :: (c.outline ++ t.outline)
  | .ifElse c t e => "if_else" :: (c.outline ++ (t.outline ++ e.outline))
  | .whileDo c b => "while" :: (c.outline ++ b.outline)
  | .const n => ["constant " ++ toString n]
  | .var x => ["variable " ++ x]
  | .arith op l r => ("arith " ++ op.spelling) :: (l.outline ++ r.outline)
  | .truth true => ["true"]
  | .truth false => ["false"]
  | .negation c => "not" :: c.outline
  | .bool op l r => ("bool " ++ op.spelling) :: (l.outline ++ r.outline)
  | .compare op l r => ("rel " ++ op.spelling) :: (l.outline ++ r.outline)

/-- The outlines of the nodes one after the other. -/
def Nodes.outline : Nodes → List String
  | .last n => n.outline
  | .seq n rest => n.outline ++ rest.outline

end

end WhileFrontend
