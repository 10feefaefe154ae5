import WhileFrontend.Json.Basic
import WhileFrontend.Text.Quoted
import WhileFrontend.Tree.Node

/-!
# Trees as JSON

Every node is an object whose first field is its kind; operators stand under their spelling, and a
conditional without an `else` branch has null in that field. Reading builds the node that an object
describes: the operator is looked up before the operands are built, children are built in the order
of the fields, and a program needs at least one statement.
-/

namespace WhileFrontend

mutual

/-- The JSON form of a node. -/
def Node.toJson : Node → Json
  | .program ns => .object [("kind", .str "program"), ("statements", .arr ns.toJson)]
  | .assign x e => .object [("kind", .str "assign"), ("variable", .str x), ("expr", e.toJson)]
  | .skip => .object [("kind", .str "skip")]
  | .ifThen c t =>
    .object [("kind", .str "if"), ("cond", c.toJson), ("then_branch", t.toJson),
      ("else_branch", .null)]
  | .ifElse c t e =>
    .object [("kind", .str "if"), ("cond", c.toJson), ("then_branch", t.toJson),
      ("else_branch", e.toJson)]
  | .whileDo c b => .object [("kind", .str "while"), ("cond", c.toJson), ("body", b.toJson)]
  | .const n => .object [("kind", .str "constant"), ("value", .int n)]
  | .var x => .object [("kind", .str "variable"), ("name", .str x)]
  | .arith op l r =>
    .object [("kind", .str "binary_arith"), ("op", .str op.spelling), ("left", l.toJson),
      ("right", r.toJson)]
  | .truth true => .object [("kind", .str "true")]
  | .truth false => .object [("kind", .str "false")]
  | .negation c => .object [("kind", .str "not"), ("operand", c.toJson)]
  | .bool op l r =>
    .object [("kind", .str "binary_bool"), ("op", .str op.spelling), ("left", l.toJson),
      ("right", r.toJson)]
  | .compare op l r =>
    .object [("kind", .str "relational"), ("op", .str op.spelling), ("left", l.toJson),
      ("right", r.toJson)]

/-- The JSON forms of a program's statements. -/
def Nodes.toJson : Nodes → Json.Items
  | .last n => .cons n.toJson .nil
  | .seq n rest => .cons n.toJson rest.toJson

end

/-- The JSON form of a node, refused for a tree of too many levels. -/
def Node.serialize (n : Node) : Except TooDeep Json :=
  if n.levels ≤ levelLimit then .ok n.toJson else .error .tooDeep

/-- Why a JSON value describes no node. -/
inductive BuildFault where
  /-- A program without statements. -/
  | emptyProgram
  /-- No arithmetic operator has this spelling. -/
  | unknownArithOp (spelling : String)
  /-- No connective has this spelling. -/
  | unknownBoolOp (spelling : String)
  /-- No comparison has this spelling. -/
  | unknownRelOp (spelling : String)
  /-- A field is missing or holds a value of the wrong sort. -/
  | malformed
  deriving DecidableEq, Repr

/-- The report of a build fault. -/
def BuildFault.message : BuildFault → String
  | emptyProgram => "Program requires at least one statement"
  | unknownArithOp s => Text.quote s ++ " is not a valid ArithOp"
  | unknownBoolOp s => Text.quote s ++ " is not a valid BoolOp"
  | unknownRelOp s => Text.quote s ++ " is not a valid RelOp"
  | malformed => "Malformed node"

namespace Node

/-- The string under `key`. -/
def stringField (key : String) (fs : Json.Fields) : Except BuildFault String :=
  match fs.find? key with
  | some ⟨.str s, _⟩ => .ok s
  | _ => .error .malformed

/-- The integer under `key`. -/
def intField (key : String) (fs : Json.Fields) : Except BuildFault Int :=
  match fs.find? key with
  | some ⟨.int n, _⟩ => .ok n
  | _ => .error .malformed

/-- The operator that `ofSpelling?` finds under the field `op`. -/
def opField {α : Type} (ofSpelling? : String → Option α) (fault : String → BuildFault)
    (fs : Json.Fields) : Except BuildFault α := do
  let s ← stringField "op" fs
  match ofSpelling? s with
  | some op => return op
  | none => throw (fault s)

mutual

/-- The node that a JSON value describes. -/
def ofJson : Json → Except BuildFault Node
  | .obj fs => do
    let child (key : String) : Except BuildFault Node :=
      match fs.find? key with
      | some ⟨j, _h⟩ => ofJson j
      | none => .error .malformed
    match ← stringField "kind" fs with
    | "program" =>
      match fs.find? "statements" with
      | some ⟨.arr .nil, _⟩ => throw .emptyProgram
      | some ⟨.arr (.cons j rest), _h⟩ => return .program (.ofList (← ofJson j) (← ofItems rest))
      | _ => throw .malformed
    | "assign" => return .assign (← stringField "variable" fs) (← child "expr")
    | "skip" => return .skip
    | "if" =>
      let cond ← child "cond"
      let thenBranch ← child "then_branch"
      match fs.find? "else_branch" with
      | none => return .ifThen cond thenBranch
      | some ⟨.null, _⟩ => return .ifThen cond thenBranch
      | some ⟨j, _h⟩ => return .ifElse cond thenBranch (← ofJson j)
    | "while" => return .whileDo (← child "cond") (← child "body")
    | "constant" => return .const (← intField "value" fs)
    | "variable" => return .var (← stringField "name" fs)
    | "binary_arith" =>
      return .arith (← opField ArithOp.ofSpelling? .unknownArithOp fs) (← child "left")
        (← child "right")
    | "true" => return .truth true
    | "false" => return .truth false
    | "not" => return .negation (← child "operand")
    | "binary_bool" =>
      return .bool (← opField BoolOp.ofSpelling? .unknownBoolOp fs) (← child "left")
        (← child "right")
    | "relational" =>
      return .compare (← opField RelOp.ofSpelling? .unknownRelOp fs) (← child "left")
        (← child "right")
    | _ => throw .malformed
  | _ => throw .malformed
termination_by j => sizeOf j
decreasing_by
  all_goals
    simp only [Json.obj.sizeOf_spec, Json.arr.sizeOf_spec, Json.Items.cons.sizeOf_spec] at *
    omega

/-- The nodes that the items describe, in order. -/
def ofItems : Json.Items → Except BuildFault (List Node)
  | .nil => return []
  | .cons j rest => return (← ofJson j) :: (← ofItems rest)
termination_by js => sizeOf js

end

end Node

end WhileFrontend
