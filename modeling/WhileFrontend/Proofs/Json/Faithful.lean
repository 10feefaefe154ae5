import Mathlib.Tactic.TFAE
import WhileFrontend.Proofs.Json.Reading
import WhileFrontend.Proofs.Json.Writing
import WhileFrontend.Proofs.Tree.Rebuilt

/-!
# The JSON of a tree determines it

A node of at most `levelLimit` levels whose integers can be written has a JSON form and a text in
each layout. Either text is a JSON text of the form and is decoded to it, and the form describes the
node (`Node.written_toJson`). So nodes, their forms, and their texts in one layout or the other are
equal together (`Node.json_determines`).
-/

namespace WhileFrontend

open Json

/-! ## Nodes that can be written -/

mutual

/-- The integers in a node. -/
def Node.constants : Node → List Int
  | .program ns => ns.constants
  | .assign _ e => e.constants
  | .skip => []
  | .ifThen c t => c.constants ++ t.constants
  | .ifElse c t e => c.constants ++ t.constants ++ e.constants
  | .whileDo c b => c.constants ++ b.constants
  | .const n => [n]
  | .var _ => []
  | .arith _ l r => l.constants ++ r.constants
  | .truth _ => []
  | .negation c => c.constants
  | .bool _ l r => l.constants ++ r.constants
  | .compare _ l r => l.constants ++ r.constants

/-- The integers in any of the nodes. -/
def Nodes.constants : Nodes → List Int
  | .last n => n.constants
  | .seq n rest => n.constants ++ rest.constants

end

namespace Node

/-- A node that can be written: it has not too many levels, and no integer with too many digits. -/
structure IsWritable (n : Node) : Prop where
  levels : n.levels ≤ levelLimit
  digits : ∀ k ∈ n.constants, Text.isWritable k = true

mutual

/-- The integers in the form of a node are those in the node. -/
theorem isWritable_toJson : (n : Node) → n.toJson.isWritable = n.constants.all Text.isWritable
  | .program ns => by
    simp [toJson, constants, isWritable_items ns]
  | .assign x e => by
    simp [toJson, constants, isWritable_toJson e]
  | .skip => rfl
  | .ifThen c t => by
    simp [toJson, constants, isWritable_toJson c, isWritable_toJson t]
  | .ifElse c t e => by
    simp [toJson, constants, isWritable_toJson c, isWritable_toJson t,
      isWritable_toJson e]
  | .whileDo c b => by
    simp [toJson, constants, isWritable_toJson c, isWritable_toJson b]
  | .const n => by
    simp [toJson, constants, Json.isWritable]
  | .var x => rfl
  | .arith op l r | .bool op l r | .compare op l r => by
    simp [toJson, constants, isWritable_toJson l, isWritable_toJson r]
  | .truth true | .truth false => rfl
  | .negation c => by
    simp [toJson, constants, isWritable_toJson c]

theorem isWritable_items : (ns : Nodes) → 
    (Json.arr ns.toJson).isWritable = ns.constants.all Text.isWritable
  | .last n => by
    simp [Nodes.toJson, Nodes.constants, Json.isWritable, Items.isWritable, isWritable_toJson n]
  | .seq n rest => by
    have hrest := isWritable_items rest
    rw [Json.isWritable] at hrest
    simp [Nodes.toJson, Nodes.constants, Json.isWritable, Items.isWritable, isWritable_toJson n,
      hrest]

end

/-! ## What is written of a node -/

/-- A node with its JSON form and the text of that in each layout: both texts are JSON texts of the
form and are decoded to it, and from the form a node is built that is the same as the first. -/
structure Written (n : Node) (form : Json) (text : Layout → String) : Prop where
  serialized : n.serialize = .ok form
  written : ∀ layout, form.write layout = .ok (text layout)
  isElement : ∀ layout, IsElement (text layout).toList form
  decoded : ∀ layout, decode (text layout) = some form
  rebuilt : ∃ m, ofJson form = .ok m ∧ m.same n = .ok true

theorem same_eq_ok_true_iff {a b : Node} (ha : a.levels ≤ levelLimit) (hb : b.levels ≤ levelLimit) :
    a.same b = .ok true ↔ a = b := by
  rw [Node.same, if_pos ⟨ha, hb⟩]
  constructor
  · intro h
    exact of_decide_eq_true (Except.ok.inj h)
  · intro h
    exact congrArg Except.ok (decide_eq_true h)

theorem written_toJson {n : Node} (h : n.IsWritable) :
    n.Written n.toJson fun layout => String.ofList (n.toJson.chars layout 0) := by
  have hdigits : n.toJson.isWritable = true := by
    rw [isWritable_toJson, List.all_eq_true]
    exact h.digits
  have hwritten : ∀ layout,
      n.toJson.write layout = .ok (String.ofList (n.toJson.chars layout 0)) := by
    intro layout
    rw [write, if_pos hdigits]
  have helement := fun layout => isElement_of_write (hwritten layout)
  constructor
  case serialized => rw [serialize, if_pos h.levels]
  case written => exact hwritten
  case isElement => exact helement
  case decoded => exact fun layout => decode_of_isElement (helement layout)
  case rebuilt => exact ⟨n, ofJson_toJson n, (same_eq_ok_true_iff h.levels h.levels).mpr rfl⟩

/-- **The JSON of a node determines it.** Two nodes that can be written are the same if and only if
their forms are the same whatever the order of fields, or the forms are equal, or the compact texts,
or the indented texts. -/
theorem json_determines {a b : Node} (ha : a.IsWritable) (hb : b.IsWritable) :
    ∃ ja ta jb tb, a.Written ja ta ∧ b.Written jb tb ∧
      List.TFAE [a.same b = .ok true, ja.same jb = true, ja = jb,
        ta .compact = tb .compact, ta .indented = tb .indented] := by
  have hwa := written_toJson ha
  have hwb := written_toJson hb
  refine ⟨_, _, _, _, hwa, hwb, ?_⟩
  have hsame := same_eq_ok_true_iff ha.levels hb.levels
  -- equal texts are decoded to equal forms
  have hform : ∀ layout, String.ofList (a.toJson.chars layout 0)
      = String.ofList (b.toJson.chars layout 0) → a.toJson.same b.toJson = true := by
    intro layout heq
    have hdecoded := hwa.decoded layout
    rw [heq, hwb.decoded layout] at hdecoded
    rw [Option.some.inj hdecoded]
    exact same_toJson_self a
  tfae_have 1 → 3 := fun h => congrArg toJson (hsame.mp h)
  tfae_have 2 → 1 := fun h => hsame.mpr (same_toJson_iff.mp h)
  tfae_have 3 → 4 := fun h => by rw [h]
  tfae_have 3 → 5 := fun h => by rw [h]
  tfae_have 4 → 2 := hform .compact
  tfae_have 5 → 2 := hform .indented
  tfae_finish

/-- A name beyond the Basic Multilingual Plane, with and without an `else` branch. -/
theorem json_determines_else :
    (ifThen (.truth true) (.assign "𝑥" (.const (-5)))).IsWritable ∧
      (ifElse (.truth true) (.assign "𝑥" (.const (-5))) .skip).IsWritable ∧
      ∃ ja ta jb tb, (ifThen (.truth true) (.assign "𝑥" (.const (-5)))).Written ja ta ∧
        (ifElse (.truth true) (.assign "𝑥" (.const (-5))) .skip).Written jb tb ∧
        List.TFAE [(ifThen (.truth true) (.assign "𝑥" (.const (-5)))).same
            (ifElse (.truth true) (.assign "𝑥" (.const (-5))) .skip) = .ok true,
          ja.same jb = true, ja = jb, ta .compact = tb .compact,
          ta .indented = tb .indented] := by
  have ha : (ifThen (.truth true) (.assign "𝑥" (.const (-5)))).IsWritable :=
    ⟨by decide, by decide +kernel⟩
  have hb : (ifElse (.truth true) (.assign "𝑥" (.const (-5))) .skip).IsWritable :=
    ⟨by decide, by decide +kernel⟩
  exact ⟨ha, hb, json_determines ha hb⟩

end Node

end WhileFrontend
