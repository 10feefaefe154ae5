import WhileFrontend.Json.Same
import WhileFrontend.Tree.Json

/-!
# Trees from their JSON form

From the JSON form of a node the same node is built again (`Node.ofJson_toJson`). What is built does
not depend on the order of fields (`Node.ofJson_eq_of_same`), so two nodes whose forms are the same
up to that order are equal (`Node.same_toJson_iff`).
-/

namespace WhileFrontend

open Json

/-- Nodes from a list of at least two. -/
theorem Nodes.ofList_toList (n : Node) (rest : Nodes) : ofList n rest.toList = .seq n rest := by
  match rest with
  | .last m => rfl
  | .seq m more => exact congrArg (seq n) (ofList_toList m more)

namespace Node

/-- The JSON form of a node is an object, so it is not taken for a branch that is not there. -/
theorem exists_toJson (n : Node) : ∃ fs, n.toJson = .obj fs := by
  cases n with
  | truth b => cases b <;> exact ⟨_, rfl⟩
  | _ => exact ⟨_, rfl⟩

mutual

/-- **A node is built again from its JSON form.** -/
theorem ofJson_toJson : (n : Node) → ofJson n.toJson = .ok n
  | .program (.last n) => by
    rw [toJson, Nodes.toJson, object, ofJson]
    show (do return program (.ofList (← ofJson n.toJson) (← ofItems .nil))) = _
    rw [ofJson_toJson n, ofItems]
    rfl
  | .program (.seq n rest) => by
    rw [toJson, Nodes.toJson, object, ofJson]
    show (do return program (.ofList (← ofJson n.toJson) (← ofItems rest.toJson))) = _
    rw [ofJson_toJson n, ofItems_toJson rest, ← Nodes.ofList_toList n rest]
    rfl
  | .assign x e => by
    rw [toJson, object, ofJson]
    show (do return assign x (← ofJson e.toJson)) = _
    rw [ofJson_toJson e]
    rfl
  | .skip => by
    rw [toJson, object, ofJson]
    rfl
  | .ifThen c t => by
    rw [toJson, object, ofJson]
    show (do return ifThen (← ofJson c.toJson) (← ofJson t.toJson)) = _
    rw [ofJson_toJson c, ofJson_toJson t]
    rfl
  | .ifElse c t e => by
    -- the branch is an object, so the field is not taken for null
    have he := ofJson_toJson e
    obtain ⟨fs, hfs⟩ := e.exists_toJson
    rw [hfs] at he
    rw [toJson, object, hfs, ofJson]
    show (do return ifElse (← ofJson c.toJson) (← ofJson t.toJson) (← ofJson (.obj fs))) = _
    rw [ofJson_toJson c, ofJson_toJson t, he]
    rfl
  | .whileDo c b => by
    rw [toJson, object, ofJson]
    show (do return whileDo (← ofJson c.toJson) (← ofJson b.toJson)) = _
    rw [ofJson_toJson c, ofJson_toJson b]
    rfl
  | .const n => by
    rw [toJson, object, ofJson]
    rfl
  | .var x => by
    rw [toJson, object, ofJson]
    rfl
  | .arith op l r => by
    rw [toJson, object, ofJson]
    show (do return arith (← opField _ _ _) (← ofJson l.toJson) (← ofJson r.toJson)) = _
    rw [ofJson_toJson l, ofJson_toJson r]
    cases op <;> rfl
  | .truth b => by
    cases b <;> rw [toJson, object, ofJson] <;> rfl
  | .negation c => by
    rw [toJson, object, ofJson]
    show (do return negation (← ofJson c.toJson)) = _
    rw [ofJson_toJson c]
    rfl
  | .bool op l r => by
    rw [toJson, object, ofJson]
    show (do return bool (← opField _ _ _) (← ofJson l.toJson) (← ofJson r.toJson)) = _
    rw [ofJson_toJson l, ofJson_toJson r]
    cases op <;> rfl
  | .compare op l r => by
    rw [toJson, object, ofJson]
    show (do return compare (← opField _ _ _) (← ofJson l.toJson) (← ofJson r.toJson)) = _
    rw [ofJson_toJson l, ofJson_toJson r]
    cases op <;> rfl

theorem ofItems_toJson : (ns : Nodes) → ofItems ns.toJson = .ok ns.toList
  | .last n => by
    rw [Nodes.toJson, ofItems, ofJson_toJson n, ofItems]
    rfl
  | .seq n rest => by
    rw [Nodes.toJson, ofItems, ofJson_toJson n, ofItems_toJson rest]
    rfl

end

/-! ## The order of fields -/

section fields

/-- What `read` makes of the value under `key`. -/
def valueField {α : Type} (read : Json → Except BuildFault α) (key : String) (fs : Fields) :
    Except BuildFault α :=
  match fs.find? key with
  | some ⟨j, _⟩ => read j
  | none => .error .malformed

/-- The program of the nodes in an array. -/
def statementsOf : Json → Except BuildFault Node
  | .arr .nil => throw .emptyProgram
  | .arr (.cons j rest) => do return .program (.ofList (← ofJson j) (← ofItems rest))
  | _ => throw .malformed

/-- The conditional whose `else` branch a value describes; null describes that there is none. -/
def conditionalOf (cond thenBranch : Node) : Json → Except BuildFault Node
  | .null => return .ifThen cond thenBranch
  | j => do return .ifElse cond thenBranch (← ofJson j)

/-- The conditional with the `else` branch that the fields describe. -/
def conditionalField (cond thenBranch : Node) (fs : Fields) : Except BuildFault Node :=
  match fs.find? "else_branch" with
  | none => return .ifThen cond thenBranch
  | some ⟨j, _⟩ => conditionalOf cond thenBranch j

theorem stringField_eq (key : String) (fs : Fields) : stringField key fs
    = valueField (fun | .str s => .ok s | _ => .error .malformed) key fs := by
  rw [stringField, valueField]
  rcases fs.find? key with _ | ⟨j, _⟩
  · rfl
  · cases j <;> rfl

theorem intField_eq (key : String) (fs : Fields) : intField key fs
    = valueField (fun | .int n => .ok n | _ => .error .malformed) key fs := by
  rw [intField, valueField]
  rcases fs.find? key with _ | ⟨j, _⟩
  · rfl
  · cases j <;> rfl

theorem valueField_statementsOf (fs : Fields) : valueField statementsOf "statements" fs =
    match fs.find? "statements" with
    | some ⟨.arr .nil, _⟩ => throw .emptyProgram
    | some ⟨.arr (.cons j rest), _⟩ => do
      return .program (.ofList (← ofJson j) (← ofItems rest))
    | _ => throw .malformed := by
  rw [valueField]
  rcases fs.find? "statements" with _ | ⟨j, _⟩
  · rfl
  · cases j with
    | arr items => cases items <;> rfl
    | _ => rfl

theorem conditionalField_eq (cond thenBranch : Node) (fs : Fields) :
    conditionalField cond thenBranch fs =
      match fs.find? "else_branch" with
      | none => return .ifThen cond thenBranch
      | some ⟨.null, _⟩ => return .ifThen cond thenBranch
      | some ⟨j, _⟩ => do return .ifElse cond thenBranch (← ofJson j) := by
  rw [conditionalField]
  rcases fs.find? "else_branch" with _ | ⟨j, _⟩
  · rfl
  · cases j <;> rfl

/-- What an object describes depends on what is found under its keys. -/
theorem ofJson_obj (fs : Fields) : ofJson (.obj fs) = (do
    match ← stringField "kind" fs with
    | "program" => valueField statementsOf "statements" fs
    | "assign" => return .assign (← stringField "variable" fs) (← valueField ofJson "expr" fs)
    | "skip" => return .skip
    | "if" =>
      conditionalField (← valueField ofJson "cond" fs) (← valueField ofJson "then_branch" fs) fs
    | "while" => return .whileDo (← valueField ofJson "cond" fs) (← valueField ofJson "body" fs)
    | "constant" => return .const (← intField "value" fs)
    | "variable" => return .var (← stringField "name" fs)
    | "binary_arith" =>
      return .arith (← opField ArithOp.ofSpelling? .unknownArithOp fs)
        (← valueField ofJson "left" fs) (← valueField ofJson "right" fs)
    | "true" => return .truth true
    | "false" => return .truth false
    | "not" => return .negation (← valueField ofJson "operand" fs)
    | "binary_bool" =>
      return .bool (← opField BoolOp.ofSpelling? .unknownBoolOp fs)
        (← valueField ofJson "left" fs) (← valueField ofJson "right" fs)
    | "relational" =>
      return .compare (← opField RelOp.ofSpelling? .unknownRelOp fs)
        (← valueField ofJson "left" fs) (← valueField ofJson "right" fs)
    | _ => throw .malformed) := by
  simp only [valueField_statementsOf, conditionalField_eq]
  rw [ofJson]
  rfl

variable {fs gs : Fields}

/-- Under every key there is nothing in either object, or values that are the same. -/
theorem find?_of_same (h : (Json.obj fs).same (.obj gs) = true) (key : String) :
    (fs.find? key = none ∧ gs.find? key = none) ∨
      ∃ i j, fs.find? key = some i ∧ gs.find? key = some j ∧ i.val.same j.val = true := by
  rw [same_obj, Bool.and_eq_true, List.all_eq_true] at h
  obtain ⟨hfields, hkeys⟩ := h
  cases hi : fs.find? key with
  | some i =>
    obtain ⟨j, hj, hsame⟩ := Fields.exists_of_sameIn hfields hi
    exact .inr ⟨i, j, rfl, hj, hsame⟩
  | none =>
    cases hj : gs.find? key with
    | none => exact .inl ⟨rfl, rfl⟩
    | some j =>
      have hfound := hkeys key (Fields.mem_keys_of_find? hj)
      rw [hi] at hfound
      cases hfound

/-- What `read` makes of the value under a key is what it makes of the one in the same object, if it
does so for all values that are the same. -/
theorem valueField_of_same {α : Type} (read : Json → Except BuildFault α)
    (h : (Json.obj fs).same (.obj gs) = true)
    (hread : ∀ i j, sizeOf i < sizeOf fs → i.same j = true → read i = read j) (key : String) :
    valueField read key fs = valueField read key gs := by
  rcases find?_of_same h key with ⟨hi, hj⟩ | ⟨⟨i, hsize⟩, ⟨j, _⟩, hi, hj, hsame⟩
  · rw [valueField, valueField, hi, hj]
  · rw [valueField, valueField, hi, hj]
    exact hread i j hsize hsame

theorem stringField_of_same (h : (Json.obj fs).same (.obj gs) = true) (key : String) :
    stringField key fs = stringField key gs := by
  rw [stringField_eq, stringField_eq]
  refine valueField_of_same _ h (fun i j _ hsame => ?_) key
  rcases cases_of_same hsame with rfl | ⟨is, js, rfl, rfl, -⟩ | ⟨fs, gs, rfl, rfl⟩ <;> rfl

theorem intField_of_same (h : (Json.obj fs).same (.obj gs) = true) (key : String) :
    intField key fs = intField key gs := by
  rw [intField_eq, intField_eq]
  refine valueField_of_same _ h (fun i j _ hsame => ?_) key
  rcases cases_of_same hsame with rfl | ⟨is, js, rfl, rfl, -⟩ | ⟨fs, gs, rfl, rfl⟩ <;> rfl

end fields

mutual

/-- **What is built does not depend on the order of fields.** -/
theorem ofJson_eq_of_same : (i j : Json) → i.same j = true → ofJson i = ofJson j
  | .null, .null, _ => rfl
  | .int m, .int n, h => by rw [of_decide_eq_true h]
  | .str s, .str t, h => by rw [of_decide_eq_true h]
  | .arr is, .arr js, _ => by
    rw [ofJson, ofJson]
    all_goals exact nofun
  | .obj fs, .obj gs, h => by
    -- the object is read field by field, and each is found in both with values that are the same
    have hstring := stringField_of_same h
    have hint := intField_of_same h
    have hchild := valueField_of_same ofJson h
      fun i j _ hsame => ofJson_eq_of_same i j hsame
    have hstatements := valueField_of_same statementsOf h
      fun i j _ hsame => statementsOf_eq_of_same i j hsame
    have hconditional : ∀ c t, conditionalField c t fs = conditionalField c t gs := by
      intro c t
      rcases find?_of_same h "else_branch" with ⟨hi, hj⟩ | ⟨⟨i, _⟩, ⟨j, _⟩, hi, hj, hsame⟩
      · rw [conditionalField, conditionalField, hi, hj]
      · have helse : ofJson i = ofJson j := ofJson_eq_of_same i j hsame
        rw [conditionalField, conditionalField, hi, hj]
        rcases cases_of_same hsame with rfl | ⟨is, js, rfl, rfl, -⟩ | ⟨fs, gs, rfl, rfl⟩
        · rfl
        all_goals simp only [conditionalOf, helse]
    rw [ofJson_obj, ofJson_obj]
    simp only [opField, hstring, hint, hchild, hstatements, hconditional]
termination_by i => sizeOf i

theorem statementsOf_eq_of_same : (i j : Json) → i.same j = true → statementsOf i = statementsOf j
  | .arr .nil, .arr .nil, _ => rfl
  | .arr (.cons i is), .arr (.cons j js), h => by
    have hitems : (i.same j && is.same js) = true := h
    rw [Bool.and_eq_true] at hitems
    rw [statementsOf, statementsOf, ofJson_eq_of_same i j hitems.1,
      ofItems_eq_of_same is js hitems.2]
  | .null, .null, _ => rfl
  | .int m, .int n, _ => rfl
  | .str s, .str t, _ => rfl
  | .obj fs, .obj gs, _ => rfl
termination_by i => sizeOf i

theorem ofItems_eq_of_same : (is js : Items) → is.same js = true → ofItems is = ofItems js
  | .nil, .nil, _ => rfl
  | .cons i is, .cons j js, h => by
    rw [Items.same, Bool.and_eq_true] at h
    rw [ofItems, ofItems, ofJson_eq_of_same i j h.1, ofItems_eq_of_same is js h.2]
termination_by is => sizeOf is

end

/-! ## Forms that are the same -/

mutual

/-- The keys of a node's fields are distinct, so its form is the same as itself. -/
theorem same_toJson_self : (n : Node) → n.toJson.same n.toJson = true
  | .program ns => same_object_self (by simp) (by simp [same_str_self, same_items_self ns])
  | .assign x e => same_object_self (by simp) (by simp [same_str_self, same_toJson_self e])
  | .skip => same_object_self (by simp) (by simp [same_str_self])
  | .ifThen c t =>
    same_object_self (by simp)
      (by simp [same_str_self, same_null_self, same_toJson_self c, same_toJson_self t])
  | .ifElse c t e =>
    same_object_self (by simp)
      (by simp [same_str_self, same_toJson_self c, same_toJson_self t, same_toJson_self e])
  | .whileDo c b =>
    same_object_self (by simp) (by simp [same_str_self, same_toJson_self c, same_toJson_self b])
  | .const n => same_object_self (by simp) (by simp [same_str_self, same_int_self])
  | .var x => same_object_self (by simp) (by simp [same_str_self])
  | .arith op l r | .bool op l r | .compare op l r =>
    same_object_self (by simp) (by simp [same_str_self, same_toJson_self l, same_toJson_self r])
  | .truth true | .truth false => same_object_self (by simp) (by simp [same_str_self])
  | .negation c => same_object_self (by simp) (by simp [same_str_self, same_toJson_self c])

theorem same_items_self : (ns : Nodes) → (Json.arr ns.toJson).same (.arr ns.toJson) = true
  | .last n => by
    rw [Nodes.toJson, same_arr, Items.same, same_toJson_self n]
    rfl
  | .seq n rest => by
    have hrest := same_items_self rest
    rw [same_arr] at hrest
    rw [Nodes.toJson, same_arr, Items.same, same_toJson_self n, hrest]
    rfl

end

/-- **Nodes are equal if and only if their JSON forms are the same.** -/
theorem same_toJson_iff {a b : Node} : a.toJson.same b.toJson = true ↔ a = b := by
  constructor
  · intro h
    have hbuilt : ofJson a.toJson = ofJson b.toJson := ofJson_eq_of_same _ _ h
    rw [ofJson_toJson, ofJson_toJson] at hbuilt
    exact Except.ok.inj hbuilt
  · rintro rfl
    exact same_toJson_self a

end Node

end WhileFrontend
