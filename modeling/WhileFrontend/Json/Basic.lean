/-!
# JSON values

The JSON values in which trees are written: null, integers, strings, arrays, and objects whose
fields keep their order. Items and fields are types of their own beside the values, so functions on
values are plain mutual recursions.
-/

namespace WhileFrontend

mutual

/-- A JSON value with integers for numbers. -/
inductive Json where
  | null
  | int (n : Int)
  | str (s : String)
  | arr (items : Json.Items)
  | obj (fields : Json.Fields)

/-- The items of an array. -/
inductive Json.Items where
  | nil
  | cons (item : Json) (rest : Json.Items)

/-- The fields of an object, in order. -/
inductive Json.Fields where
  | nil
  | cons (key : String) (value : Json) (rest : Json.Fields)

end

deriving instance DecidableEq for Json, Json.Items, Json.Fields

namespace Json

/-- Items from a list. -/
def Items.ofList : List Json → Items
  | [] => nil
  | j :: rest => cons j (ofList rest)

/-- Items as a list. -/
def Items.toList : Items → List Json
  | nil => []
  | cons j rest => j :: rest.toList

/-- Fields from a list. -/
def Fields.ofList : List (String × Json) → Fields
  | [] => nil
  | (key, value) :: rest => cons key value (ofList rest)

/-- Fields as a list. -/
def Fields.toList : Fields → List (String × Json)
  | nil => []
  | cons key value rest => (key, value) :: rest.toList

@[simp] theorem Items.toList_ofList (js : List Json) : (ofList js).toList = js := by
  induction js with
  | nil => rfl
  | cons j rest ih => simp [ofList, toList, ih]

@[simp] theorem Items.ofList_toList : (js : Items) → ofList js.toList = js
  | nil => rfl
  | cons j rest => congrArg (cons j) (ofList_toList rest)

@[simp] theorem Fields.toList_ofList (fs : List (String × Json)) : (ofList fs).toList = fs := by
  induction fs with
  | nil => rfl
  | cons f rest ih => simp [ofList, toList, ih]

@[simp] theorem Fields.ofList_toList : (fs : Fields) → ofList fs.toList = fs
  | nil => rfl
  | cons key value rest => congrArg (cons key value) (ofList_toList rest)

/-- An array from a list of items. -/
def array (items : List Json) : Json :=
  .arr (.ofList items)

/-- An object from a list of fields. -/
def object (fields : List (String × Json)) : Json :=
  .obj (.ofList fields)

/-- The first value under `key`, which is smaller than the fields it is found in. -/
def Fields.find? (key : String) : (fs : Fields) → Option { j : Json // sizeOf j < sizeOf fs }
  | nil => none
  | cons k v rest =>
    if k = key then some ⟨v, by simp only [cons.sizeOf_spec]; omega⟩
    else (rest.find? key).map fun j => ⟨j.val, by
      have := j.property
      simp only [cons.sizeOf_spec]
      omega⟩

end Json

end WhileFrontend
