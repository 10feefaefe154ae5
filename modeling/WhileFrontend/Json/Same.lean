import WhileFrontend.Json.Basic

/-!
# Objects without order

Two values are the same if they differ at most in the order of fields: objects have the same keys,
with values under them that are the same.
-/

namespace WhileFrontend.Json

/-- The keys of fields, in order. -/
def Fields.keys : Fields → List String
  | nil => []
  | cons key _ rest => key :: rest.keys

mutual

/-- Whether two values are the same, whatever the order of fields. -/
def same : Json → Json → Bool
  | null, null => true
  | int m, int n => m = n
  | str s, str t => s = t
  | arr is, arr js => is.same js
  | obj fs, obj gs => fs.sameIn gs && gs.keys.all fun key => (fs.find? key).isSome
  | _, _ => false

/-- Whether the items are the same, one by one. -/
def Items.same : Items → Items → Bool
  | .nil, .nil => true
  | .cons i is, .cons j js => i.same j && is.same js
  | _, _ => false

/-- Whether every field has one of the same value in the other fields. -/
def Fields.sameIn : Fields → Fields → Bool
  | .nil, _ => true
  | .cons key i rest, gs =>
    (match gs.find? key with
      | some j => i.same j.val
      | none => false) && rest.sameIn gs

end

theorem same_null_self : null.same null = true := rfl

theorem same_str_self (s : String) : (str s).same (str s) = true :=
  decide_eq_true rfl

theorem same_int_self (n : Int) : (int n).same (int n) = true :=
  decide_eq_true rfl

theorem same_arr (is js : Items) : (arr is).same (arr js) = is.same js := rfl

theorem same_obj (fs gs : Fields) : (obj fs).same (obj gs)
    = (fs.sameIn gs && gs.keys.all fun key => (fs.find? key).isSome) := rfl

/-- Values that are the same are equal, or both arrays or both objects. -/
theorem cases_of_same {i j : Json} (h : i.same j = true) :
    i = j ∨ (∃ is js, i = arr is ∧ j = arr js ∧ is.same js = true) ∨
      ∃ fs gs, i = obj fs ∧ j = obj gs := by
  match i, j with
  | null, null => exact .inl rfl
  | int m, int n => exact .inl (congrArg int (of_decide_eq_true h))
  | str s, str t => exact .inl (congrArg str (of_decide_eq_true h))
  | arr is, arr js => exact .inr (.inl ⟨is, js, rfl, rfl, h⟩)
  | obj fs, obj gs => exact .inr (.inr ⟨fs, gs, rfl, rfl⟩)

theorem Fields.mem_keys_of_find? {fs : Fields} {key : String}
    {j : { j : Json // sizeOf j < sizeOf fs }} (h : fs.find? key = some j) : key ∈ fs.keys := by
  match fs with
  | .nil => cases h
  | .cons k i rest =>
    by_cases hk : k = key
    · rw [keys, hk]
      exact List.mem_cons_self
    · rw [find?, if_neg hk] at h
      obtain ⟨j', hj', -⟩ := Option.map_eq_some_iff.mp h
      exact List.mem_cons_of_mem k (mem_keys_of_find? hj')

/-- A field has one of the same value in the other fields. -/
theorem Fields.exists_of_sameIn {fs gs : Fields} (h : fs.sameIn gs = true) {key : String}
    {i : { i : Json // sizeOf i < sizeOf fs }} (hi : fs.find? key = some i) :
    ∃ j, gs.find? key = some j ∧ i.val.same j.val = true := by
  match fs with
  | .nil => cases hi
  | .cons k i' rest =>
    rw [sameIn, Bool.and_eq_true] at h
    by_cases hk : k = key
    · subst hk
      rw [find?, if_pos rfl] at hi
      obtain rfl := Option.some.inj hi
      cases hj : gs.find? k with
      | none =>
        rw [hj] at h
        cases h.1
      | some j =>
        rw [hj] at h
        exact ⟨j, rfl, h.1⟩
    · rw [find?, if_neg hk] at hi
      obtain ⟨i'', hi'', rfl⟩ := Option.map_eq_some_iff.mp hi
      exact exists_of_sameIn h.2 hi''

/-! ## Distinct keys -/

theorem Fields.keys_ofList (fs : List (String × Json)) : (ofList fs).keys = fs.map Prod.fst := by
  induction fs with
  | nil => rfl
  | cons f rest ih => rw [ofList, keys, ih, List.map_cons]

/-- Where the keys are distinct, a field is found under its key. -/
theorem Fields.find?_ofList {fs : List (String × Json)} (hkeys : (fs.map Prod.fst).Nodup)
    {key : String} {i : Json} (hi : (key, i) ∈ fs) :
    ∃ j, (ofList fs).find? key = some j ∧ j.val = i := by
  induction fs with
  | nil => cases hi
  | cons f rest ih =>
    obtain ⟨k, i'⟩ := f
    rw [List.map_cons, List.nodup_cons] at hkeys
    rcases List.mem_cons.mp hi with heq | hrest
    · cases heq
      rw [ofList, find?, if_pos rfl]
      exact ⟨_, rfl, rfl⟩
    · have hne : k ≠ key := by
        rintro rfl
        exact hkeys.1 (List.mem_map.mpr ⟨(k, i), hrest, rfl⟩)
      obtain ⟨j, hj, hval⟩ := ih hkeys.2 hrest
      rw [ofList, find?, if_neg hne, hj]
      exact ⟨_, rfl, hval⟩

theorem Fields.sameIn_ofList {fs : List (String × Json)} {gs : Fields}
    (h : ∀ f ∈ fs, ∃ j, gs.find? f.1 = some j ∧ f.2.same j.val = true) :
    (ofList fs).sameIn gs = true := by
  induction fs with
  | nil => rfl
  | cons f rest ih =>
    obtain ⟨j, hj, hsame⟩ := h f List.mem_cons_self
    rw [ofList, sameIn, hj, Bool.and_eq_true]
    exact ⟨hsame, ih fun g hg => h g (List.mem_cons_of_mem f hg)⟩

/-- An object with distinct keys is the same as itself if its values are. -/
theorem same_object_self {fs : List (String × Json)} (hkeys : (fs.map Prod.fst).Nodup)
    (hvalues : ∀ f ∈ fs, f.2.same f.2 = true) : (object fs).same (object fs) = true := by
  -- each field finds itself, which is where distinct keys are needed
  have hfound : ∀ f ∈ fs, ∃ j, (Fields.ofList fs).find? f.1 = some j ∧ j.val = f.2 :=
    fun f hf => Fields.find?_ofList hkeys hf
  rw [object, same_obj, Bool.and_eq_true, List.all_eq_true]
  constructor
  · refine Fields.sameIn_ofList fun f hf => ?_
    obtain ⟨j, hj, hval⟩ := hfound f hf
    exact ⟨j, hj, by rw [hval]; exact hvalues f hf⟩
  · intro key hkey
    rw [Fields.keys_ofList] at hkey
    obtain ⟨f, hf, rfl⟩ := List.mem_map.mp hkey
    obtain ⟨j, hj, -⟩ := hfound f hf
    rw [hj]
    rfl

end WhileFrontend.Json
