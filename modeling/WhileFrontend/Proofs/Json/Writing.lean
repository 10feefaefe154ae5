import WhileFrontend.Json.Grammar
import WhileFrontend.Json.Writer
import WhileFrontend.Proofs.Text.Quoted

/-!
# What is written is JSON

In either layout the characters of a value are a text with that value by the grammar
(`isValue_chars`). The layouts differ in gaps only: a comma is followed by one, and so is every
bracket that has something inside (`Layout.isGap_gap`, `Layout.comma_eq`).
-/

namespace WhileFrontend.Json

/-! ## Layouts -/

theorem isGap_nil : IsGap [] :=
  fun _ hc => absurd hc List.not_mem_nil

theorem Layout.isGap_gap (layout : Layout) (level : Nat) : IsGap (layout.gap level) := by
  intro c hc
  cases layout with
  | compact => cases hc
  | indented =>
    rcases List.mem_cons.mp hc with rfl | hblank
    · rfl
    · rw [List.eq_of_mem_replicate hblank]
      rfl

theorem Layout.comma_eq (layout : Layout) (level : Nat) :
    ∃ w, layout.comma level = ',' :: w ∧ IsGap w := by
  cases layout with
  | compact => exact ⟨[' '], rfl, by simp [IsGap, isGap]⟩
  | indented => exact ⟨_, rfl, Layout.indented.isGap_gap level⟩

/-! ## Integers -/

theorem digit?_digitChar {d : Nat} (h : d < 10) : digit? d.digitChar = some d := by
  have hall : ∀ e < 10, digit? e.digitChar = some e := by decide
  exact hall d h

theorem isNumeral_toDigits (n : Nat) : IsNumeral (Nat.toDigits 10 n) n := by
  induction n using Nat.strongRecOn with
  | _ n ih =>
    by_cases hn : n < 10
    · rw [Nat.toDigits_of_lt_base hn]
      exact .digit (digit?_digitChar hn)
    · have hfront : IsNumeral (Nat.toDigits 10 (n / 10)) (n / 10) := ih (n / 10) (by omega)
      have hlast : digit? (n % 10).digitChar = some (n % 10) := digit?_digitChar (by omega)
      have happend := hfront.append (by omega) hlast
      rw [← Nat.toDigits_of_base_le (by decide) (by omega)] at happend
      rwa [Nat.div_add_mod] at happend

theorem isInteger_toString (n : Int) : IsInteger (toString n).toList n := by
  cases n with
  | ofNat m =>
    have htext : (toString (Int.ofNat m)).toList = Nat.toDigits 10 m := Nat.toList_repr
    rw [htext]
    exact .numeral (isNumeral_toDigits m)
  | negSucc m =>
    have htext : (toString (Int.negSucc m)).toList = '-' :: Nat.toDigits 10 (m + 1) := by
      show ("-" ++ Nat.repr (m + 1)).toList = _
      rw [String.toList_append, Nat.toList_repr]
      rfl
    rw [htext]
    exact .negative (isNumeral_toDigits (m + 1))

/-! ## Strings -/

theorem isCode_hex {n : Nat} (h : n < 0x10000) : IsCode (Text.hex 4 n) n := by
  have hmod : n % 16 ^ 4 = n := Nat.mod_eq_of_lt h
  refine ⟨Text.length_hex 4 n, ?_⟩
  rw [Text.foldlM_hexValue?_hex, hmod, Nat.mul_zero, Nat.zero_add]

theorem spellsChar_escapeChar (c : Char) : SpellsChar (escapeChar c) c := by
  unfold escapeChar
  split
  · next h =>
    subst h
    exact .short rfl
  next hquote =>
  split
  · next h =>
    subst h
    exact .short rfl
  next hbackslash =>
  split
  · next h =>
    subst h
    exact .short rfl
  split
  · next h =>
    subst h
    exact .short rfl
  split
  · next h =>
    subst h
    exact .short rfl
  split
  · next h =>
    subst h
    exact .short rfl
  split
  · next h =>
    subst h
    exact .short rfl
  split
  · next h => exact .plain h.1 hquote hbackslash
  split
  · next h => exact .code (isCode_hex h)
  · next h =>
    have hvalid : c.toNat < 0xD800 ∨ 0xDFFF < c.toNat ∧ c.toNat < 0x110000 := c.valid
    exact .pair (isCode_hex (by omega)) (isCode_hex (by omega)) (by omega) (by omega) (by omega)

theorem spellsChars_flatMap (cs : List Char) : SpellsChars (cs.flatMap escapeChar) cs := by
  induction cs with
  | nil => exact .nil
  | cons c cs ih =>
    rw [List.flatMap_cons]
    exact .cons (spellsChar_escapeChar c) ih

theorem isString_stringChars (s : String) : IsString (stringChars s) s :=
  .quoted (spellsChars_flatMap s.toList)

/-! ## Values -/

section

variable (layout : Layout)

mutual

/-- **What is written of a value is a text with that value.** -/
theorem isValue_chars (level : Nat) : (j : Json) → IsValue (j.chars layout level) j
  | .null => .null
  | .int n => .int (isInteger_toString n)
  | .str s => .str (isString_stringChars s)
  | .arr .nil => .emptyArr isGap_nil
  | .arr (.cons j rest) => by
    have hitems := isItems_chars (level + 1) (layout.isGap_gap (level + 1))
      (isValue_chars (level + 1) j) rest (layout.isGap_gap level)
    have hvalue := IsValue.arr hitems
    rw [chars]
    simpa only [List.append_assoc] using hvalue
  | .obj .nil => .emptyObj isGap_nil
  | .obj (.cons k j rest) => by
    have hfields := isFields_chars (level + 1) (layout.isGap_gap (level + 1)) k
      (isValue_chars (level + 1) j) rest (layout.isGap_gap level)
    have hvalue := IsValue.obj hfields
    rw [chars]
    simpa only [List.append_assoc, List.cons_append] using hvalue

/-- An item and those after it, between the gaps inside the brackets. -/
theorem isItems_chars (level : Nat) {w cs w' : List Char} {j : Json} (hw : IsGap w)
    (hj : IsValue cs j) (rest : Items) (hw' : IsGap w') :
    IsItems (w ++ (cs ++ (rest.chars layout level ++ w'))) (.cons j rest) := by
  match rest with
  | .nil => exact .last (.spaced hw hj hw')
  | .cons i more =>
    obtain ⟨v, hcomma, hv⟩ := layout.comma_eq level
    have hmore := isItems_chars level hv (isValue_chars level i) more hw'
    have hitems := IsItems.cons (.spaced hw hj isGap_nil) hmore
    rw [Items.chars, hcomma]
    simpa only [List.append_assoc, List.cons_append, List.append_nil] using hitems

/-- A field and those after it, between the gaps inside the brackets. -/
theorem isFields_chars (level : Nat) {w cs w' : List Char} {j : Json} (hw : IsGap w) (k : String)
    (hj : IsValue cs j) (rest : Fields) (hw' : IsGap w') :
    IsFields (w ++ (stringChars k ++ ':' :: ' ' :: (cs ++ (rest.chars layout level ++ w'))))
      (.cons k j rest) := by
  have hblank : IsGap [' '] := by simp [IsGap, isGap]
  match rest with
  | .nil => exact .last (.spaced hw (isString_stringChars k) isGap_nil (.spaced hblank hj hw'))
  | .cons i value more =>
    obtain ⟨v, hcomma, hv⟩ := layout.comma_eq level
    have hmore := isFields_chars level hv i (isValue_chars level value) more hw'
    have hfields := IsFields.cons
      (.spaced hw (isString_stringChars k) isGap_nil (.spaced hblank hj isGap_nil)) hmore
    rw [Fields.chars, hcomma]
    simpa only [List.append_assoc, List.cons_append, List.append_nil, List.nil_append]
      using hfields

end

end

@[simp] theorem isWritable_null : null.isWritable = true := rfl

@[simp] theorem isWritable_str (s : String) : (str s).isWritable = true := rfl

/-- An object can be written if the values in it can. -/
@[simp] theorem isWritable_object (fs : List (String × Json)) :
    (object fs).isWritable = fs.all fun f => f.2.isWritable := by
  rw [object, isWritable]
  induction fs with
  | nil => rfl
  | cons f rest ih => rw [Fields.ofList, Fields.isWritable, ih, List.all_cons]

/-- Whatever is written is a text with the value that it was written of. -/
theorem isElement_of_write {layout : Layout} {j : Json} {text : String}
    (h : j.write layout = .ok text) : IsElement text.toList j := by
  unfold write at h
  split at h
  · obtain rfl := Except.ok.inj h
    have hvalue := IsElement.spaced isGap_nil (isValue_chars layout 0 j) isGap_nil
    rwa [String.toList_ofList, ← List.append_nil (j.chars layout 0), ← List.nil_append (_ ++ [])]
  · cases h

end WhileFrontend.Json
