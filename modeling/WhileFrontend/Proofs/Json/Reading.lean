import WhileFrontend.Json.Reader

/-!
# Every JSON text is read

A text that has a value by the grammar is read, and its value is the one that is read
(`decode_of_isElement`); so no text has two values (`IsElement.unique`).

Each part of the grammar is a run of the reader over the part, from the state in front of it to the
state behind it, whatever comes next. Only a numeral has to be followed by a character that does not
belong to it (`Ends`), which whatever may follow a value in a text does.
-/

namespace WhileFrontend.Json

variable {s t : ReaderState} {frames : List Frame} {cs us w rest : List Char} {c : Char}

/-! ## Runs -/

theorem run_cons (h : step s c = some t) (cs : List Char) : run s (c :: cs) = run t cs := by
  show (step s c).bind (fun t => run t cs) = run t cs
  rw [h]
  rfl

/-- Two states that read the next character alike run alike. -/
theorem run_congr (h : step s c = step t c) (cs : List Char) : run s (c :: cs) = run t (c :: cs) :=
  congrArg (fun o : Option ReaderState => o.bind fun u => run u cs) h

/-- A state that stays the same on gaps does so on all of a gap. -/
theorem run_gap (hs : ∀ c, isGap c = true → step s c = some s) (hw : IsGap w) (rest : List Char) :
    run s (w ++ rest) = run s rest := by
  induction w with
  | nil => rfl
  | cons c w ih =>
    have hc : isGap c = true := hw c List.mem_cons_self
    rw [List.cons_append, run_cons (hs c hc), ih fun d hd => hw d (List.mem_cons_of_mem c hd)]

theorem step_value_gap (h : isGap c = true) : step (.value, frames) c = some (.value, frames) := by
  rw [step, if_pos h]

theorem step_firstItem_gap (h : isGap c = true) :
    step (.firstItem, frames) c = some (.firstItem, frames) := by
  rw [step, if_pos h]

theorem step_firstKey_gap (h : isGap c = true) :
    step (.firstKey, frames) c = some (.firstKey, frames) := by
  rw [step, if_pos h]

theorem step_key_gap {fields : List (String × Json)} (h : isGap c = true) :
    step (.key fields, frames) c = some (.key fields, frames) := by
  rw [step, if_pos h]

theorem step_colon_gap {fields : List (String × Json)} {key : String} (h : isGap c = true) :
    step (.colon fields key, frames) c = some (.colon fields key, frames) := by
  rw [step, if_pos h]

theorem step_done_gap {j : Json} (h : isGap c = true) :
    step (.done j, frames) c = some (.done j, frames) := by
  rw [step]
  unfold follow
  rw [if_pos h]

/-! ## Numbers -/

/-- The first character is no digit, and there is one. -/
def Ends (rest : List Char) : Prop :=
  ∃ c cs, rest = c :: cs ∧ digit? c = none

theorem ends_cons (h : digit? c = none) (cs : List Char) : Ends (c :: cs) :=
  ⟨c, cs, rfl, h⟩

theorem digit?_of_isGap (h : isGap c = true) : digit? c = none := by
  simp only [isGap, Bool.or_eq_true, decide_eq_true_eq] at h
  rcases h with ((rfl | rfl) | rfl) | rfl <;> rfl

theorem Ends.gap (hw : IsGap w) (h : Ends rest) : Ends (w ++ rest) := by
  cases w with
  | nil => exact h
  | cons c w => exact ends_cons (digit?_of_isGap (hw c List.mem_cons_self)) _

theorem isGap_of_digit? {d : Nat} (h : digit? c = some d) : isGap c = false := by
  rw [← Bool.not_eq_true]
  intro hgap
  rw [digit?_of_isGap hgap] at h
  cases h

theorem ne_of_digit? {d : Nat} (h : digit? c = some d) {c' : Char} (hc' : digit? c' = none) :
    c ≠ c' := by
  rintro rfl
  rw [h] at hc'
  cases hc'

theorem begin_digit {d : Nat} (h : digit? c = some d) (frames : List Frame) :
    begin frames c = some (.number false d, frames) := by
  have hne : ∀ {c' : Char}, digit? c' = none → c ≠ c' := ne_of_digit? h
  rw [begin, if_neg (hne rfl), if_neg (hne rfl), if_neg (hne rfl), if_neg (hne rfl),
    if_neg (hne rfl), h]
  rfl

/-- Digits are read from any state that a first digit takes to a number. -/
theorem run_numeral {negative : Bool} {n : Nat}
    (hs : ∀ c d, digit? c = some d → step s c = some (.number negative d, frames))
    (h : IsNumeral cs n) (rest : List Char) :
    run s (cs ++ rest) = run (.number negative n, frames) rest := by
  induction h generalizing rest with
  | digit value => exact run_cons (hs _ _ value) rest
  | append front positive value ih =>
    rw [List.append_assoc, ih]
    refine run_cons ?_ rest
    rw [step, value]
    simp only [if_neg positive]

/-- A number is over where something else follows. -/
theorem run_number {negative : Bool} {n : Nat} (hr : Ends rest) :
    run (.number negative n, frames) rest
      = run (.done (.int (if negative then -n else n)), frames) rest := by
  obtain ⟨c, cs, rfl, hc⟩ := hr
  refine run_congr ?_ cs
  rw [step, hc, step]

theorem run_integer {n : Int} (h : IsInteger cs n) (hr : Ends rest) :
    run (.value, frames) (cs ++ rest) = run (.done (.int n), frames) rest := by
  cases h with
  | numeral digits =>
    have hfirst : ∀ c d, digit? c = some d →
        step (.value, frames) c = some (.number false d, frames) := by
      intro c d hd
      rw [step, if_neg (by simp [isGap_of_digit? hd]), begin_digit hd]
    rw [run_numeral hfirst digits, run_number hr]
    rfl
  | negative digits =>
    have hfirst : ∀ c d, digit? c = some d →
        step (.minus, frames) c = some (.number true d, frames) := by
      intro c d hd
      rw [step, hd]
      rfl
    have hminus : step (.value, frames) '-' = some (.minus, frames) := rfl
    rw [List.cons_append, run_cons hminus, run_numeral hfirst digits, run_number hr]
    rfl

/-! ## Strings -/

theorem foldlM_cons {σ : Type} {f : σ → Char → Option σ} {a b : σ} (h : f a c = some b)
    (cs : List Char) : (c :: cs).foldlM f a = cs.foldlM f b := by
  rw [List.foldlM_cons, h]
  rfl

/-- The digits that are left are read, and then what comes of the value of the code. -/
theorem foldlM_stepString_digits {ds : List Char} {left n m : Nat} (hlength : ds.length = left + 1)
    (hvalue : ds.foldlM (fun n c => (Text.hexValue? c).map (16 * n + ·)) n = some m)
    (cs : List Char) (high : Option Nat) :
    ds.foldlM stepString (cs, .code high left n) = endCode cs high m := by
  induction ds generalizing left n with
  | nil => cases hlength
  | cons c ds ih =>
    cases hc : Text.hexValue? c with
    | none =>
      rw [List.foldlM_cons, hc] at hvalue
      cases hvalue
    | some d =>
      rw [List.foldlM_cons, hc] at hvalue
      cases left with
      | zero =>
        obtain rfl : ds = [] := List.length_eq_zero_iff.mp (Nat.succ.inj hlength)
        obtain rfl : 16 * n + d = m := Option.some.inj hvalue
        have hstep : stepString (cs, .code high 0 n) c = endCode cs high (16 * n + d) := by
          simp only [stepString, hc]
        rw [List.foldlM_cons, hstep]
        cases endCode cs high (16 * n + d) <;> rfl
      | succ left =>
        have hstep : stepString (cs, .code high (left + 1) n) c
            = some (cs, .code high left (16 * n + d)) := by
          simp only [stepString, hc]
        rw [foldlM_cons hstep]
        exact ih (Nat.succ.inj hlength) hvalue

theorem foldlM_stepString_code {ds : List Char} {n : Nat} (h : IsCode ds n) (cs : List Char)
    (high : Option Nat) : ds.foldlM stepString (cs, .code high 3 0) = endCode cs high n :=
  foldlM_stepString_digits h.1 h.2 cs high

theorem not_surrogate (c : Char) : ¬ (0xD800 ≤ c.toNat ∧ c.toNat < 0xE000) := by
  have hvalid : c.toNat < 0xD800 ∨ 0xDFFF < c.toNat ∧ c.toNat < 0x110000 := c.valid
  omega

theorem foldlM_stepString (h : SpellsChar us c) (cs : List Char) :
    us.foldlM stepString (cs, .start) = some (cs ++ [c], .start) := by
  cases h with
  | plain noControl noQuote noEscape =>
    refine foldlM_cons ?_ []
    rw [stepString, if_neg noQuote, if_neg noEscape, if_pos noControl]
  | @short e _ escape =>
    have hstart : stepString (cs, .start) '\\' = some (cs, .escape) := rfl
    have hu : e ≠ 'u' := by
      rintro rfl
      cases escape
    rw [foldlM_cons hstart]
    refine foldlM_cons ?_ []
    rw [stepString, if_neg hu, escape]
    rfl
  | code value =>
    have hstart : stepString (cs, .start) '\\' = some (cs, .escape) := rfl
    have hescape : stepString (cs, .escape) 'u' = some (cs, .code none 3 0) := rfl
    -- the code of a character is no half of a pair, so it stands for itself
    have hsurrogate := not_surrogate c
    rw [foldlM_cons hstart, foldlM_cons hescape, foldlM_stepString_code value, endCode]
    rw [if_neg (by omega), if_neg (by omega), Char.ofNat_toNat]
  | @pair ds es high low _ first second isHigh isLow value =>
    have hstart : stepString (cs, .start) '\\' = some (cs, .escape) := rfl
    have hescape : stepString (cs, .escape) 'u' = some (cs, .code none 3 0) := rfl
    have hpair : stepString (cs, .pair high) '\\' = some (cs, .pairEscape high) := rfl
    have hpairEscape : stepString (cs, .pairEscape high) 'u' = some (cs, .code (some high) 3 0) :=
      rfl
    have hhigh : ds.foldlM stepString (cs, .code none 3 0) = some (cs, .pair high) := by
      rw [foldlM_stepString_code first, endCode, if_pos isHigh]
    rw [foldlM_cons hstart, foldlM_cons hescape, List.foldlM_append, hhigh]
    show List.foldlM stepString (cs, .pair high) ('\\' :: 'u' :: es) = _
    rw [foldlM_cons hpair, foldlM_cons hpairEscape, foldlM_stepString_code second, endCode]
    rw [if_pos isLow, ← value, Char.ofNat_toNat]

theorem foldlM_stepString_chars {ds : List Char} (h : SpellsChars us ds) (cs : List Char) :
    us.foldlM stepString (cs, .start) = some (cs ++ ds, .start) := by
  induction h generalizing cs with
  | nil => rw [List.append_nil]; rfl
  | @cons us vs c ds first rest ih =>
    rw [List.foldlM_append, foldlM_stepString first]
    show List.foldlM stepString (cs ++ [c], .start) vs = _
    rw [ih, List.append_assoc]
    rfl

/-- The steps of a string are steps of the reader. -/
theorem run_string {role : StringRole} {state state' : StringState}
    (h : us.foldlM stepString state = some state') (rest : List Char) :
    run (.string role state, frames) (us ++ rest) = run (.string role state', frames) rest := by
  induction us generalizing state with
  | nil =>
    obtain rfl := Option.some.inj h
    rfl
  | cons c us ih =>
    cases hc : stepString state c with
    | none =>
      rw [List.foldlM_cons, hc] at h
      cases h
    | some next =>
      rw [foldlM_cons hc] at h
      rw [List.cons_append]
      refine (run_cons ?_ (us ++ rest)).trans (ih h)
      obtain ⟨cs, place⟩ := state
      simp only [step, hc]

/-- Behind its opening quote, a string is read up to its closing quote. -/
theorem run_quoted {key : String} (role : StringRole) (h : IsString cs key)
    (hs : step s '\x22' = some (.string role ([], .start), frames)) (rest : List Char) :
    run s (cs ++ rest) = run (endString role key.toList, frames) rest := by
  cases h with
  | @quoted us _ content =>
    have hclose : step (.string role (key.toList, .start), frames) '\x22'
        = some (endString role key.toList, frames) := rfl
    rw [List.cons_append, run_cons hs, List.append_assoc,
      run_string (foldlM_stepString_chars content []), List.nil_append]
    exact run_cons hclose rest

/-! ## Values -/

theorem IsNumeral.head {n : Nat} (h : IsNumeral cs n) :
    ∃ c tail d, cs = c :: tail ∧ digit? c = some d := by
  induction h with
  | @digit c d value => exact ⟨c, [], d, rfl, value⟩
  | @append cs n c d front positive value ih =>
    obtain ⟨c', tail, d', rfl, hd'⟩ := ih
    exact ⟨c', tail ++ [c], d', rfl, hd'⟩

/-- A value starts with a character that is no gap and closes no array. -/
theorem IsValue.head {j : Json} (h : IsValue cs j) :
    ∃ c tail, cs = c :: tail ∧ isGap c = false ∧ c ≠ ']' := by
  cases h with
  | null => exact ⟨_, _, rfl, rfl, by decide⟩
  | int integer =>
    cases integer with
    | numeral digits =>
      obtain ⟨c, tail, d, rfl, hd⟩ := digits.head
      exact ⟨c, tail, rfl, isGap_of_digit? hd, ne_of_digit? hd rfl⟩
    | negative digits => exact ⟨_, _, rfl, rfl, by decide⟩
  | str string =>
    cases string with
    | quoted content => exact ⟨_, _, rfl, rfl, by decide⟩
  | emptyArr gap => exact ⟨_, _, rfl, rfl, by decide⟩
  | arr inside => exact ⟨_, _, rfl, rfl, by decide⟩
  | emptyObj gap => exact ⟨_, _, rfl, rfl, by decide⟩
  | obj inside => exact ⟨_, _, rfl, rfl, by decide⟩

theorem IsElement.head {j : Json} (h : IsElement cs j) :
    ∃ w c tail, cs = w ++ c :: tail ∧ IsGap w ∧ isGap c = false ∧ c ≠ ']' := by
  cases h with
  | @spaced w vs w' _ before value after =>
    obtain ⟨c, tail, rfl, hc⟩ := value.head
    exact ⟨w, c, tail ++ w', by rw [List.cons_append], before, hc⟩

theorem IsItems.head {items : Items} (h : IsItems cs items) :
    ∃ w c tail, cs = w ++ c :: tail ∧ IsGap w ∧ isGap c = false ∧ c ≠ ']' := by
  cases h with
  | last item => exact item.head
  | @cons vs ds _ _ item others =>
    obtain ⟨w, c, tail, rfl, hw, hc⟩ := item.head
    exact ⟨w, c, tail ++ ',' :: ds, by rw [List.append_assoc, List.cons_append], hw, hc⟩

theorem IsField.head {key : String} {j : Json} (h : IsField cs key j) :
    ∃ w tail, cs = w ++ '\x22' :: tail ∧ IsGap w := by
  cases h with
  | @spaced w us w' vs _ _ before name after value =>
    cases name with
    | @quoted us _ content =>
      exact ⟨w, (us ++ ['\x22']) ++ (w' ++ ':' :: vs), by rw [List.cons_append], before⟩

theorem IsFields.head {fields : Fields} (h : IsFields cs fields) :
    ∃ w tail, cs = w ++ '\x22' :: tail ∧ IsGap w := by
  cases h with
  | last field => exact field.head
  | @cons vs ds _ _ _ field others =>
    obtain ⟨w, tail, rfl, hw⟩ := field.head
    exact ⟨w, tail ++ ',' :: ds, by rw [List.append_assoc, List.cons_append], hw⟩

/-- An array with items is read as behind a comma. -/
theorem run_firstItem {items : Items} (h : IsItems cs items) (rest : List Char) :
    run (.firstItem, frames) (cs ++ rest) = run (.value, .array [] :: frames) (cs ++ rest) := by
  obtain ⟨w, c, tail, rfl, hw, hc, hclose⟩ := h.head
  rw [List.append_assoc, run_gap (fun c => step_firstItem_gap) hw,
    run_gap (fun c => step_value_gap) hw]
  refine run_congr ?_ (tail ++ rest)
  rw [step, step, if_neg (by simp [hc]), if_neg hclose, if_neg (by simp [hc])]

/-- An object with fields is read as behind a comma. -/
theorem run_firstKey {fields : Fields} (h : IsFields cs fields) (rest : List Char) :
    run (.firstKey, frames) (cs ++ rest) = run (.key [], frames) (cs ++ rest) := by
  obtain ⟨w, tail, rfl, hw⟩ := h.head
  rw [List.append_assoc, run_gap (fun c => step_firstKey_gap) hw,
    run_gap (fun c => step_key_gap) hw]
  exact run_congr rfl (tail ++ rest)

mutual

theorem run_value {cs : List Char} {j : Json} (h : IsValue cs j) (frames : List Frame)
    {rest : List Char} (hr : Ends rest) :
    run (.value, frames) (cs ++ rest) = run (.done j, frames) rest := by
  match h with
  | .null =>
    obtain ⟨c, tail, rfl, -⟩ := hr
    rfl
  | .int integer => exact run_integer integer hr
  | @IsValue.str _ s string =>
    have hs : step (.value, frames) '\x22' = some (.string .value ([], .start), frames) := rfl
    rw [run_quoted .value string hs, endString, String.ofList_toList]
  | @IsValue.emptyArr w gap =>
    have hopen : step (.value, frames) '[' = some (.firstItem, frames) := rfl
    have hclose : step (.firstItem, frames) ']' = some (.done (.arr .nil), frames) := rfl
    rw [List.cons_append, run_cons hopen, List.append_assoc,
      run_gap (fun c => step_firstItem_gap) gap]
    exact run_cons hclose rest
  | @IsValue.arr vs items inside =>
    have hopen : step (.value, frames) '[' = some (.firstItem, frames) := rfl
    rw [List.cons_append, run_cons hopen, List.append_assoc, run_firstItem inside,
      List.singleton_append, run_items inside frames [] rest, List.nil_append, Json.array,
      Items.ofList_toList]
  | @IsValue.emptyObj w gap =>
    have hopen : step (.value, frames) '\x7b' = some (.firstKey, frames) := rfl
    have hclose : step (.firstKey, frames) '\x7d' = some (.done (.obj .nil), frames) := rfl
    rw [List.cons_append, run_cons hopen, List.append_assoc,
      run_gap (fun c => step_firstKey_gap) gap]
    exact run_cons hclose rest
  | @IsValue.obj vs fields inside =>
    have hopen : step (.value, frames) '\x7b' = some (.firstKey, frames) := rfl
    rw [List.cons_append, run_cons hopen, List.append_assoc, run_firstKey inside,
      List.singleton_append, run_fields inside frames [] rest, List.nil_append, Json.object,
      Fields.ofList_toList]

theorem run_element {cs : List Char} {j : Json} (h : IsElement cs j) (frames : List Frame)
    {rest : List Char} (hr : Ends rest) :
    run (.value, frames) (cs ++ rest) = run (.done j, frames) rest := by
  match h with
  | .spaced before value after =>
    rw [List.append_assoc, List.append_assoc, run_gap (fun c => step_value_gap) before,
      run_value value frames (hr.gap after), run_gap (fun c => step_done_gap) after]

theorem run_items {cs : List Char} {items : Items} (h : IsItems cs items) (frames : List Frame)
    (before : List Json) (rest : List Char) :
    run (.value, .array before :: frames) (cs ++ ']' :: rest)
      = run (.done (Json.array (before ++ items.toList)), frames) rest := by
  match h with
  | .last item =>
    rw [run_element item _ (ends_cons rfl rest)]
    exact run_cons rfl rest
  | @IsItems.cons vs ds j others item more =>
    have hcomma : step (.done j, .array before :: frames) ','
        = some (.value, .array (before ++ [j]) :: frames) := rfl
    rw [List.append_assoc, List.cons_append, run_element item _ (ends_cons rfl _),
      run_cons hcomma, run_items more frames (before ++ [j]) rest, List.append_assoc]
    rfl

theorem run_field {cs : List Char} {key : String} {j : Json} (h : IsField cs key j)
    (frames : List Frame) (before : List (String × Json)) {rest : List Char} (hr : Ends rest) :
    run (.key before, frames) (cs ++ rest)
      = run (.done j, .object before key :: frames) rest := by
  match h with
  | @IsField.spaced w us w' vs _ _ gap name gap' value =>
    have hquote : step (.key before, frames) '\x22'
        = some (.string (.key before) ([], .start), frames) := rfl
    have hcolon : step (.colon before key, frames) ':'
        = some (.value, .object before key :: frames) := rfl
    rw [List.append_assoc, run_gap (fun c => step_key_gap) gap, List.append_assoc,
      run_quoted (.key before) name hquote, endString, String.ofList_toList, List.append_assoc,
      run_gap (fun c => step_colon_gap) gap', List.cons_append, run_cons hcolon,
      run_element value _ hr]

theorem run_fields {cs : List Char} {fields : Fields} (h : IsFields cs fields)
    (frames : List Frame) (before : List (String × Json)) (rest : List Char) :
    run (.key before, frames) (cs ++ '\x7d' :: rest)
      = run (.done (Json.object (before ++ fields.toList)), frames) rest := by
  match h with
  | .last field =>
    rw [run_field field _ _ (ends_cons rfl rest)]
    exact run_cons rfl rest
  | @IsFields.cons vs ds key j others field more =>
    have hcomma : step (.done j, .object before key :: frames) ','
        = some (.key (before ++ [(key, j)]), frames) := rfl
    rw [List.append_assoc, List.cons_append, run_field field _ _ (ends_cons rfl _),
      run_cons hcomma, run_fields more frames (before ++ [(key, j)]) rest, List.append_assoc]
    rfl

end

/-! ## Texts -/

/-- **A JSON text is read as the value that it has.** -/
theorem decode_of_isElement {text : String} {j : Json} (h : IsElement text.toList j) :
    decode text = some j := by
  have hrun : run (.value, []) (text.toList ++ ['\n']) = run (.done j, []) ['\n'] :=
    run_element h [] (ends_cons rfl [])
  rw [decode, hrun]
  rfl

example : decode "[\"\\ud835\\udc65\", -5]" = some (array [.str "𝑥", .int (-5)]) := by
  decide +kernel

/-- A text has at most one value. -/
theorem IsElement.unique {i j : Json} (hi : IsElement cs i) (hj : IsElement cs j) : i = j := by
  have hread : ∀ k, IsElement cs k → decode (String.ofList cs) = some k := by
    intro k hk
    apply decode_of_isElement
    rwa [String.toList_ofList]
  exact Option.some.inj ((hread i hi).symm.trans (hread j hj))

end WhileFrontend.Json
