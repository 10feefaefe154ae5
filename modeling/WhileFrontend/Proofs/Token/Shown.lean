import WhileFrontend.Proofs.Rendering.Spelling
import WhileFrontend.Proofs.Tree.Shown
import WhileFrontend.Text.Lines
import WhileFrontend.Token.Shown

/-!
# The shown form of a token determines it

Two tokens of known kinds are the same if they are shown alike (`Token.shown_inj`): the name of the
kind ends at the first parenthesis or comma, a kind is known by its name, and a value by its own
shown form, since an integer starts with no quote.

The shown form stands on one line (`Token.onOneLine_shown`). Between quotes a character that is not
printable is written as an escape, and no line break is printable.
-/

namespace WhileFrontend

open Text

/-! ## On one line -/

namespace Text

theorem isLineBreak_of_isPrintable {c : Char} (h : isPrintable c = true) :
    isLineBreak c = false := by
  have hbreaks : ∀ n ∈ lineBreaks, unprintableRanges.contains n = true := by decide +kernel
  by_contra hc
  have hmem : c.toNat ∈ lineBreaks := by simpa [isLineBreak] using hc
  simp [isPrintable, hbreaks _ hmem] at h

theorem isLineBreak_of_digit? {c : Char} (h : (Json.digit? c).isSome = true) :
    isLineBreak c = false := by
  have hbreaks : ∀ n ∈ lineBreaks, ¬ (0x30 ≤ n ∧ n ≤ 0x39) := by decide
  have hcode : 0x30 ≤ c.toNat ∧ c.toNat ≤ 0x39 := by
    by_contra hc
    rw [Json.digit?, if_neg hc] at h
    cases h
  by_contra hc
  exact hbreaks c.toNat (by simpa [isLineBreak] using hc) hcode

theorem onOneLine_hex (width n : Nat) : OnOneLine (hex width n) := by
  have hdigit : ∀ d < 16, isLineBreak (hexDigit d) = false := by decide
  induction width generalizing n with
  | zero => exact List.forall_mem_nil _
  | succ width ih =>
    exact (ih _).append (List.forall_mem_singleton.mpr (hdigit _ (Nat.mod_lt n (by decide))))

theorem IsMark.isLineBreak {mark : Char} (h : IsMark mark) : isLineBreak mark = false := by
  rcases h with rfl | rfl <;> decide

theorem onOneLine_escapeChar {mark : Char} (hmark : IsMark mark) (c : Char) :
    OnOneLine (escapeChar mark c) := by
  have hslash : isLineBreak '\\' = false := by decide
  unfold escapeChar
  split
  · next hescaped =>
    refine .cons hslash (List.forall_mem_singleton.mpr ?_)
    rcases hescaped with rfl | rfl
    · exact hslash
    · exact hmark.isLineBreak
  split
  · decide
  split
  · decide
  split
  · decide
  split
  · next hprintable =>
    exact List.forall_mem_singleton.mpr (isLineBreak_of_isPrintable hprintable)
  split
  · exact .cons hslash (.cons (by decide) (onOneLine_hex 2 _))
  split
  · exact .cons hslash (.cons (by decide) (onOneLine_hex 4 _))
  · exact .cons hslash (.cons (by decide) (onOneLine_hex 8 _))

/-- A quoted text stands on one line, whatever the text is. -/
theorem onOneLine_quoteChars (cs : List Char) : OnOneLine (quoteChars cs) := by
  have hmark := isMark_quoteMark cs
  refine .cons hmark.isLineBreak (.append ?_ (List.forall_mem_singleton.mpr hmark.isLineBreak))
  intro c hc
  obtain ⟨d, -, hd⟩ := List.mem_flatMap.mp hc
  exact onOneLine_escapeChar hmark d c hd

end Text

/-! ## Kinds by their names -/

namespace Kind

theorem ofName_name {k : Kind} (h : k ∈ known) : ofName k.name = k := by
  have hall : ∀ k ∈ known, ofName k.name = k := by decide +kernel
  exact hall k h

/-- The name of a known kind holds nothing of what follows it, and no line break. -/
theorem mem_name {k : Kind} (h : k ∈ known) :
    ∀ c ∈ k.name.toList, c ≠ ')' ∧ c ≠ ',' ∧ isLineBreak c = false := by
  have hall : ∀ k ∈ known,
      (k.name.toList.all fun c => c ≠ ')' && (c ≠ ',' && !isLineBreak c)) = true := by
    decide +kernel
  simpa using hall k h

end Kind

/-- The kinds of the tokens of texts are known. -/
theorem Token.IsOfText.kind_mem {t : Token} (h : t.IsOfText) : t.kind ∈ Kind.known := by
  cases h with
  | symbol s => simp [Token.symbol, Kind.known, Symbol.mem_all]
  | keyword k => simp [Token.keyword, Kind.known, Keyword.mem_all]
  | number | name | unknown => simp [Token.unknown, Kind.known]

/-! ## Values -/

namespace Payload

theorem eq_toString_of_shown {n : Int} {s : String} (h : (Payload.int n).shown = .ok s) :
    s = toString n := by
  have hdecimal : decimal n = .ok s := h
  rw [decimal] at hdecimal
  split at hdecimal
  · exact (Except.ok.inj hdecimal).symm
  · cases hdecimal

/-- An integer is not shown as a text is. -/
theorem toString_ne_quote (n : Int) (x : String) : toString n ≠ quote x := by
  intro h
  have hmem : quoteMark x.toList ∈ (toString n).toList := by
    rw [h, quote, String.toList_ofList, quoteChars]
    exact List.mem_cons_self
  have hdigit := digit_of_mem_toString n _ hmem
  rcases isMark_quoteMark x.toList with hmark | hmark <;> rw [hmark] at hdigit <;>
    exact absurd hdigit (by decide)

theorem shown_inj {v w : Payload} {s : String} (hv : v.shown = .ok s) (hw : w.shown = .ok s) :
    v = w := by
  cases v with
  | int m =>
    obtain rfl := eq_toString_of_shown hv
    cases w with
    | int n => rw [toString_injective (congrArg String.toList (eq_toString_of_shown hw))]
    | text y => exact absurd (Except.ok.inj hw).symm (toString_ne_quote m y)
  | text x =>
    obtain rfl := Except.ok.inj hv
    cases w with
    | int n => exact absurd (eq_toString_of_shown hw).symm (toString_ne_quote n x)
    | text y =>
      have hquote : quoteChars y.toList ++ [] = quoteChars x.toList ++ [] := by
        simpa [quote] using congrArg String.toList (Except.ok.inj hw)
      rw [String.toList_inj.mp (quoteChars_append_inj hquote).1]

theorem onOneLine_shown {v : Payload} {s : String} (h : v.shown = .ok s) : OnOneLine s.toList := by
  cases v with
  | int n =>
    obtain rfl := eq_toString_of_shown h
    intro c hc
    rcases digit_of_mem_toString n c hc with rfl | hdigit
    · decide
    · exact isLineBreak_of_digit? hdigit
  | text x =>
    obtain rfl := Except.ok.inj h
    rw [quote, String.toList_ofList]
    exact onOneLine_quoteChars x.toList

end Payload

/-! ## Tokens -/

namespace Token

/-- A token is shown as its kind alone or with its value. -/
theorem exists_of_shown {t : Token} {s : String} (h : t.shown = .ok s) :
    (t.value = none ∧ s.toList = "Token(".toList ++ (t.kind.name.toList ++ [')'])) ∨
    ∃ v x, t.value = some v ∧ v.shown = .ok x ∧
      s.toList = "Token(".toList ++ (t.kind.name.toList ++ ',' :: ' ' :: (x.toList ++ [')'])) := by
  unfold shown at h
  split at h
  · next hvalue =>
    obtain rfl := Except.ok.inj h
    exact .inl ⟨hvalue, by simp⟩
  · next v hvalue =>
    cases hv : v.shown with
    | error f =>
      rw [hv] at h
      cases h
    | ok x =>
      rw [hv] at h
      obtain rfl := Except.ok.inj h
      exact .inr ⟨v, x, hvalue, hv, by simp⟩

/-- Tokens of known kinds that are shown alike are the same. -/
theorem shown_inj {t u : Token} (ht : t.kind ∈ Kind.known) (hu : u.kind ∈ Kind.known) {s : String}
    (hs : t.shown = .ok s) (hs' : u.shown = .ok s) : t = u := by
  have hcomma : ∀ {k : Kind}, k ∈ Kind.known → ',' ∉ k.name.toList :=
    fun hk hmem => (Kind.mem_name hk _ hmem).2.1 rfl
  have hparen : ∀ {k : Kind}, k ∈ Kind.known → ')' ∉ k.name.toList :=
    fun hk hmem => (Kind.mem_name hk _ hmem).1 rfl
  have hkind : t.kind.name.toList = u.kind.name.toList → t.kind = u.kind := by
    intro hname
    rw [← Kind.ofName_name ht, String.toList_inj.mp hname, Kind.ofName_name hu]
  obtain ⟨k, v⟩ := t
  obtain ⟨k', v'⟩ := u
  rcases exists_of_shown hs with ⟨rfl, ht'⟩ | ⟨v, x, rfl, hx, ht'⟩ <;>
    rcases exists_of_shown hs' with ⟨rfl, hu'⟩ | ⟨w, y, rfl, hy, hu'⟩ <;>
    rw [ht'] at hu' <;> have hrest := List.append_cancel_left hu'
  · obtain ⟨hname, -⟩ := append_cons_inj (hparen ht) (hparen hu) hrest
    obtain rfl := hkind hname
    rfl
  · have hmem : ',' ∈ k.name.toList ++ [')'] := by simp [hrest]
    simp [hcomma ht] at hmem
  · have hmem : ',' ∈ k'.name.toList ++ [')'] := by simp [← hrest]
    simp [hcomma hu] at hmem
  · obtain ⟨hname, hvalue⟩ := append_cons_inj (hcomma ht) (hcomma hu) hrest
    obtain rfl := hkind hname
    have hxy : x = y :=
      String.toList_inj.mp (List.append_cancel_right (List.cons.inj hvalue).2)
    obtain rfl := hxy
    rw [Payload.shown_inj hx hy]

/-- A token of a known kind is shown on one line, which is not blank. -/
theorem onOneLine_shown {t : Token} (ht : t.kind ∈ Kind.known) {s : String}
    (hs : t.shown = .ok s) : OnOneLine s.toList ∧ 'T' ∈ s.toList := by
  have hopening : OnOneLine "Token(".toList := by decide
  have hname : OnOneLine t.kind.name.toList := fun c hc => (Kind.mem_name ht c hc).2.2
  rcases exists_of_shown hs with ⟨-, hs⟩ | ⟨v, x, -, hx, hs⟩
  · refine ⟨?_, by simp [hs]⟩
    rw [hs]
    exact hopening.append (hname.append (by decide))
  · refine ⟨?_, by simp [hs]⟩
    rw [hs]
    have hvalue : OnOneLine (x.toList ++ [')']) := (Payload.onOneLine_shown hx).append (by decide)
    exact hopening.append (hname.append (.cons (by decide) (.cons (by decide) hvalue)))

end Token

end WhileFrontend
