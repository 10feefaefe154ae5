import WhileFrontend.Proofs.Parsing.Faults
import WhileFrontend.Proofs.Rendering.Spelling
import WhileFrontend.Proofs.Token.Scanning

/-!
# What comes of parsing a text

A text is lexed without a fault, and its tokens carry their values. So a parse gives a program or a
fault, and a fault has a report, unless it names a number that is too long to be written: then that
is reported in its place (`parse_outcome`). Every such number can be named, since a number alone is
no statement (`parse_numeral`).
-/

namespace WhileFrontend

open Text Lexer

/-! ## The token that a fault names -/

theorem Token.isWellFormed_of_kind {t : Token} (hnumber : t.kind ≠ .number)
    (hident : t.kind ≠ .ident) : t.IsWellFormed :=
  ⟨fun h => absurd h hnumber, fun h => absurd h hident⟩

/-- The tokens of a text carry their values. -/
theorem Token.IsOfText.isWellFormed {t : Token} (h : t.IsOfText) : t.IsWellFormed := by
  cases h with
  | symbol s => exact isWellFormed_of_kind Kind.noConfusion Kind.noConfusion
  | keyword k => exact isWellFormed_of_kind Kind.noConfusion Kind.noConfusion
  | number hn => exact ⟨fun _ => rfl, fun hident => Kind.noConfusion hident⟩
  | name hx => exact ⟨fun hnumber => Kind.noConfusion hnumber, fun _ => rfl⟩
  | unknown => exact isWellFormed_of_kind Kind.noConfusion Kind.noConfusion

theorem isWritable_natCast {n : Nat} : isWritable n = true ↔ n < 10 ^ digitLimit := by
  rw [isWritable, decide_eq_true_eq, Int.natAbs_natCast, Nat.pow_eq]

theorem shown_number_of_le {n : Nat} (h : 10 ^ digitLimit ≤ n) :
    (Token.number n).shown = .error .tooManyDigits := by
  have hn : ¬ isWritable n = true := by
    rw [isWritable_natCast]
    exact Nat.not_lt.mpr h
  simp only [Token.shown, Token.number, Payload.shown, decimal, if_neg hn]
  rfl

/-- Of the tokens of a text, only a number that is too long is not shown. -/
theorem Token.IsOfText.shown {t : Token} (h : t.IsOfText) :
    (∃ text, t.shown = .ok text) ∨ ∃ n : Nat, t = .number n ∧ 10 ^ digitLimit ≤ n := by
  cases h with
  | @number i hi =>
    obtain ⟨n, rfl⟩ := Int.eq_ofNat_of_zero_le hi
    by_cases hn : n < 10 ^ digitLimit
    · refine .inl (Token.exists_shown fun m hm => ?_)
      obtain rfl : (n : Int) = m := Option.some.inj hm
      exact isWritable_natCast.mpr hn
    · exact .inr ⟨n, rfl, Nat.not_lt.mp hn⟩
  | symbol s => exact .inl ⟨_, rfl⟩
  | keyword k => exact .inl ⟨_, rfl⟩
  | name hx => exact .inl ⟨_, rfl⟩
  | unknown => exact .inl ⟨_, rfl⟩

/-! ## Parses of texts -/

theorem parseTokens_eq_error {ts : List Token} {f : ParseFault} (h : parseTokens ts = .error f) :
    ∃ n, Phrase.wholeProgram nestingLimit ts = .fail f n := by
  unfold parseTokens at h
  split at h
  · cases h
  · next n hfail =>
    obtain rfl := Except.error.inj h
    exact ⟨n, hfail⟩

/-- A fault of a text names one of its tokens or the end marker, unless it is on nesting. -/
theorem found_of_parse {source : String} {f : ParseFault} (h : parse source = .error f)
    (hf : f ≠ .programTooDeep) :
    ∃ t, f.found? = some t ∧ (t ∈ tokenize source ∨ t = .eof) := by
  obtain ⟨n, hfail⟩ := parseTokens_eq_error h
  have hwf : ∀ t ∈ tokenize source, t.IsWellFormed :=
    fun t ht => (isOfText_of_mem_tokenize t ht).isWellFormed
  obtain ⟨-, hfound, -⟩ := isViable_of_fault hfail hf hwf
  refine ⟨_, hfound, ?_⟩
  rw [List.getD_eq_getElem?_getD]
  cases hget : (tokenize source)[n]? with
  | none => exact .inr rfl
  | some t => exact .inl (List.mem_of_getElem? hget)

/--
**A parse of a text fails in two ways only.** Lexing gives the tokens and no fault, and parsing them
from the start gives what the parse gives. That is a program, or a fault with its report; or else
the fault names a number of the text with more than 4300 digits, and what is reported instead is
that the number is too long.
-/
theorem parse_outcome (source : String) :
    ({ source := source.toList } : Scanner).tokens.1 = .ok (tokenize source) ∧
    (({ tokens := tokenize source } : Cursor).read nestingLimit .wholeProgram).1
      = ((parse source).map Program.toNode).mapError .parse ∧
    ((∃ p, parse source = .ok p) ∨
      (∃ f text, parse source = .error f ∧ f ≠ .tooDeep ∧ f.report = .ok text) ∨
      ∃ f n, parse source = .error f ∧ f ≠ .tooDeep ∧ f.found? = some (.number n) ∧
        .number n ∈ tokenize source ∧ 10 ^ digitLimit ≤ n ∧ f.report = .error .tooManyDigits) := by
  refine ⟨scan_eq_tokenize source, ?_, ?_⟩
  · rw [Cursor.read_wholeProgram, parse, parseTokens]
    cases Phrase.wholeProgram nestingLimit (tokenize source) <;> rfl
  · cases h : parse source with
    | ok p => exact .inl ⟨p, rfl⟩
    | error f =>
      by_cases hf : f = .programTooDeep
      · subst hf
        exact .inr (.inl ⟨_, _, rfl, ParseFault.noConfusion, rfl⟩)
      obtain ⟨t, hfound, ht⟩ := found_of_parse h hf
      have hreport := ParseFault.report_eq hfound
      have hdeep : f ≠ .tooDeep := by
        rintro rfl
        cases hfound
      rcases ht with hmem | rfl
      · rcases (isOfText_of_mem_tokenize t hmem).shown with ⟨text, hshown⟩ | ⟨n, rfl, hn⟩
        · rw [hshown] at hreport
          exact .inr (.inl ⟨f, _, rfl, hdeep, hreport⟩)
        · rw [shown_number_of_le hn] at hreport
          exact .inr (.inr ⟨f, n, rfl, hdeep, hfound, hmem, hn, hreport⟩)
      · exact .inr (.inl ⟨f, _, rfl, hdeep, hreport⟩)

/-! ## A number alone -/

theorem tokenize_numeral (n : Nat) : tokenize (toString n) = [.number n] := by
  have hspells : Spells (toString (n : Int)).toList [.number n] :=
    spells_numeral (Int.natCast_nonneg n)
  have hread := hspells [] (by intro c hc; cases hc)
  have hnil : tokens [] = [] := tokens_of_skipBlanks_nil rfl
  rw [List.append_nil, hnil] at hread
  exact hread

/-- A number is no statement. -/
theorem parse_numeral (n : Nat) : parse (toString n) = .error (.noStatement (.number n)) := by
  rw [parse, tokenize_numeral]
  rfl

/-- The shortest numeral that is too long: no report of a fault comes of it. -/
theorem parse_numeral_tooManyDigits :
    ∃ f, parse (toString (10 ^ digitLimit)) = .error f ∧ f.report = .error .tooManyDigits := by
  refine ⟨_, parse_numeral _, ?_⟩
  rw [ParseFault.report_eq rfl, shown_number_of_le (Nat.le_refl _)]
  rfl

end WhileFrontend
