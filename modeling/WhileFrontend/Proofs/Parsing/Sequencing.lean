import WhileFrontend.Proofs.Parsing.Exactness
import WhileFrontend.Proofs.Token.Gluing

/-!
# Programs one after the other

A program may be put behind another one, and its statements then stand behind those of the other
(`DerivesProgram.append`). Conversely, what starts with a program and goes on is that program and a
program behind it (`DerivesProgram.exists_append`): a statement ends by itself, so it is read the
same whatever follows, and no statement of the first program takes up tokens of the second.

Texts of programs are put together with blanks between them, so that they do not glue.
-/

namespace WhileFrontend

/-- One program and then another one. -/
def Program.append : Program → Program → Program
  | .last s, q => .seq s q
  | .seq s p, q => .seq s (p.append q)

theorem Program.stmts_append : ∀ p q : Program, (p.append q).stmts = p.stmts ++ q.stmts
  | .last _, _ => rfl
  | .seq s p, q => congrArg (s :: ·) (stmts_append p q)

/-! ## Derivations -/

theorem DerivesProgram.append {d : Nat} {vs : List Token} {q : Program} :
    ∀ {us : List Token} {p : Program}, DerivesProgram d us p → DerivesProgram d vs q →
      DerivesProgram d (us ++ vs) (p.append q)
  | _, _, .last h, hq => .seq h hq
  | _, _, .seq first rest, hq => by
    rw [List.append_assoc]
    exact .seq first (rest.append hq)

/-- At the front of a token list there is at most one statement. -/
theorem DerivesStmt.unique_front {d : Nat} {us us' rest rest' : List Token} {s s' : Stmt}
    (h : DerivesStmt d us s) (h' : DerivesStmt d us' s') (htext : us ++ rest = us' ++ rest') :
    us = us' ∧ rest = rest' ∧ s = s' := by
  have hread : Phrase.statement d (us ++ rest) = .ok s us.length := Phrase.reads_statement h rest
  have hread' : Phrase.statement d (us' ++ rest') = .ok s' us'.length :=
    Phrase.reads_statement h' rest'
  rw [htext, hread'] at hread
  obtain ⟨rfl, hlength⟩ := Outcome.ok.inj hread
  obtain ⟨rfl, rfl⟩ := List.append_inj htext hlength.symm
  exact ⟨rfl, rfl, rfl⟩

/-- A program that starts with a statement and goes on is that statement and a program. -/
theorem DerivesStmt.exists_seq {d : Nat} {us vs : List Token} {s : Stmt} {r : Program}
    (h : DerivesStmt d us s) (hr : DerivesProgram d (us ++ vs) r) (hne : vs ≠ []) :
    ∃ q, DerivesProgram d vs q ∧ r = .seq s q := by
  generalize hts : us ++ vs = ts at hr
  cases hr with
  | last h' =>
    obtain ⟨-, hvs, -⟩ := h.unique_front h' (hts.trans (List.append_nil _).symm)
    exact absurd hvs hne
  | seq first rest =>
    obtain ⟨-, rfl, rfl⟩ := h.unique_front first hts
    exact ⟨_, rest, rfl⟩

/-- A program that starts with another one and goes on is that one and a program behind it. -/
theorem DerivesProgram.exists_append {d : Nat} {us vs : List Token} {p r : Program}
    (hp : DerivesProgram d us p) (hr : DerivesProgram d (us ++ vs) r) (hne : vs ≠ []) :
    ∃ q, DerivesProgram d vs q ∧ r = p.append q := by
  match hp with
  | .last h => exact h.exists_seq hr hne
  | .seq first rest =>
    rw [List.append_assoc] at hr
    obtain ⟨r', hr', rfl⟩ := first.exists_seq hr (by simp [hne])
    obtain ⟨q, hq, rfl⟩ := rest.exists_append hr' hne
    exact ⟨q, hq, rfl⟩

/-! ## Texts -/

/-- A text is parsed to what its tokens derive within the limit on nesting. -/
theorem parse_eq_ok_iff {source : String} {p : Program} :
    parse source = .ok p ↔ DerivesProgram nestingLimit (tokenize source) p := by
  have hend : NoEnd (tokenize source) := kind_ne_of_mem_tokenize
  rw [parse, parseTokens_eq_ok_iff, hend.beforeEnd_eq]

/--
**Programs concatenate.** Let a text be a program, and let another text with a token follow, with
blanks between the two. The whole is a program exactly if the second text is one, and its statements
are those of the first and then those of the second.
-/
theorem parse_append {s w t : String} {p : Program} (hs : parse s = .ok p) (hne : w ≠ "")
    (hw : ∀ c ∈ w.toList, Text.isBlank c = true) (ht : tokenize t ≠ []) :
    ((∃ r, parse (s ++ w ++ t) = .ok r) ↔ ∃ q, parse t = .ok q) ∧
    ∀ q, parse t = .ok q → ∃ r, parse (s ++ w ++ t) = .ok r ∧ r.stmts = p.stmts ++ q.stmts := by
  have htokens : tokenize (s ++ w ++ t) = tokenize s ++ tokenize t := tokenize_append_blanks hw hne
  rw [parse_eq_ok_iff] at hs
  have happend : ∀ q, parse t = .ok q → parse (s ++ w ++ t) = .ok (p.append q) := by
    intro q hq
    rw [parse_eq_ok_iff] at hq ⊢
    rw [htokens]
    exact hs.append hq
  refine ⟨⟨?_, ?_⟩, ?_⟩
  · rintro ⟨r, hr⟩
    rw [parse_eq_ok_iff, htokens] at hr
    obtain ⟨q, hq, -⟩ := hs.exists_append hr ht
    exact ⟨q, parse_eq_ok_iff.mpr hq⟩
  · rintro ⟨q, hq⟩
    exact ⟨_, happend q hq⟩
  · intro q hq
    exact ⟨_, happend q hq, Program.stmts_append p q⟩

/-- A conditional, and an assignment on the line below it. -/
theorem parse_append_conditionals :
    ∃ p r, parse "if true then skip; fi" = .ok p ∧ "\n" ≠ "" ∧
      (∀ c ∈ "\n".toList, Text.isBlank c = true) ∧ tokenize "x := 1;" ≠ [] ∧
      parse ("if true then skip; fi" ++ "\n" ++ "x := 1;") = .ok r ∧
      r.stmts = p.stmts ++ [.assign "x" (.const 1)] := by
  have hs : parse "if true then skip; fi" = .ok (.last (.ifThen (.truth true) (.last .skip))) := by
    decide +kernel
  have hq : parse "x := 1;" = .ok (.last (.assign "x" (.const 1))) := by decide +kernel
  have hne : "\n" ≠ "" := by decide
  have hw : ∀ c ∈ "\n".toList, Text.isBlank c = true := List.all_eq_true.mp (by decide)
  have ht : tokenize "x := 1;" ≠ [] := by decide +kernel
  obtain ⟨r, hr, hstmts⟩ := (parse_append hs hne hw ht).2 _ hq
  exact ⟨_, r, hs, hne, hw, ht, hr, hstmts⟩

end WhileFrontend
