import WhileFrontend.CommandLine.Folder
import WhileFrontend.Proofs.CommandLine.Spelling
import WhileFrontend.Proofs.Rendering.Roundtrip

/-!
# How a run ends

A run ends with status 0, with status 1 and one report, or with status 2 and the usage line, unless
it meets a tree of too many levels: for that the program has no report (`runProgram_ending`). A
chain of operators is enough to build such a tree, because the parser reads chains of any length
while writing a tree goes down level by level (`runProgram_assignOnes`).
-/

namespace WhileFrontend

/-! ## Chains of operators -/

/-- A sum of ones, with `n` operators. -/
def Arith.ones : Nat → Arith
  | 0 => .const 1
  | n + 1 => .binary .add (ones n) (.const 1)

/-- An assignment of such a sum. -/
def Program.assignOnes (n : Nat) : Program :=
  .last (.assign "x" (.ones n))

theorem Arith.expressible_ones (n : Nat) : (ones n).Expressible := by
  induction n with
  | zero => decide
  | succ n ih => exact ⟨ih, by decide⟩

/-- A chain needs no parentheses. -/
theorem Arith.nesting_ones {level : Nat} (hlevel : level ≤ 1) (n : Nat) :
    (ones n).nesting level = 0 := by
  induction n generalizing level with
  | zero => rfl
  | succ n ih =>
    have hcost : groupCost ArithOp.add.level level = 0 := groupCost_of_le hlevel
    have hleft : (ones n).nesting ArithOp.add.level = 0 := ih (Nat.le_refl 1)
    rw [ones, nesting, hleft, hcost]
    rfl

/-- A chain nests to the left, one level for each operator. -/
theorem Arith.levels_ones (n : Nat) : (ones n).toNode.levels = n + 1 := by
  induction n with
  | zero => rfl
  | succ n ih =>
    rw [ones, toNode, Node.levels, ih, toNode, Node.levels]
    omega

/-- A sum of ones is parsed however long it is. -/
theorem parse_assignOnes (n : Nat) :
    parse (Program.assignOnes n).render = .ok (Program.assignOnes n) := by
  have hexpressible : (Program.assignOnes n).Expressible :=
    ⟨by decide +kernel, Arith.expressible_ones n⟩
  have hnesting : (Program.assignOnes n).nesting = 0 := Arith.nesting_ones (Nat.zero_le 1) n
  rw [parse, Program.tokenize_render hexpressible]
  exact Program.parseTokens_tokens hexpressible (by rw [hnesting]; exact Nat.zero_le _)

theorem levels_assignOnes (n : Nat) : (Program.assignOnes n).toNode.levels = n + 3 := by
  rw [Program.assignOnes, Program.toNode, Program.toNodes, Stmt.toNode, Node.levels, Nodes.levels,
    Node.levels, Arith.levels_ones]

namespace CommandLine

variable {σ : Type}

/-- The arguments ask for the tree of a source that is parsed to one of too many levels. -/
def MeetsDeepTree (disk : Disk (StateM σ)) (args : List String) (files : σ) : Prop :=
  ∃ r source p, readArguments args = .ok r ∧ r.tokensOnly = false ∧
    ((r.load disk).run files).1 = .ok source ∧ parse source = .ok p ∧
    levelLimit < p.toNode.levels

/-- A failure of any other kind has its report on the standard error. -/
theorem Failure.report_of_ne_tooDeep {f : Failure} (h : f ≠ .tooDeep) :
    ∃ front ∈ ["Syntax error: ", "Error: "],
      f.report = { stderr := front ++ f.message ++ "\n", ending := .exit 1 } := by
  cases f with
  | tooDeep => exact absurd rfl h
  | unparsable report => exact ⟨"Syntax error: ", by simp, rfl⟩
  | notWhileFile => exact ⟨"Error: ", by simp, rfl⟩
  | file path fault => exact ⟨"Error: ", by simp, rfl⟩
  | undecodable fault => exact ⟨"Error: ", by simp, rfl⟩
  | tooManyDigits => exact ⟨"Error: ", by simp, rfl⟩
  | unprintable report => exact ⟨"Error: ", by simp, rfl⟩

/--
**How a run ends.** On any files, any arguments and any standard output, a run that meets no tree of
too many levels ends with status 0 and nothing on the standard error, or with status 1, nothing on
the standard output and one report, or with status 2, nothing on the standard output and the usage
line with a message. A run that does meet one leaves nothing on either and ends without a report.
-/
theorem runProgram_ending (disk : Disk (StateM σ)) (console : Console) (args : List String)
    (files : σ) :
    (¬ MeetsDeepTree disk args files ∧
      ((∃ out, ((runProgram disk args console).run files).1
        = { stdout := out, ending := .exit 0 }) ∨
      (∃ front ∈ ["Syntax error: ", "Error: "], ∃ message,
        ((runProgram disk args console).run files).1
          = { stderr := front ++ message ++ "\n", ending := .exit 1 }) ∨
      (∃ message, ((runProgram disk args console).run files).1
        = { stderr := usageLine ++ "whilelang: error: " ++ message ++ "\n",
            ending := .exit 2 }))) ∨
    (MeetsDeepTree disk args files ∧
      ((runProgram disk args console).run files).1 = { ending := .unreported .tooDeep }) := by
  by_cases hdeep : MeetsDeepTree disk args files
  · obtain ⟨r, source, p, hargs, htokens, hp⟩ := id hdeep
    refine .inr ⟨hdeep, ?_⟩
    rw [run_runProgram_of_ok disk files console hargs,
      (run_request_eq_tooDeep_iff disk r files console).mpr ⟨htokens, source, p, hp⟩]
    rfl
  · refine .inl ⟨hdeep, ?_⟩
    cases hargs : readArguments args with
    | error stop =>
      rw [run_runProgram_of_error disk files console hargs]
      cases stop with
      | help => exact .inl ⟨helpText, rfl⟩
      | misuse m => exact .inr (.inr ⟨m.message, rfl⟩)
    | ok r =>
      rw [run_runProgram_of_ok disk files console hargs]
      have hne : ((r.run disk console).run files).1 ≠ .error .tooDeep := by
        intro h
        obtain ⟨htokens, source, p, hp⟩ := (run_request_eq_tooDeep_iff disk r files console).mp h
        exact hdeep ⟨r, source, p, hargs, htokens, hp⟩
      cases hresult : ((r.run disk console).run files).1 with
      | ok out => exact .inl ⟨out, rfl⟩
      | error f =>
        have hf : f ≠ .tooDeep := by
          rintro rfl
          exact hne hresult
        obtain ⟨front, hfront, hreport⟩ := Failure.report_of_ne_tooDeep hf
        exact .inr (.inl ⟨front, hfront, f.message, hreport⟩)

/-! ## Program text as an argument -/

/-- Program text that starts with no dash is taken as it is. -/
theorem readArguments_text {text : String} {c : Char} {cs : List Char}
    (htext : text.toList = c :: cs) (hc : c ≠ '-') :
    readArguments ["-s", text] = .ok { source := text, isText := true } := by
  have hplain : IsPlain text := by
    rw [IsPlain, htext]
    exact fun h => hc (Option.some.inj h)
  have hletters : AreLetters ['s'] [.string] := .cons rfl (by decide) .nil
  have hcall : IsCall ["-s", text] [.flag .string] text :=
    .among (.cons (.letters hletters (by decide)) .nil) hplain .nil
  rw [readArguments_of_isCall hcall]
  rfl

theorem run_load_text (disk : Disk (StateM σ)) (text : String) (files : σ) :
    ((Request.load disk { source := text, isText := true }).run files).1 = .ok text := by
  rw [run_load]
  rfl

/-- A sum of ones is read however long it is, and its tree is not written if it is too long. -/
theorem runProgram_assignOnes (disk : Disk (StateM σ)) (console : Console) (files : σ) {n : Nat}
    (hn : levelLimit ≤ n) :
    ((runProgram disk ["-s", (Program.assignOnes n).render] console).run files).1
      = { ending := .unreported .tooDeep } := by
  have hfirst : (Program.assignOnes n).render.toList
      = 'x' :: (" := ".toList ++ ((Arith.ones n).source 0 ++ [';'])) := by
    rw [Program.render, String.toList_ofList]
    rfl
  have hlevels : levelLimit < (Program.assignOnes n).toNode.levels := by
    rw [levels_assignOnes]
    omega
  rw [run_runProgram_of_ok disk files console (readArguments_text hfirst (by decide)),
    (run_request_eq_tooDeep_iff disk _ files console).mpr ⟨rfl, _, _, run_load_text disk _ files,
      parse_assignOnes n, hlevels⟩]
  rfl

/-- With three thousand operators, the run has no exit status. -/
theorem runProgram_ones_unreported :
    ((runProgram Folder.disk ["-s", (Program.assignOnes 3000).render]).run {}).1.ending
      = .unreported .tooDeep := by
  rw [runProgram_assignOnes Folder.disk .lenient {} (by decide)]

end CommandLine

end WhileFrontend
