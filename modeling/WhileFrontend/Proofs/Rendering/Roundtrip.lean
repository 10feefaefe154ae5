import WhileFrontend.Proofs.Parsing.Exactness
import WhileFrontend.Proofs.Rendering.Derivation
import WhileFrontend.Proofs.Rendering.Image
import WhileFrontend.Proofs.Tree.Kinds

/-!
# Rendering and parsing

Parsing undoes rendering on every expressible tree (`parse_render`), and whatever is parsed from a
text is such a tree, so that rendering it gives a normal form of the text: one with the same tree
and no deeper nesting (`parse_normalizes`).
-/

namespace WhileFrontend

/-- The tokens of a tree that is not nested too deeply are parsed. -/
theorem Program.parseTokens_tokens {p : Program} (hp : p.Expressible)
    (hd : p.nesting ≤ nestingLimit) : parseTokens p.tokens = .ok p := by
  have hderives := (Program.derives_tokens_iff hp).mpr hd
  rw [parseTokens_eq_ok_iff, hderives.noEnd.beforeEnd_eq]
  exact hderives

/--
**Parsing undoes rendering.** The text of an expressible program is parsed to that program, if it is
not nested too deeply.
-/
theorem parse_render {p : Program} (hp : p.Expressible) (hd : p.nesting ≤ nestingLimit) :
    parse p.render = .ok p := by
  rw [parse, Program.tokenize_render hp]
  exact Program.parseTokens_tokens hp hd

/-- A loop in which parentheses stand around a right operand, a sum in a product and the operand of
`not`. -/
theorem parse_render_loop :
    parse "while not (x < 1 and true) do x := 2 * (y - (3 - z)); skip; done"
      = .ok (.last (.whileDo
          (.negation (.binary .and (.compare .lt (.var "x") (.const 1)) (.truth true)))
          (.seq (.assign "x" (.binary .mul (.const 2)
            (.binary .sub (.var "y") (.binary .sub (.const 3) (.var "z"))))) (.last .skip)))) :=
  parse_render (p := .last (.whileDo
    (.negation (.binary .and (.compare .lt (.var "x") (.const 1)) (.truth true)))
    (.seq (.assign "x" (.binary .mul (.const 2)
      (.binary .sub (.var "y") (.binary .sub (.const 3) (.var "z"))))) (.last .skip))))
    (by decide +kernel) (by decide)

/-- What a text is parsed to is derived from its tokens. -/
theorem derives_of_parse {s : String} {p : Program} (h : parse s = .ok p) :
    DerivesProgram nestingLimit (tokenize s) p := by
  have hend : NoEnd (tokenize s) := kind_ne_of_mem_tokenize
  rw [parse, parseTokens_eq_ok_iff, hend.beforeEnd_eq] at h
  exact h

/--
**Parsing gives normal forms.** What is parsed from a text has the right kinds of children
throughout and is expressible. Its own text is parsed to it again, and is nested no more deeply than
the first text.
-/
theorem parse_normalizes {s : String} {p : Program} (h : parse s = .ok p) :
    p.toNode.IsProgram ∧ p.Expressible ∧
    (∀ d, DerivesProgram d (tokenize s) p → DerivesProgram d (tokenize p.render) p) ∧
    parse p.render = .ok p := by
  have hderives := derives_of_parse h
  have hp : p.Expressible := hderives.expressible isLexical_of_mem_tokenize
  refine ⟨p.isProgram_toNode, hp, ?_, ?_⟩
  · intro d hd
    rw [Program.tokenize_render hp, Program.derives_tokens_iff hp]
    exact hd.nesting_le
  · rw [parse, Program.tokenize_render hp]
    exact Program.parseTokens_tokens hp hderives.nesting_le

/-- Parentheses that are not needed, leading zeros and blanks are left out of the text. -/
theorem parse_normalizes_assign :
    parse "x:=((a)+ 007)\t;" = .ok (.last (.assign "x" (.binary .add (.var "a") (.const 7)))) ∧
    parse "x := a + 7;" = .ok (.last (.assign "x" (.binary .add (.var "a") (.const 7)))) := by
  have h : parse "x:=((a)+ 007)\t;"
      = .ok (.last (.assign "x" (.binary .add (.var "a") (.const 7)))) := by
    decide +kernel
  exact ⟨h, (parse_normalizes h).2.2.2⟩

end WhileFrontend
