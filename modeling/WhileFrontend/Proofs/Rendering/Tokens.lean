import WhileFrontend.Proofs.Rendering.Words

/-!
# The tokens of a rendered program

`tokens` gives for each tree the tokens that its text is made of, following the text
(`Arith.source` and its companions) branch by branch, and `spells` shows that lexing the text of an
expressible tree finds just these. What is shown of rendered programs after that is shown of token
lists.
-/

namespace WhileFrontend

open Text Lexer

/-! ## Tokens of trees -/

/-- The token of an arithmetic operator. -/
def ArithOp.token : ArithOp → Token
  | add => .symbol .plus
  | sub => .symbol .minus
  | mul => .symbol .times
  | intDiv => .keyword .divKw
  | mod => .keyword .modKw

/-- The token of a connective. -/
def BoolOp.token : BoolOp → Token
  | and => .keyword .andKw
  | or => .keyword .orKw

/-- The token of a comparison. -/
def RelOp.token : RelOp → Token
  | eq => .symbol .eq
  | neq => .symbol .neq
  | lt => .symbol .lt
  | leq => .symbol .leq
  | gt => .symbol .gt
  | geq => .symbol .geq

/-- Tokens in parentheses where their text is. -/
def grouped (opLevel level : Nat) (ts : List Token) : List Token :=
  if opLevel < level then .symbol .lparen :: (ts ++ [.symbol .rparen]) else ts

/-- The tokens of an arithmetic expression at a place that admits operators from `level` on. -/
def Arith.tokens (level : Nat) : Arith → List Token
  | const n => [⟨.number, some (.int n)⟩]
  | var x => [⟨.ident, some (.text x)⟩]
  | binary op l r =>
    grouped op.level level (l.tokens op.level ++ op.token :: r.tokens (op.level + 1))

/-- The tokens of a condition at a place that admits connectives from `level` on. -/
def Cond.tokens (level : Nat) : Cond → List Token
  | truth true => [.keyword .trueKw]
  | truth false => [.keyword .falseKw]
  | negation c => .keyword .notKw :: c.tokens 3
  | compare op l r => l.tokens 0 ++ op.token :: r.tokens 0
  | binary op l r =>
    grouped op.level level (l.tokens op.level ++ op.token :: r.tokens (op.level + 1))

mutual

/-- The tokens of a statement. -/
def Stmt.tokens : Stmt → List Token
  | .assign x e =>
    ⟨.ident, some (.text x)⟩ :: .symbol .assign :: (e.tokens 0 ++ [.symbol .semicolon])
  | .skip => [.keyword .skipKw, .symbol .semicolon]
  | .whileDo c body =>
    .keyword .whileKw :: (c.tokens 0 ++ .keyword .doKw :: (body.tokens ++ [.keyword .doneKw]))
  | .ifThen c t =>
    .keyword .ifKw :: (c.tokens 0 ++ .keyword .thenKw :: (t.tokens ++ [.keyword .fiKw]))
  | .ifElse c t e =>
    .keyword .ifKw :: (c.tokens 0 ++ .keyword .thenKw :: (t.tokens ++
      .keyword .elseKw :: (e.tokens ++ [.keyword .fiKw])))

/-- The tokens of a program. -/
def Program.tokens : Program → List Token
  | .last s => s.tokens
  | .seq s rest => s.tokens ++ rest.tokens

end

/-! ## Operators between their operands -/

theorem ArithOp.tokens_spelling (op : ArithOp) (rest : List Char) :
    Lexer.tokens (op.spelling.toList ++ ' ' :: rest) = op.token :: Lexer.tokens rest :=
  match op with
  | add => tokens_symbol_blank .plus rest
  | sub => tokens_symbol_blank .minus rest
  | mul => tokens_symbol_blank .times rest
  | intDiv => (spells_keyword .divKw).blank rest
  | mod => (spells_keyword .modKw).blank rest

theorem BoolOp.tokens_spelling (op : BoolOp) (rest : List Char) :
    Lexer.tokens (op.spelling.toList ++ ' ' :: rest) = op.token :: Lexer.tokens rest :=
  match op with
  | and => (spells_keyword .andKw).blank rest
  | or => (spells_keyword .orKw).blank rest

theorem RelOp.tokens_spelling (op : RelOp) (rest : List Char) :
    Lexer.tokens (op.spelling.toList ++ ' ' :: rest) = op.token :: Lexer.tokens rest :=
  match op with
  | eq => tokens_symbol_blank .eq rest
  | neq => tokens_symbol_blank .neq rest
  | lt => tokens_symbol_blank .lt rest
  | leq => tokens_symbol_blank .leq rest
  | gt => tokens_symbol_blank .gt rest
  | geq => tokens_symbol_blank .geq rest

namespace Lexer.Spells

variable {cs ds : List Char} {ts us : List Token}

theorem infixed {op : String} {t : Token}
    (hop : ∀ rest, Lexer.tokens (op.toList ++ ' ' :: rest) = t :: Lexer.tokens rest)
    (hl : Spells cs ts) (hr : Spells ds us) : Spells (infixed cs op ds) (ts ++ t :: us) := by
  intro rest hrest
  have htext : WhileFrontend.infixed cs op ds ++ rest
      = cs ++ ' ' :: (op.toList ++ ' ' :: (ds ++ rest)) := by
    simp [WhileFrontend.infixed]
  rw [htext, hl.blank, hop, hr rest hrest, List.append_assoc, List.cons_append]

theorem parenthesized (h : Spells cs ts) (opLevel level : Nat) :
    Spells (parenthesized opLevel level cs) (grouped opLevel level ts) := by
  unfold WhileFrontend.parenthesized grouped
  split
  · exact h.inParens
  · exact h

end Lexer.Spells

/-! ## Texts of trees -/

theorem Arith.spells {e : Arith} (h : e.Expressible) (level : Nat) :
    Spells (e.source level) (e.tokens level) := by
  induction e generalizing level with
  | const n => exact spells_numeral h
  | var x => exact spells_name h
  | binary op l r ihl ihr =>
    obtain ⟨hl, hr⟩ := h
    exact (Spells.infixed op.tokens_spelling (ihl hl _) (ihr hr _)).parenthesized op.level level

theorem Cond.spells {c : Cond} (h : c.Expressible) (level : Nat) :
    Spells (c.source level) (c.tokens level) := by
  induction c generalizing level with
  | truth b =>
    cases b with
    | true => exact spells_keyword .trueKw
    | false => exact spells_keyword .falseKw
  | negation c ih => exact (spells_keyword .notKw).append (ih h 3)
  | compare op l r =>
    obtain ⟨hl, -, hr⟩ := h
    exact Spells.infixed op.tokens_spelling (Arith.spells hl 0) (Arith.spells hr 0)
  | binary op l r ihl ihr =>
    obtain ⟨hl, hr⟩ := h
    exact (Spells.infixed op.tokens_spelling (ihl hl _) (ihr hr _)).parenthesized op.level level

mutual

theorem Stmt.spells {s : Stmt} (h : s.Expressible) : Spells s.source s.tokens := by
  match s with
  | .assign x e =>
    obtain ⟨hx, he⟩ := h
    have hassign : ∀ rest, Lexer.tokens (":=".toList ++ ' ' :: rest)
        = .symbol .assign :: Lexer.tokens rest := tokens_symbol_blank .assign
    exact Spells.infixed hassign (spells_name hx) (Arith.spells he 0).ended
  | .skip => exact (spells_keyword .skipKw).ended
  | .whileDo c body =>
    obtain ⟨hc, hbody⟩ := h
    have hdone := (Program.spells hbody).append (spells_keyword .doneKw)
    have hdo := (Cond.spells hc 0).append ((spells_keyword .doKw).append hdone)
    exact (spells_keyword .whileKw).append hdo
  | .ifThen c t =>
    obtain ⟨hc, ht⟩ := h
    have hfi := (Program.spells ht).append (spells_keyword .fiKw)
    have hthen := (Cond.spells hc 0).append ((spells_keyword .thenKw).append hfi)
    exact (spells_keyword .ifKw).append hthen
  | .ifElse c t e =>
    obtain ⟨hc, ht, he⟩ := h
    have hfi := (Program.spells he).append (spells_keyword .fiKw)
    have helse := (Program.spells ht).append ((spells_keyword .elseKw).append hfi)
    have hthen := (Cond.spells hc 0).append ((spells_keyword .thenKw).append helse)
    exact (spells_keyword .ifKw).append hthen

theorem Program.spells {p : Program} (h : p.Expressible) : Spells p.source p.tokens := by
  match p with
  | .last s => exact Stmt.spells h
  | .seq s rest =>
    obtain ⟨hs, hrest⟩ := h
    exact (Stmt.spells hs).append (Program.spells hrest)

end

/-- The tokens of an expressible program's text are those of the program. -/
theorem Program.tokenize_render {p : Program} (h : p.Expressible) :
    tokenize p.render = p.tokens := by
  rw [tokenize, render, String.toList_ofList]
  exact (Program.spells h).tokens_eq

end WhileFrontend
