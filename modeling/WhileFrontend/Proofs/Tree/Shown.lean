import WhileFrontend.Proofs.Json.Faithful
import WhileFrontend.Proofs.Text.Quoted
import WhileFrontend.Tree.Shown

/-!
# The shown form of a tree determines it

A node that can be written has a shown form, and two such nodes are the same if and only if their
shown forms are (`Node.shown_determines`).

`Node.spell` puts the characters of a shown form in front of others. Whatever those are, the node
can be told from the whole and so can they (`Node.spell_inj`): a class name ends at the first
parenthesis, an integer at the first closing one, a quoted text at its closing quote. After its
statements a program ends with a comma and a parenthesis where it has one, and with a parenthesis
alone where it has more, while a comma before another statement is followed by a space. In the place
of the `else` branch, `None` is no class name with a parenthesis behind it.
-/

namespace WhileFrontend

open Text

/-! ## Class names -/

/-- The classes under which nodes are shown. -/
inductive ClassName where
  | program | assign | skip | ifThenElse | whileDo | const | var | arith
  | truth (value : Bool)
  | negation | bool | compare
  deriving DecidableEq

namespace ClassName

/-- Every class. -/
def all : List ClassName :=
  [program, assign, skip, ifThenElse, whileDo, const, var, arith, truth true, truth false, negation,
   bool, compare]

/-- The class as it is shown. -/
def text : ClassName → String
  | program => "Program"
  | assign => "Assign"
  | skip => "Skip"
  | ifThenElse => "If"
  | whileDo => "While"
  | const => "Constant"
  | var => "Variable"
  | arith => "BinaryArith"
  | truth true => "TrueConst"
  | truth false => "FalseConst"
  | negation => "Not"
  | bool => "BinaryBool"
  | compare => "Relational"

/-- The class that is shown as a given text. -/
def ofText? (s : String) : Option ClassName :=
  all.find? fun c => c.text = s

theorem ofText?_text (c : ClassName) : ofText? c.text = some c := by
  rcases c with _ | _ | _ | _ | _ | _ | _ | _ | (_ | _) | _ | _ | _ <;> decide

theorem notMem_text (c : ClassName) : '(' ∉ c.text.toList := by
  rcases c with _ | _ | _ | _ | _ | _ | _ | _ | (_ | _) | _ | _ | _ <;> decide

/-- A class name with the parenthesis behind it. -/
def spell (c : ClassName) (rest : List Char) : List Char :=
  c.text.toList ++ '(' :: rest

theorem spell_inj {c d : ClassName} {r s : List Char} (h : c.spell r = d.spell s) :
    c = d ∧ r = s := by
  obtain ⟨htext, hrest⟩ := append_cons_inj c.notMem_text d.notMem_text h
  have hc := c.ofText?_text
  rw [String.toList_inj.mp htext, ofText?_text] at hc
  exact ⟨(Option.some.inj hc).symm, hrest⟩

/-- No class is shown as `None` is. -/
theorem spell_ne_none (c : ClassName) (r s : List Char) : c.spell r ≠ "None)".toList ++ s := by
  intro h
  rcases c with _ | _ | _ | _ | _ | _ | _ | _ | (_ | _) | _ | _ | _ <;> simp [spell, text] at h

end ClassName

/-- The name of a field. -/
def spellField (name : String) (rest : List Char) : List Char :=
  name.toList ++ '=' :: rest

theorem spellField_inj {name : String} {r s : List Char}
    (h : spellField name r = spellField name s) : r = s :=
  (List.cons.inj (List.append_cancel_left h)).2

/-! ## Operators and integers -/

theorem shownOperator_append_inj {family member member' spelling spelling' : String}
    {r s : List Char} (hm : ':' ∉ member.toList) (hm' : ':' ∉ member'.toList)
    (h : (shownOperator family member spelling).toList ++ r
      = (shownOperator family member' spelling').toList ++ s) : spelling = spelling' ∧ r = s := by
  have hcolon : ": ".toList = [':', ' '] := rfl
  simp only [shownOperator, String.toList_append, List.append_assoc, hcolon, quote,
    String.toList_ofList] at h
  have hmember := List.append_cancel_left (List.append_cancel_left (List.append_cancel_left h))
  obtain ⟨-, hspace⟩ := append_cons_inj hm hm' hmember
  obtain ⟨hspelling, hclose⟩ := quoteChars_append_inj (List.cons.inj hspace).2
  exact ⟨String.toList_inj.mp hspelling, List.append_cancel_left hclose⟩

/-- An operator is told from what follows it, because its spelling can be looked up. -/
theorem shownOperator_inj {α : Type} {family : String} {name spelling : α → String}
    {ofSpelling? : String → Option α} (hname : ∀ op, ':' ∉ (name op).toList)
    (hspelling : ∀ op, ofSpelling? (spelling op) = some op) {op op' : α} {r s : List Char}
    (h : (shownOperator family (name op) (spelling op)).toList ++ r
      = (shownOperator family (name op') (spelling op')).toList ++ s) : op = op' ∧ r = s := by
  obtain ⟨heq, hrest⟩ := shownOperator_append_inj (hname op) (hname op') h
  have hop := hspelling op
  rw [heq, hspelling] at hop
  exact ⟨(Option.some.inj hop).symm, hrest⟩

theorem ArithOp.notMem_name (op : ArithOp) : ':' ∉ op.name.toList := by
  cases op <;> decide

theorem BoolOp.notMem_name (op : BoolOp) : ':' ∉ op.name.toList := by
  cases op <;> decide

theorem RelOp.notMem_name (op : RelOp) : ':' ∉ op.name.toList := by
  cases op <;> decide

theorem isSome_digit?_of_isNumeral {cs : List Char} {n : Nat} (h : Json.IsNumeral cs n) :
    ∀ c ∈ cs, (Json.digit? c).isSome = true := by
  induction h with
  | digit value => simp [value]
  | append front positive value ih =>
    intro c hc
    rcases List.mem_append.mp hc with hfront | hlast
    · exact ih c hfront
    · rw [List.mem_singleton.mp hlast, value]
      rfl

/-- An integer is written with digits, and perhaps a minus sign. -/
theorem digit_of_mem_toString (n : Int) :
    ∀ c ∈ (toString n).toList, c = '-' ∨ (Json.digit? c).isSome = true := by
  have hinteger := Json.isInteger_toString n
  generalize (toString n).toList = cs at hinteger
  intro c hc
  cases hinteger with
  | numeral digits => exact .inr (isSome_digit?_of_isNumeral digits c hc)
  | negative digits =>
    rcases List.mem_cons.mp hc with hminus | hdigit
    · exact .inl hminus
    · exact .inr (isSome_digit?_of_isNumeral digits c hdigit)

theorem notMem_toString (n : Int) : ')' ∉ (toString n).toList := by
  intro h
  rcases digit_of_mem_toString n _ h with hminus | hdigit
  · cases hminus
  · cases hdigit

/-- The numeral of an integer is a JSON text, and those have one value. -/
theorem toString_injective {m n : Int} (h : (toString m).toList = (toString n).toList) : m = n := by
  have helement : ∀ k : Int, Json.IsElement (toString k).toList (.int k) := by
    intro k
    have hspaced := Json.IsElement.spaced Json.isGap_nil (.int (Json.isInteger_toString k))
      Json.isGap_nil
    rwa [List.append_nil, List.nil_append] at hspaced
  have hm := helement m
  rw [h] at hm
  exact Json.int.inj (hm.unique (helement n))

/-- An integer is told from a closing parenthesis behind it. -/
theorem toString_append_inj {m n : Int} {r s : List Char}
    (h : (toString m).toList ++ ')' :: r = (toString n).toList ++ ')' :: s) : m = n ∧ r = s := by
  obtain ⟨htext, hrest⟩ := append_cons_inj (notMem_toString m) (notMem_toString n) h
  exact ⟨toString_injective htext, hrest⟩

/-! ## Nodes -/

/-- The class under which a node is shown. -/
def Node.className : Node → ClassName
  | .program _ => .program
  | .assign _ _ => .assign
  | .skip => .skip
  | .ifThen _ _ => .ifThenElse
  | .ifElse _ _ _ => .ifThenElse
  | .whileDo _ _ => .whileDo
  | .const _ => .const
  | .var _ => .var
  | .arith _ _ _ => .arith
  | .truth b => .truth b
  | .negation _ => .negation
  | .bool _ _ _ => .bool
  | .compare _ _ _ => .compare

mutual

/-- The characters of the shown form of a node in front of others. -/
def Node.spell : Node → List Char → List Char
  | .program ns, rest =>
    ClassName.program.spell (spellField "statements" ('(' :: ns.spell (')' :: rest)))
  | .assign x e, rest =>
    ClassName.assign.spell (spellField "variable" (quoteChars x.toList ++
      spellField ", expr" (e.spell (')' :: rest))))
  | .skip, rest => ClassName.skip.spell (')' :: rest)
  | .ifThen c t, rest =>
    ClassName.ifThenElse.spell (spellField "cond" (c.spell (spellField ", then_branch" (t.spell
      (spellField ", else_branch" ("None)".toList ++ rest))))))
  | .ifElse c t e, rest =>
    ClassName.ifThenElse.spell (spellField "cond" (c.spell (spellField ", then_branch" (t.spell
      (spellField ", else_branch" (e.spell (')' :: rest)))))))
  | .whileDo c b, rest =>
    ClassName.whileDo.spell (spellField "cond" (c.spell (spellField ", body" (b.spell
      (')' :: rest)))))
  | .const n, rest =>
    ClassName.const.spell (spellField "value" ((toString n).toList ++ ')' :: rest))
  | .var x, rest => ClassName.var.spell (spellField "name" (quoteChars x.toList ++ ')' :: rest))
  | .arith op l r, rest =>
    ClassName.arith.spell (spellField "op" ((shownOperator "ArithOp" op.name op.spelling).toList ++
      spellField ", left" (l.spell (spellField ", right" (r.spell (')' :: rest))))))
  | .truth b, rest => (ClassName.truth b).spell (')' :: rest)
  | .negation c, rest =>
    ClassName.negation.spell (spellField "operand" (c.spell (')' :: rest)))
  | .bool op l r, rest =>
    ClassName.bool.spell (spellField "op" ((shownOperator "BoolOp" op.name op.spelling).toList ++
      spellField ", left" (l.spell (spellField ", right" (r.spell (')' :: rest))))))
  | .compare op l r, rest =>
    ClassName.compare.spell (spellField "op" ((shownOperator "RelOp" op.name op.spelling).toList ++
      spellField ", left" (l.spell (spellField ", right" (r.spell (')' :: rest))))))

/-- The characters of the statements of a program and of the parenthesis behind them. -/
def Nodes.spell : Nodes → List Char → List Char
  | .last n, rest => n.spell (',' :: ')' :: rest)
  | .seq n others, rest => n.spell (others.spellAfter rest)

/-- The same behind other statements. -/
def Nodes.spellAfter : Nodes → List Char → List Char
  | .last n, rest => ',' :: ' ' :: n.spell (')' :: rest)
  | .seq n others, rest => ',' :: ' ' :: n.spell (others.spellAfter rest)

end

theorem Node.exists_spell_eq (n : Node) (rest : List Char) :
    ∃ inside, n.spell rest = n.className.spell inside := by
  cases n <;> exact ⟨_, by rw [Node.spell, className]⟩

/-- A node's class is told from what stands in front. -/
theorem Node.className_eq_of_spell {n m : Node} {r s : List Char} (h : n.spell r = m.spell s) :
    n.className = m.className := by
  obtain ⟨us, hn⟩ := n.exists_spell_eq r
  obtain ⟨vs, hm⟩ := m.exists_spell_eq s
  rw [hn, hm] at h
  exact (ClassName.spell_inj h).1

theorem Node.spell_ne_none (n : Node) (r s : List Char) : n.spell r ≠ "None)".toList ++ s := by
  obtain ⟨us, hn⟩ := n.exists_spell_eq r
  rw [hn]
  exact n.className.spell_ne_none us s

/-- The condition and the first branch of a conditional are told from the second, if each is told
from what follows it. -/
theorem Node.branches_inj {c c' t t' : Node} {r s : List Char}
    (hc : ∀ {us vs}, c.spell us = c'.spell vs → c = c' ∧ us = vs)
    (ht : ∀ {us vs}, t.spell us = t'.spell vs → t = t' ∧ us = vs)
    (h : spellField "cond" (c.spell (spellField ", then_branch" (t.spell
        (spellField ", else_branch" r))))
      = spellField "cond" (c'.spell (spellField ", then_branch" (t'.spell
        (spellField ", else_branch" s))))) : c = c' ∧ t = t' ∧ r = s := by
  obtain ⟨rfl, hthen⟩ := hc (spellField_inj h)
  obtain ⟨rfl, helse⟩ := ht (spellField_inj hthen)
  exact ⟨rfl, rfl, spellField_inj helse⟩

/-- The operands of an operator are told from each other, if each is told from what follows it. -/
theorem Node.operands_inj {a a' b b' : Node} {r s : List Char}
    (ha : ∀ {us vs}, a.spell us = a'.spell vs → a = a' ∧ us = vs)
    (hb : ∀ {us vs}, b.spell us = b'.spell vs → b = b' ∧ us = vs)
    (h : spellField ", left" (a.spell (spellField ", right" (b.spell (')' :: r))))
      = spellField ", left" (a'.spell (spellField ", right" (b'.spell (')' :: s))))) :
    a = a' ∧ b = b' ∧ r = s := by
  obtain ⟨rfl, hright⟩ := ha (spellField_inj h)
  obtain ⟨rfl, hclose⟩ := hb (spellField_inj hright)
  exact ⟨rfl, rfl, (List.cons.inj hclose).2⟩

theorem Nodes.exists_spellAfter_eq (ns : Nodes) (rest : List Char) :
    ∃ us, ns.spellAfter rest = ',' :: ' ' :: us := by
  cases ns <;> exact ⟨_, by rw [spellAfter]⟩

mutual

/-- **A node is told from what follows it.** -/
theorem Node.spell_inj {n m : Node} {r s : List Char} (h : n.spell r = m.spell s) :
    n = m ∧ r = s := by
  have hclass := Node.className_eq_of_spell h
  cases n with
  | program ns =>
    cases m with
    | program ms =>
      rw [Node.spell, Node.spell] at h
      have hinside := spellField_inj (ClassName.spell_inj h).2
      obtain ⟨rfl, hclose⟩ := ns.spell_inj (List.cons.inj hinside).2
      exact ⟨rfl, (List.cons.inj hclose).2⟩
    | _ => cases hclass
  | assign x e =>
    cases m with
    | assign y f =>
      rw [Node.spell, Node.spell] at h
      obtain ⟨hx, hexpr⟩ := quoteChars_append_inj (spellField_inj (ClassName.spell_inj h).2)
      obtain ⟨rfl, hclose⟩ := e.spell_inj (spellField_inj hexpr)
      exact ⟨by rw [String.toList_inj.mp hx], (List.cons.inj hclose).2⟩
    | _ => cases hclass
  | skip =>
    cases m with
    | skip =>
      rw [Node.spell, Node.spell] at h
      exact ⟨rfl, (List.cons.inj (ClassName.spell_inj h).2).2⟩
    | _ => cases hclass
  | ifThen c t =>
    cases m with
    | ifThen c' t' =>
      rw [Node.spell, Node.spell] at h
      obtain ⟨rfl, rfl, helse⟩ := Node.branches_inj c.spell_inj t.spell_inj
        (ClassName.spell_inj h).2
      exact ⟨rfl, List.append_cancel_left helse⟩
    | ifElse c' t' e' =>
      -- the two forms of a conditional share their class, so the last field has to decide
      rw [Node.spell, Node.spell] at h
      obtain ⟨rfl, rfl, helse⟩ := Node.branches_inj c.spell_inj t.spell_inj
        (ClassName.spell_inj h).2
      exact absurd helse.symm (e'.spell_ne_none _ _)
    | _ => cases hclass
  | ifElse c t e =>
    cases m with
    | ifThen c' t' =>
      rw [Node.spell, Node.spell] at h
      obtain ⟨rfl, rfl, helse⟩ := Node.branches_inj c.spell_inj t.spell_inj
        (ClassName.spell_inj h).2
      exact absurd helse (e.spell_ne_none _ _)
    | ifElse c' t' e' =>
      rw [Node.spell, Node.spell] at h
      obtain ⟨rfl, rfl, helse⟩ := Node.branches_inj c.spell_inj t.spell_inj
        (ClassName.spell_inj h).2
      obtain ⟨rfl, hclose⟩ := e.spell_inj helse
      exact ⟨rfl, (List.cons.inj hclose).2⟩
    | _ => cases hclass
  | whileDo c b =>
    cases m with
    | whileDo c' b' =>
      rw [Node.spell, Node.spell] at h
      obtain ⟨rfl, hbody⟩ := c.spell_inj (spellField_inj (ClassName.spell_inj h).2)
      obtain ⟨rfl, hclose⟩ := b.spell_inj (spellField_inj hbody)
      exact ⟨rfl, (List.cons.inj hclose).2⟩
    | _ => cases hclass
  | const k =>
    cases m with
    | const k' =>
      rw [Node.spell, Node.spell] at h
      obtain ⟨rfl, hrest⟩ := toString_append_inj (spellField_inj (ClassName.spell_inj h).2)
      exact ⟨rfl, hrest⟩
    | _ => cases hclass
  | var x =>
    cases m with
    | var y =>
      rw [Node.spell, Node.spell] at h
      obtain ⟨hx, hclose⟩ := quoteChars_append_inj (spellField_inj (ClassName.spell_inj h).2)
      exact ⟨by rw [String.toList_inj.mp hx], (List.cons.inj hclose).2⟩
    | _ => cases hclass
  | arith op left right =>
    cases m with
    | arith op' left' right' =>
      rw [Node.spell, Node.spell] at h
      obtain ⟨rfl, hoperands⟩ := shownOperator_inj ArithOp.notMem_name ArithOp.ofSpelling?_spelling
        (spellField_inj (ClassName.spell_inj h).2)
      obtain ⟨rfl, rfl, hrest⟩ := Node.operands_inj left.spell_inj right.spell_inj hoperands
      exact ⟨rfl, hrest⟩
    | _ => cases hclass
  | truth b =>
    cases m with
    | truth b' =>
      rw [Node.spell, Node.spell] at h
      obtain ⟨hb, hclose⟩ := ClassName.spell_inj h
      exact ⟨by rw [ClassName.truth.inj hb], (List.cons.inj hclose).2⟩
    | _ => cases hclass
  | negation c =>
    cases m with
    | negation c' =>
      rw [Node.spell, Node.spell] at h
      obtain ⟨rfl, hclose⟩ := c.spell_inj (spellField_inj (ClassName.spell_inj h).2)
      exact ⟨rfl, (List.cons.inj hclose).2⟩
    | _ => cases hclass
  | bool op left right =>
    cases m with
    | bool op' left' right' =>
      rw [Node.spell, Node.spell] at h
      obtain ⟨rfl, hoperands⟩ := shownOperator_inj BoolOp.notMem_name BoolOp.ofSpelling?_spelling
        (spellField_inj (ClassName.spell_inj h).2)
      obtain ⟨rfl, rfl, hrest⟩ := Node.operands_inj left.spell_inj right.spell_inj hoperands
      exact ⟨rfl, hrest⟩
    | _ => cases hclass
  | compare op left right =>
    cases m with
    | compare op' left' right' =>
      rw [Node.spell, Node.spell] at h
      obtain ⟨rfl, hoperands⟩ := shownOperator_inj RelOp.notMem_name RelOp.ofSpelling?_spelling
        (spellField_inj (ClassName.spell_inj h).2)
      obtain ⟨rfl, rfl, hrest⟩ := Node.operands_inj left.spell_inj right.spell_inj hoperands
      exact ⟨rfl, hrest⟩
    | _ => cases hclass

/-- A single statement is followed by a comma and a parenthesis, others by a comma and a space. -/
theorem Nodes.spell_inj {ns ms : Nodes} {r s : List Char} (h : ns.spell r = ms.spell s) :
    ns = ms ∧ r = s := by
  cases ns with
  | last n =>
    cases ms with
    | last m =>
      rw [Nodes.spell, Nodes.spell] at h
      obtain ⟨rfl, hclose⟩ := n.spell_inj h
      exact ⟨rfl, (List.cons.inj (List.cons.inj hclose).2).2⟩
    | seq m ms =>
      rw [Nodes.spell, Nodes.spell] at h
      obtain ⟨us, hus⟩ := ms.exists_spellAfter_eq s
      obtain ⟨-, hclose⟩ := n.spell_inj h
      rw [hus] at hclose
      cases (List.cons.inj (List.cons.inj hclose).2).1
  | seq n ns =>
    cases ms with
    | last m =>
      rw [Nodes.spell, Nodes.spell] at h
      obtain ⟨us, hus⟩ := ns.exists_spellAfter_eq r
      obtain ⟨-, hclose⟩ := n.spell_inj h
      rw [hus] at hclose
      cases (List.cons.inj (List.cons.inj hclose).2).1
    | seq m ms =>
      rw [Nodes.spell, Nodes.spell] at h
      obtain ⟨rfl, hothers⟩ := n.spell_inj h
      obtain ⟨rfl, hrest⟩ := ns.spellAfter_inj hothers
      exact ⟨rfl, hrest⟩

theorem Nodes.spellAfter_inj {ns ms : Nodes} {r s : List Char}
    (h : ns.spellAfter r = ms.spellAfter s) : ns = ms ∧ r = s := by
  cases ns with
  | last n =>
    cases ms with
    | last m =>
      rw [Nodes.spellAfter, Nodes.spellAfter] at h
      obtain ⟨rfl, hclose⟩ := n.spell_inj (List.cons.inj (List.cons.inj h).2).2
      exact ⟨rfl, (List.cons.inj hclose).2⟩
    | seq m ms =>
      rw [Nodes.spellAfter, Nodes.spellAfter] at h
      obtain ⟨us, hus⟩ := ms.exists_spellAfter_eq s
      obtain ⟨-, hclose⟩ := n.spell_inj (List.cons.inj (List.cons.inj h).2).2
      rw [hus] at hclose
      cases (List.cons.inj hclose).1
  | seq n ns =>
    cases ms with
    | last m =>
      rw [Nodes.spellAfter, Nodes.spellAfter] at h
      obtain ⟨us, hus⟩ := ns.exists_spellAfter_eq r
      obtain ⟨-, hclose⟩ := n.spell_inj (List.cons.inj (List.cons.inj h).2).2
      rw [hus] at hclose
      cases (List.cons.inj hclose).1
    | seq m ms =>
      rw [Nodes.spellAfter, Nodes.spellAfter] at h
      obtain ⟨rfl, hothers⟩ := n.spell_inj (List.cons.inj (List.cons.inj h).2).2
      obtain ⟨rfl, hrest⟩ := ns.spellAfter_inj hothers
      exact ⟨rfl, hrest⟩

end

/-! ## Shown forms -/

theorem Node.exists_room {n : Node} {room : Nat} (h : n.levels ≤ room) : ∃ k, room = k + 1 := by
  refine ⟨room - 1, ?_⟩
  cases n <;> rw [levels] at h <;> omega

theorem shownInt_eq {k : Int} (h : isWritable k = true) : shownInt k = .ok (toString k) := by
  rw [shownInt, decimal, if_pos h]
  rfl

theorem Node.spell_operands_eq {l r : Node} {left right : String} (c : ClassName) (op : String)
    (hl : ∀ rest, l.spell rest = left.toList ++ rest)
    (hr : ∀ rest, r.spell rest = right.toList ++ rest) (rest : List Char) :
    c.spell (spellField "op" (op.toList ++
        spellField ", left" (l.spell (spellField ", right" (r.spell (')' :: rest))))))
      = (shownNode c.text [("op", op), ("left", left), ("right", right)]).toList ++ rest := by
  simp [shownNode, ClassName.spell, spellField, String.intercalate_cons_cons, hl, hr]

mutual

/-- A node that fits is shown, and spelled by the characters of its shown form. -/
theorem Node.exists_shownWithin (n : Node) (room : Nat) (hlevels : n.levels ≤ room)
    (hdigits : ∀ k ∈ n.constants, isWritable k = true) :
    ∃ text, n.shownWithin room = .ok text ∧ ∀ rest, n.spell rest = text.toList ++ rest := by
  obtain ⟨room, rfl⟩ := Node.exists_room hlevels
  cases n with
  | program ns =>
    rw [Node.levels] at hlevels
    rw [Node.constants] at hdigits
    obtain ⟨text, htext, hspell⟩ := ns.exists_shownWithin room (by omega) hdigits
    refine ⟨_, by rw [Node.shownWithin, htext]; rfl, fun rest => ?_⟩
    simp [Node.spell, shownNode, ClassName.spell, ClassName.text, spellField, hspell]
  | assign x e =>
    rw [Node.levels] at hlevels
    rw [Node.constants] at hdigits
    obtain ⟨text, htext, hspell⟩ := e.exists_shownWithin room (by omega) hdigits
    refine ⟨_, by rw [Node.shownWithin, htext]; rfl, fun rest => ?_⟩
    simp [Node.spell, shownNode, ClassName.spell, ClassName.text, spellField,
      quote, String.intercalate_cons_cons, hspell]
  | skip =>
    refine ⟨_, by rw [Node.shownWithin]; rfl, fun rest => ?_⟩
    simp [Node.spell, shownNode, ClassName.spell, ClassName.text]
  | ifThen c t =>
    rw [Node.levels] at hlevels
    rw [Node.constants] at hdigits
    simp only [List.forall_mem_append] at hdigits
    obtain ⟨_, hc, hsc⟩ := c.exists_shownWithin room (by omega) hdigits.1
    obtain ⟨_, ht, hst⟩ := t.exists_shownWithin room (by omega) hdigits.2
    refine ⟨_, by rw [Node.shownWithin, hc, ht]; rfl, fun rest => ?_⟩
    simp [Node.spell, shownNode, ClassName.spell, ClassName.text, spellField,
      String.intercalate_cons_cons, hsc, hst]
  | ifElse c t e =>
    rw [Node.levels] at hlevels
    rw [Node.constants] at hdigits
    simp only [List.forall_mem_append] at hdigits
    obtain ⟨_, hc, hsc⟩ := c.exists_shownWithin room (by omega) hdigits.1.1
    obtain ⟨_, ht, hst⟩ := t.exists_shownWithin room (by omega) hdigits.1.2
    obtain ⟨_, he, hse⟩ := e.exists_shownWithin room (by omega) hdigits.2
    refine ⟨_, by rw [Node.shownWithin, hc, ht, he]; rfl, fun rest => ?_⟩
    simp [Node.spell, shownNode, ClassName.spell, ClassName.text, spellField,
      String.intercalate_cons_cons, hsc, hst, hse]
  | whileDo c b =>
    rw [Node.levels] at hlevels
    rw [Node.constants] at hdigits
    simp only [List.forall_mem_append] at hdigits
    obtain ⟨_, hc, hsc⟩ := c.exists_shownWithin room (by omega) hdigits.1
    obtain ⟨_, hb, hsb⟩ := b.exists_shownWithin room (by omega) hdigits.2
    refine ⟨_, by rw [Node.shownWithin, hc, hb]; rfl, fun rest => ?_⟩
    simp [Node.spell, shownNode, ClassName.spell, ClassName.text, spellField,
      String.intercalate_cons_cons, hsc, hsb]
  | const k =>
    have hk : isWritable k = true := hdigits k (by simp [Node.constants])
    refine ⟨_, by rw [Node.shownWithin, shownInt_eq hk]; rfl, fun rest => ?_⟩
    simp [Node.spell, shownNode, ClassName.spell, ClassName.text, spellField]
  | var x =>
    refine ⟨_, by rw [Node.shownWithin]; rfl, fun rest => ?_⟩
    simp [Node.spell, shownNode, ClassName.spell, ClassName.text, spellField, quote]
  | arith op l r =>
    rw [Node.levels] at hlevels
    rw [Node.constants, List.forall_mem_append] at hdigits
    obtain ⟨_, hl, hsl⟩ := l.exists_shownWithin room (by omega) hdigits.1
    obtain ⟨_, hr, hsr⟩ := r.exists_shownWithin room (by omega) hdigits.2
    refine ⟨_, by rw [Node.shownWithin, hl, hr]; rfl, fun rest => ?_⟩
    rw [Node.spell]
    exact Node.spell_operands_eq _ _ hsl hsr rest
  | truth b =>
    cases b <;> refine ⟨_, by rw [Node.shownWithin]; rfl, fun rest => ?_⟩ <;>
      simp [Node.spell, shownNode, ClassName.spell, ClassName.text]
  | negation c =>
    rw [Node.levels] at hlevels
    rw [Node.constants] at hdigits
    obtain ⟨text, htext, hspell⟩ := c.exists_shownWithin room (by omega) hdigits
    refine ⟨_, by rw [Node.shownWithin, htext]; rfl, fun rest => ?_⟩
    simp [Node.spell, shownNode, ClassName.spell, ClassName.text, spellField, hspell]
  | bool op l r =>
    rw [Node.levels] at hlevels
    rw [Node.constants, List.forall_mem_append] at hdigits
    obtain ⟨_, hl, hsl⟩ := l.exists_shownWithin room (by omega) hdigits.1
    obtain ⟨_, hr, hsr⟩ := r.exists_shownWithin room (by omega) hdigits.2
    refine ⟨_, by rw [Node.shownWithin, hl, hr]; rfl, fun rest => ?_⟩
    rw [Node.spell]
    exact Node.spell_operands_eq _ _ hsl hsr rest
  | compare op l r =>
    rw [Node.levels] at hlevels
    rw [Node.constants, List.forall_mem_append] at hdigits
    obtain ⟨_, hl, hsl⟩ := l.exists_shownWithin room (by omega) hdigits.1
    obtain ⟨_, hr, hsr⟩ := r.exists_shownWithin room (by omega) hdigits.2
    refine ⟨_, by rw [Node.shownWithin, hl, hr]; rfl, fun rest => ?_⟩
    rw [Node.spell]
    exact Node.spell_operands_eq _ _ hsl hsr rest

theorem Nodes.exists_shownWithin (ns : Nodes) (room : Nat) (hlevels : ns.levels ≤ room)
    (hdigits : ∀ k ∈ ns.constants, isWritable k = true) :
    ∃ text, ns.shownWithin room = .ok text ∧
      ∀ rest, ns.spell rest = text.toList ++ ')' :: rest := by
  cases ns with
  | last n =>
    rw [Nodes.levels] at hlevels
    rw [Nodes.constants] at hdigits
    obtain ⟨text, htext, hspell⟩ := n.exists_shownWithin room hlevels hdigits
    refine ⟨_, by rw [Nodes.shownWithin, htext]; rfl, fun rest => ?_⟩
    simp [Nodes.spell, hspell]
  | seq n others =>
    rw [Nodes.levels] at hlevels
    rw [Nodes.constants, List.forall_mem_append] at hdigits
    obtain ⟨_, hn, hsn⟩ := n.exists_shownWithin room (by omega) hdigits.1
    obtain ⟨_, hothers, hsothers⟩ := others.exists_shownAfter room (by omega) hdigits.2
    refine ⟨_, by rw [Nodes.shownWithin, hn, hothers]; rfl, fun rest => ?_⟩
    simp [Nodes.spell, hsn, hsothers]

theorem Nodes.exists_shownAfter (ns : Nodes) (room : Nat) (hlevels : ns.levels ≤ room)
    (hdigits : ∀ k ∈ ns.constants, isWritable k = true) :
    ∃ text, ns.shownAfter room = .ok text ∧
      ∀ rest, ns.spellAfter rest = text.toList ++ ')' :: rest := by
  cases ns with
  | last n =>
    rw [Nodes.levels] at hlevels
    rw [Nodes.constants] at hdigits
    obtain ⟨text, htext, hspell⟩ := n.exists_shownWithin room hlevels hdigits
    refine ⟨_, by rw [Nodes.shownAfter, htext]; rfl, fun rest => ?_⟩
    simp [Nodes.spellAfter, hspell]
  | seq n others =>
    rw [Nodes.levels] at hlevels
    rw [Nodes.constants, List.forall_mem_append] at hdigits
    obtain ⟨_, hn, hsn⟩ := n.exists_shownWithin room (by omega) hdigits.1
    obtain ⟨_, hothers, hsothers⟩ := others.exists_shownAfter room (by omega) hdigits.2
    refine ⟨_, by rw [Nodes.shownAfter, hn, hothers]; rfl, fun rest => ?_⟩
    simp [Nodes.spellAfter, hsn, hsothers]

end

/-- **The shown form of a node determines it.** Two nodes that can be written have shown forms, and
they are the same if and only if those are equal. -/
theorem Node.shown_determines {a b : Node} (ha : a.IsWritable) (hb : b.IsWritable) :
    ∃ ta tb, a.shown = .ok ta ∧ b.shown = .ok tb ∧ a.same b = .ok (decide (ta = tb)) := by
  obtain ⟨ta, hta, hspella⟩ := a.exists_shownWithin levelLimit ha.levels ha.digits
  obtain ⟨tb, htb, hspellb⟩ := b.exists_shownWithin levelLimit hb.levels hb.digits
  have htexts : a = b ↔ ta = tb := by
    constructor
    · rintro rfl
      exact Except.ok.inj (hta.symm.trans htb)
    · rintro rfl
      exact (Node.spell_inj ((hspella []).trans (hspellb []).symm)).1
  refine ⟨ta, tb, hta, htb, ?_⟩
  rw [Node.same, if_pos ⟨ha.levels, hb.levels⟩, decide_eq_decide.mpr htexts]

/-- A program with one statement, whose name reads like the end of one and the start of another, is
shown otherwise than a program with two. -/
theorem Node.shown_determines_quotes :
    let a : Node := .program (.last (.var "x'), Variable(name='y"))
    let b : Node := .program (.seq (.var "x") (.last (.var "y")))
    a.IsWritable ∧ b.IsWritable ∧ ∃ ta tb, a.shown = .ok ta ∧ b.shown = .ok tb ∧ ta ≠ tb := by
  intro a b
  have ha : a.IsWritable := ⟨by decide, nofun⟩
  have hb : b.IsWritable := ⟨by decide, nofun⟩
  obtain ⟨ta, tb, hta, htb, hsame⟩ := shown_determines ha hb
  refine ⟨ha, hb, ta, tb, hta, htb, ?_⟩
  rintro rfl
  rw [decide_eq_true rfl, same_eq_ok_true_iff ha.levels hb.levels] at hsame
  cases Node.program.inj hsame

end WhileFrontend
