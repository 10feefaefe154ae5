import WhileFrontend.Parsing.Fault

/-!
# Phrases

A phrase reads a value from the front of a token list. It reports how many tokens it has used, on
success and on failure: what is left is the list without those, and the fault lies at the first
token left. Where no token is left, the end marker is read.

## Mechanism

Phrases run one after the other by `bind`, which hands the tokens left by the first to the second.
A phrase commits: nothing tries a second alternative after a failure.

## Termination

`chainFrom` and `many` are recursive in the number of tokens left. Both go on only after a token has
been used: an operator, or the first token of the item just read.
-/

namespace WhileFrontend

/-- What comes of reading a phrase: a value or a fault, and the number of tokens used. -/
inductive Outcome (α : Type) where
  | ok (value : α) (used : Nat)
  | fail (fault : ParseFault) (used : Nat)
  deriving DecidableEq, Repr

namespace Outcome

variable {α β : Type}

/-- The number of tokens used. -/
def used : Outcome α → Nat
  | ok _ n => n
  | fail _ n => n

/-- The same outcome after `n` more tokens. -/
def after (n : Nat) : Outcome α → Outcome α
  | ok a m => ok a (n + m)
  | fail f m => fail f (n + m)

/-- The outcome with another value. -/
def map (g : α → β) : Outcome α → Outcome β
  | ok a n => ok (g a) n
  | fail f n => fail f n

@[simp] theorem used_after (n : Nat) (o : Outcome α) : (o.after n).used = n + o.used := by
  cases o <;> rfl

@[simp] theorem used_map (g : α → β) (o : Outcome α) : (o.map g).used = o.used := by
  cases o <;> rfl

@[simp] theorem after_zero (o : Outcome α) : o.after 0 = o := by
  cases o <;> simp [after]

theorem after_after (m n : Nat) (o : Outcome α) : (o.after n).after m = o.after (m + n) := by
  cases o <;> simp [after, Nat.add_assoc]

end Outcome

/-- A reader of tokens. -/
def Phrase (α : Type) := List Token → Outcome α

namespace Phrase

variable {α β : Type}

/-- Reads nothing. -/
def pure (a : α) : Phrase α :=
  fun _ => .ok a 0

/-- Reads `p`, then what its value asks for from the tokens left. -/
def bind (p : Phrase α) (next : α → Phrase β) : Phrase β :=
  fun ts =>
    match p ts with
    | .ok a n => (next a (ts.drop n)).after n
    | .fail f n => .fail f n

instance : Monad Phrase where
  pure := pure
  bind := bind

/-- Fails on the spot. -/
def fail (f : ParseFault) : Phrase α :=
  fun _ => .fail f 0

/-- The first token, which stays in place. -/
def peek : Phrase Token :=
  fun ts => .ok (ts.headD .eof) 0

/-- The second token, which stays in place like the first. -/
def peekSecond : Phrase Token :=
  fun ts => .ok (ts.getD 1 .eof) 0

/-- Uses the first token up. -/
def advance : Phrase Unit :=
  fun _ => .ok () 1

/-- Uses up the first token, which has to be of the given kind. -/
def expect (k : Kind) : Phrase Token := do
  let t ← peek
  if t.kind = k then
    advance
    return t
  else
    fail (.expected [k] t)

/-- Reads operators, each with an operand to its right, and combines to the left from `left` on. -/
def chainFrom (op? : Kind → Option β) (combine : β → α → α → α) (operand : Phrase α) (left : α) :
    Phrase α
  | [] => .ok left 0
  | t :: rest =>
    match op? t.kind with
    | none => .ok left 0
    | some op =>
      match operand rest with
      | .fail f n => .fail f (n + 1)
      | .ok right n =>
        (chainFrom op? combine operand (combine op left right) (rest.drop n)).after (n + 1)
termination_by ts => ts.length
decreasing_by
  simp only [List.length_drop, List.length_cons]
  omega

/-- Operands with operators between them, combined to the left. -/
def chain (op? : Kind → Option β) (combine : β → α → α → α) (operand : Phrase α) : Phrase α := do
  let left ← operand
  chainFrom op? combine operand left

/-- Items for as long as the first token left may start one; an item that uses no token is the
last. -/
def many (starts : Kind → Bool) (item : Phrase α) : Phrase (List α)
  | [] => .ok [] 0
  | t :: rest =>
    if starts t.kind then
      match item (t :: rest) with
      | .fail f n => .fail f n
      | .ok a 0 => .ok [a] 0
      | .ok a (n + 1) => ((many starts item (rest.drop n)).map (a :: ·)).after (n + 1)
    else .ok [] 0
termination_by ts => ts.length
decreasing_by
  simp only [List.length_drop, List.length_cons]
  omega

/-- The phrase with another value. -/
def map (g : α → β) (p : Phrase α) : Phrase β :=
  fun ts => (p ts).map g

end Phrase

end WhileFrontend
