import WhileFrontend.Parsing.Nonterminal

/-!
# Parsing from a position

A cursor is a token list with a position in it. The position may be any integer: past the end only
the end marker is read, a negative position counts from the end, and reading on from there goes
through the end of the list and then through the whole list from its start. Before that, nothing can
be read. A construct is parsed from the tokens that lie ahead (`ahead?`), and the position moves by
the number of tokens used, on success and on failure alike.
-/

namespace WhileFrontend

/-- A token list and a position in it. -/
structure Cursor where
  tokens : List Token
  position : Int := 0

/-- Why a cursor gives no answer. -/
inductive CursorFault where
  /-- The position lies further before the start than the list is long. -/
  | outOfRange
  /-- The tokens ahead cannot be parsed. -/
  | parse (fault : ParseFault)
  deriving DecidableEq, Repr

namespace Cursor

/-- The number of tokens. -/
def length (c : Cursor) : Int :=
  c.tokens.length

/-- The tokens that reading from position `p` on goes through. -/
def aheadFrom? (c : Cursor) (p : Int) : Option (List Token) :=
  if 0 ≤ p then some (c.tokens.drop p.toNat)
  else if -c.length ≤ p then some (c.tokens.drop (c.length + p).toNat ++ c.tokens)
  else none

/-- The tokens ahead. -/
def ahead? (c : Cursor) : Option (List Token) :=
  c.aheadFrom? c.position

/-- The token at position `p`. -/
def tokenAt (c : Cursor) (p : Int) : Except CursorFault Token :=
  match c.aheadFrom? p with
  | some ts => .ok (ts.headD .eof)
  | none => .error .outOfRange

/-- The cursor moved by `n` positions. -/
def moved (c : Cursor) (n : Int) : Cursor :=
  { c with position := c.position + n }

/-- The current token. -/
def current (c : Cursor) : Except CursorFault Token :=
  c.tokenAt c.position

/-- The token `offset` positions ahead. -/
def peek (c : Cursor) (offset : Int) : Except CursorFault Token :=
  c.tokenAt (c.position + offset)

/-- Moves to the next token, which is then current. -/
def advance (c : Cursor) : Except CursorFault Token × Cursor :=
  ((c.moved 1).current, c.moved 1)

/-- The current token if it is of one of the kinds, and then moves on. -/
def expect (c : Cursor) (kinds : List Kind) : Except CursorFault Token × Cursor :=
  match c.current with
  | .error f => (.error f, c)
  | .ok t =>
    if t.kind ∈ kinds then (.ok t, c.moved 1) else (.error (.parse (.expected kinds t)), c)

/-- Parses a construct within a budget and moves past what it used. -/
def read (c : Cursor) (budget : Nat) (nt : Nonterminal) : Except CursorFault Node × Cursor :=
  match c.ahead? with
  | none => (.error .outOfRange, c)
  | some ts =>
    match nt.phrase budget ts with
    | .ok n used => (.ok n, c.moved used)
    | .fail f used => (.error (.parse f), c.moved used)

/-- What can be asked of a cursor. -/
inductive Action where
  | read (nt : Nonterminal)
  | current
  | advance
  | peek (offset : Int)
  | expect (kinds : List Kind)
  | seek (position : Int)

/-- What a cursor answers. -/
inductive Answer where
  | node (n : Node)
  | token (t : Token)
  | moved

/-- Does as asked. -/
def act (c : Cursor) : Action → Except CursorFault Answer × Cursor
  | .read nt => (c.read nestingLimit nt).map (·.map .node) id
  | .current => (c.current.map .token, c)
  | .advance => c.advance.map (·.map .token) id
  | .peek offset => ((c.peek offset).map .token, c)
  | .expect kinds => (c.expect kinds).map (·.map .token) id
  | .seek p => (.ok .moved, { c with position := p })

/-- Does one action after the other; a failure stops none. Each answer comes with the position
after it. -/
def actAll (c : Cursor) : List Action → List (Except CursorFault Answer × Int)
  | [] => []
  | a :: rest => ((c.act a).1, (c.act a).2.position) :: (c.act a).2.actAll rest

end Cursor

end WhileFrontend
