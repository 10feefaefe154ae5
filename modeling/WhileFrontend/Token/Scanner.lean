import WhileFrontend.Token.Lexer

/-!
# Lexing step by step

A scanner is a source text with a position in it, which single characters and single tokens can be
read from in any order. From a position at or after the start it reads the tokens of what lies ahead
(`Lexer.next`). A position before the start counts from the end, but only for a character that is
taken: looking ahead sees no character there, so no blank is skipped and no symbol, digit or letter
recognised, and each character taken is a token by itself until the position reaches the start.

## Termination

`tokens` takes tokens for as long as there are any. Each moves the position forward and starts
before the end of the text (`lt_position_nextToken`), so the distance from the position to the end
falls.
-/

namespace WhileFrontend

/-- A source text and a position in it. -/
structure Scanner where
  source : List Char
  position : Int := 0

/-- Why a scanner gives no answer. -/
inductive ScanFault where
  /-- A character is taken at or past the end. -/
  | pastEnd (position : Int)
  /-- The position lies further before the start than the text is long. -/
  | outOfRange
  deriving DecidableEq, Repr

namespace Scanner

/-- The number of characters. -/
def length (s : Scanner) : Int :=
  s.source.length

/-- The scanner moved by `n` positions. -/
def moved (s : Scanner) (n : Int) : Scanner :=
  { s with position := s.position + n }

/-- No character is left to take. -/
def atEnd (s : Scanner) : Bool :=
  decide (s.length ≤ s.position)

/-- The character `offset` positions ahead, if that lies in the text. -/
def peek (s : Scanner) (offset : Int) : Option Char :=
  if 0 ≤ s.position + offset then s.source[(s.position + offset).toNat]? else none

/-- The character at the position, which counts from the end where it is negative. -/
def current (s : Scanner) : Except ScanFault (Option Char) :=
  if 0 ≤ s.position then .ok s.source[s.position.toNat]?
  else if -s.length ≤ s.position then .ok s.source[(s.length + s.position).toNat]?
  else .error .outOfRange

/-- Takes a character. -/
def next (s : Scanner) : Except ScanFault Char × Scanner :=
  match s.current with
  | .error f => (.error f, s)
  | .ok none => (.error (.pastEnd s.position), s)
  | .ok (some c) => (.ok c, s.moved 1)

/-- A character that is taken moves the position by one. -/
theorem eq_moved_of_next {s s' : Scanner} {c : Char} (h : s.next = (.ok c, s')) :
    s' = s.moved 1 := by
  unfold next at h
  split at h
  · cases (Prod.mk.inj h).1
  · cases (Prod.mk.inj h).1
  · exact (Prod.mk.inj h).2.symm

/-- What looking ahead sees: the rest of the text, and nothing from a position before it. -/
def ahead (s : Scanner) : List Char :=
  if 0 ≤ s.position then s.source.drop s.position.toNat else []

/-- Moves past the blanks ahead. -/
def skipBlanks (s : Scanner) : Scanner :=
  s.moved (s.ahead.length - (Lexer.skipBlanks s.ahead).length : Int)

/-- Takes the longest symbol ahead, if there is one. -/
def nextSymbol (s : Scanner) : Option Token × Scanner :=
  match Lexer.symbol? s.ahead with
  | some (sym, _) => (some (.symbol sym), s.moved sym.spelling.length)
  | none => (none, s)

/-- Takes the next token, which at the end is the end marker. -/
def nextToken (s : Scanner) : Except ScanFault Token × Scanner :=
  match s.skipBlanks.ahead with
  | c :: rest =>
    (.ok (Lexer.next c rest).1,
      s.skipBlanks.moved ((rest.length : Int) + 1 - (Lexer.next c rest).2.length))
  | [] =>
    if s.skipBlanks.atEnd then (.ok .eof, s.skipBlanks)
    else
      match s.next with
      | (.ok c, s') => (.ok (.unknown c), s')
      | (.error f, s') => (.error f, s')

theorem position_le_skipBlanks (s : Scanner) : s.position ≤ s.skipBlanks.position := by
  have h : (Lexer.skipBlanks s.ahead).length ≤ s.ahead.length := Lexer.length_dropWhile_le _ _
  simp only [skipBlanks, moved]
  omega

theorem position_lt_length {s : Scanner} {c : Char} {rest : List Char} (h : s.ahead = c :: rest) :
    s.position < s.length := by
  unfold ahead at h
  split at h
  · have hlen := congrArg List.length h
    simp only [List.length_drop, List.length_cons] at hlen
    simp only [length]
    omega
  · cases h

/-- A token that is not the end marker is taken before the end and moves the position forward. -/
theorem lt_position_nextToken {s s' : Scanner} {t : Token} (h : s.nextToken = (.ok t, s'))
    (ht : t.kind ≠ .eof) :
    s'.length = s.length ∧ s.position < s'.position ∧ s.position < s.length := by
  have hle := position_le_skipBlanks s
  unfold nextToken at h
  split at h
  · next c rest hc =>
    obtain ⟨-, rfl⟩ := Prod.mk.inj h
    have hlt := position_lt_length hc
    have hnext := Lexer.length_next_le c rest
    refine ⟨rfl, ?_, Int.lt_of_le_of_lt hle hlt⟩
    simp only [moved]
    omega
  · split at h
    · obtain ⟨ht', -⟩ := Prod.mk.inj h
      cases Except.ok.inj ht'
      exact absurd rfl ht
    · next hend =>
      have hlt : s.skipBlanks.position < s.length := by
        have hlen : s.skipBlanks.length = s.length := rfl
        rw [← hlen]
        simpa only [atEnd, decide_eq_true_eq, Int.not_le] using hend
      split at h
      · next hn =>
        obtain ⟨-, rfl⟩ := Prod.mk.inj h
        rw [eq_moved_of_next hn]
        refine ⟨rfl, ?_, Int.lt_of_le_of_lt hle hlt⟩
        simp only [moved]
        omega
      · cases (Prod.mk.inj h).1

/-- Takes all tokens that are left, up to the end marker. -/
def tokens (s : Scanner) : Except ScanFault (List Token) × Scanner :=
  match _h : s.nextToken with
  | (.error f, s') => (.error f, s')
  | (.ok t, s') =>
    if _ht : t.kind = .eof then (.ok [], s')
    else s'.tokens.map (·.map (t :: ·)) id
termination_by (s.length - s.position).toNat
decreasing_by
  have := lt_position_nextToken _h _ht
  omega

/-- What can be asked of a scanner. -/
inductive Action where
  | next
  | peek (offset : Int)
  | current
  | atEnd
  | skipBlanks
  | nextSymbol
  | nextToken
  | tokens
  | seek (position : Int)

/-- What a scanner answers. -/
inductive Answer where
  | char (c : Option Char)
  | flag (b : Bool)
  | token (t : Option Token)
  | tokens (ts : List Token)
  | moved

/-- Does as asked. -/
def act (s : Scanner) : Action → Except ScanFault Answer × Scanner
  | .next => s.next.map (·.map fun c => .char (some c)) id
  | .peek offset => (.ok (.char (s.peek offset)), s)
  | .current => (s.current.map .char, s)
  | .atEnd => (.ok (.flag s.atEnd), s)
  | .skipBlanks => (.ok .moved, s.skipBlanks)
  | .nextSymbol => s.nextSymbol.map (.ok ∘ .token) id
  | .nextToken => s.nextToken.map (·.map fun t => .token (some t)) id
  | .tokens => s.tokens.map (·.map .tokens) id
  | .seek p => (.ok .moved, { s with position := p })

/-- Does one action after the other; a failure stops none. Each answer comes with the position
after it. -/
def actAll (s : Scanner) : List Action → List (Except ScanFault Answer × Int)
  | [] => []
  | a :: rest => ((s.act a).1, (s.act a).2.position) :: (s.act a).2.actAll rest

end Scanner

/-- The report of a fault. -/
def ScanFault.message : ScanFault → String
  | pastEnd p =>
    "CharacterStreamError: Attempted to read past end of source at position=<" ++ toString p ++ ">"
  | outOfRange => "string index out of range"

end WhileFrontend
