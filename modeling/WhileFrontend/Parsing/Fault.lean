import WhileFrontend.Token.Shown

/-!
# Why tokens cannot be parsed

Each fault but the two on nesting names the token at which the parser gave up, and its report ends
with that token as it is shown. A report cannot be written if that token's integer is too long.
-/

namespace WhileFrontend

/-- The cause of a failure to parse. -/
inductive ParseFault where
  /-- One of the kinds was asked for. -/
  | expected (kinds : List Kind) (found : Token)
  /-- No statement starts here. -/
  | noStatement (found : Token)
  /-- No operand of an arithmetic expression starts here. -/
  | noOperand (found : Token)
  /-- An arithmetic expression is not followed by a comparison. -/
  | noComparison (found : Token)
  /-- A name's token carries no text. -/
  | malformedIdent (found : Token)
  /-- A number's token carries no integer. -/
  | malformedNumber (found : Token)
  /-- A whole program is followed by more tokens. -/
  | trailing (found : Token)
  /-- A phrase is nested too deeply. -/
  | tooDeep
  /-- A whole program is nested too deeply. -/
  | programTooDeep
  deriving DecidableEq, Repr

namespace ParseFault

/-- The part of a report that stands before the token found, which follows if there is one. -/
def parts : ParseFault → String × Option Token
  | expected kinds t =>
    ("Expected " ++ " or ".intercalate (kinds.map Kind.name) ++ ", got ", some t)
  | noStatement t => ("Expected statement, got ", some t)
  | noOperand t => ("Expected '(', number or identifier, got ", some t)
  | noComparison t => ("Expected relational operator, got ", some t)
  | malformedIdent t => ("Malformed identifier token: ", some t)
  | malformedNumber t => ("Malformed number token: ", some t)
  | trailing t => ("Unexpected token after program: ", some t)
  | tooDeep => ("Phrase nested too deeply", none)
  | programTooDeep => ("Program nested too deeply", none)

/-- The report of a fault, if the token that it shows can be written. -/
def report (f : ParseFault) : Except Text.TooManyDigits String :=
  match f.parts with
  | (text, none) => .ok text
  | (text, some t) => do return text ++ (← t.shown)

end ParseFault

end WhileFrontend
