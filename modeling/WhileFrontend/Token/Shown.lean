import WhileFrontend.Text.Decimal
import WhileFrontend.Text.Quoted
import WhileFrontend.Token.Basic

/-!
# Tokens as text

A token is shown as `Token(KIND)` or `Token(KIND, value)`, a text value between quotes and an
integer in decimal. Showing fails only where the integer is too long to be written.
-/

namespace WhileFrontend

/-- An integer in decimal, a text between quotes. -/
def Payload.shown : Payload → Except Text.TooManyDigits String
  | .int n => Text.decimal n
  | .text s => .ok (Text.quote s)

/-- The form in which messages and token listings show a token. -/
def Token.shown (t : Token) : Except Text.TooManyDigits String :=
  match t.value with
  | none => .ok ("Token(" ++ t.kind.name ++ ")")
  | some v => do
    let text ← v.shown
    return "Token(" ++ t.kind.name ++ ", " ++ text ++ ")"

end WhileFrontend
