/-!
# Decimal numerals

Integers are unbounded, but only those of at most 4300 decimal digits (the sign not counted) are
written out: longer ones are refused, which bounds the cost of a message that shows one. The refusal
is a cause of its own, because it replaces whatever the text was to say.
-/

namespace WhileFrontend.Text

/-- The most decimal digits that an integer may have to be written. -/
def digitLimit : Nat := 4300

/-- The cause of a refusal to write an integer: it has more than `digitLimit` digits. -/
inductive TooManyDigits where
  | tooManyDigits
  deriving DecidableEq, Repr

/-- What is reported in place of a text that would show too long an integer. -/
def TooManyDigits.message (_ : TooManyDigits) : String :=
  "Exceeds the limit (4300 digits) for integer string conversion; " ++
    "use sys.set_int_max_str_digits() to increase the limit"

/-- The integers that have a written form. -/
def isWritable (n : Int) : Bool :=
  decide (n.natAbs < Nat.pow 10 digitLimit)

/-- The decimal numeral of an integer, with a minus sign in front of a negative one. -/
def decimal (n : Int) : Except TooManyDigits String :=
  if isWritable n then .ok (toString n) else .error .tooManyDigits

end WhileFrontend.Text
