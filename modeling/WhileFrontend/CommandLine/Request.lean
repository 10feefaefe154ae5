/-!
# Requests

What one run of the program is asked to do.
-/

namespace WhileFrontend.CommandLine

/-- A source, how to take it, and what to do with the result. -/
structure Request where
  /-- A file's name, or program text if `isText` is set. -/
  source : String
  /-- Whether `source` is program text. -/
  isText : Bool := false
  /-- The file to write to; none, or an empty name, stands for the standard output. -/
  out : Option String := none
  /-- Whether the output is indented and set between banners. -/
  pretty : Bool := false
  /-- Whether the tokens are asked for rather than the tree. -/
  tokensOnly : Bool := false
  deriving DecidableEq, Repr

end WhileFrontend.CommandLine
