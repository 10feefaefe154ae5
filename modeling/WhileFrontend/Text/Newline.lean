/-!
# Line ends

A text read from a file may end its lines with a line feed, a carriage return or both. All three are
read as a line feed.
-/

namespace WhileFrontend.Text

/-- The text with every line end written as a line feed. -/
def unifyNewlines : List Char → List Char
  | [] => []
  | '\r' :: '\n' :: rest => '\n' :: unifyNewlines rest
  | c :: rest => (if c = '\r' then '\n' else c) :: unifyNewlines rest

end WhileFrontend.Text
