/-!
# Operators of expressions

Arithmetic operators, boolean connectives and comparisons, each with its spelling in programs and
the name of its member, which the shown form of a tree gives beside the spelling.
-/

namespace WhileFrontend

/-- Binary arithmetic operators; `intDiv` and `mod` are spelled as words. -/
inductive ArithOp where
  | add | sub | mul | intDiv | mod
  deriving DecidableEq, Repr

/-- Boolean connectives. -/
inductive BoolOp where
  | and | or
  deriving DecidableEq, Repr

/-- Comparisons of two arithmetic expressions. -/
inductive RelOp where
  | eq | neq | lt | leq | gt | geq
  deriving DecidableEq, Repr

namespace ArithOp

/-- Every arithmetic operator. -/
def all : List ArithOp := [.add, .sub, .mul, .intDiv, .mod]

/-- The operator as it is written. -/
def spelling : ArithOp → String
  | add => "+"
  | sub => "-"
  | mul => "*"
  | intDiv => "div"
  | mod => "mod"

/-- The operator's member name. -/
def name : ArithOp → String
  | add => "ADD"
  | sub => "SUB"
  | mul => "MUL"
  | intDiv => "INT_DIV"
  | mod => "MOD"

/-- The operator with a given spelling. -/
def ofSpelling? (s : String) : Option ArithOp :=
  all.find? fun op => op.spelling = s

theorem ofSpelling?_spelling (op : ArithOp) : ofSpelling? op.spelling = some op := by
  cases op <;> decide

end ArithOp

namespace BoolOp

/-- Every connective. -/
def all : List BoolOp := [.and, .or]

/-- The connective as it is written. -/
def spelling : BoolOp → String
  | and => "and"
  | or => "or"

/-- The connective's member name. -/
def name : BoolOp → String
  | and => "AND"
  | or => "OR"

/-- The connective with a given spelling. -/
def ofSpelling? (s : String) : Option BoolOp :=
  all.find? fun op => op.spelling = s

theorem ofSpelling?_spelling (op : BoolOp) : ofSpelling? op.spelling = some op := by
  cases op <;> decide

end BoolOp

namespace RelOp

/-- Every comparison. -/
def all : List RelOp := [.eq, .neq, .lt, .leq, .gt, .geq]

/-- The comparison as it is written. -/
def spelling : RelOp → String
  | eq => "="
  | neq => "<>"
  | lt => "<"
  | leq => "<="
  | gt => ">"
  | geq => ">="

/-- The comparison's member name. -/
def name : RelOp → String
  | eq => "EQ"
  | neq => "NEQ"
  | lt => "LT"
  | leq => "LEQ"
  | gt => "GT"
  | geq => "GEQ"

/-- The comparison with a given spelling. -/
def ofSpelling? (s : String) : Option RelOp :=
  all.find? fun op => op.spelling = s

theorem ofSpelling?_spelling (op : RelOp) : ofSpelling? op.spelling = some op := by
  cases op <;> decide

end RelOp

end WhileFrontend
