/-!
# Tokens

A token is a kind and, for some kinds, a value: the integer of a number, the text of a name, the
character that fits no other kind. The kinds are thirteen symbols, fifteen keywords and four kinds
without a fixed spelling. A token list that does not come from a text may hold any kind under any
name and any value, so a kind can also be foreign: one that no rule of the language mentions.
-/

namespace WhileFrontend

/-- Operators and punctuation. -/
inductive Symbol where
  | assign | semicolon | lparen | rparen | plus | minus | times | eq | neq | leq | lt | geq | gt
  deriving DecidableEq, Repr

/-- Reserved words. -/
inductive Keyword where
  | andKw | divKw | doKw | doneKw | elseKw | falseKw | fiKw | ifKw | modKw | notKw | orKw | skipKw
  | thenKw | trueKw | whileKw
  deriving DecidableEq, Repr

namespace Symbol

/-- Every symbol, in the order of the symbol table. -/
def all : List Symbol :=
  [.assign, .semicolon, .lparen, .rparen, .plus, .minus, .times, .eq, .neq, .leq, .lt, .geq, .gt]

/-- The characters of a symbol. -/
def spelling : Symbol → List Char
  | assign => [':', '=']
  | semicolon => [';']
  | lparen => ['(']
  | rparen => [')']
  | plus => ['+']
  | minus => ['-']
  | times => ['*']
  | eq => ['=']
  | neq => ['<', '>']
  | leq => ['<', '=']
  | lt => ['<']
  | geq => ['>', '=']
  | gt => ['>']

/-- The name of a symbol's kind. -/
def name : Symbol → String
  | assign => "ASSIGN"
  | semicolon => "SEMICOLON"
  | lparen => "LPAREN"
  | rparen => "RPAREN"
  | plus => "PLUS"
  | minus => "MINUS"
  | times => "TIMES"
  | eq => "EQ"
  | neq => "NEQ"
  | leq => "LEQ"
  | lt => "LT"
  | geq => "GEQ"
  | gt => "GT"

/-- The symbol with a given spelling. -/
def ofSpelling? (cs : List Char) : Option Symbol :=
  all.find? fun s => s.spelling = cs

/-- The length of the longest symbol. -/
def maxLength : Nat :=
  all.foldl (fun n s => max n s.spelling.length) 0

theorem mem_all (s : Symbol) : s ∈ all := by
  cases s <;> decide

/-- Distinct symbols have distinct spellings, so each is found by its own. -/
theorem ofSpelling?_spelling (s : Symbol) : ofSpelling? s.spelling = some s := by
  cases s <;> decide

theorem spelling_of_ofSpelling? {cs : List Char} {s : Symbol} (h : ofSpelling? cs = some s) :
    s.spelling = cs := by
  simpa using List.find?_some h

end Symbol

namespace Keyword

/-- Every keyword, in the order of the keyword table. -/
def all : List Keyword :=
  [.andKw, .divKw, .doKw, .doneKw, .elseKw, .falseKw, .fiKw, .ifKw, .modKw, .notKw, .orKw, .skipKw,
   .thenKw, .trueKw, .whileKw]

/-- The characters of a keyword. -/
def spelling : Keyword → List Char
  | andKw => ['a', 'n', 'd']
  | divKw => ['d', 'i', 'v']
  | doKw => ['d', 'o']
  | doneKw => ['d', 'o', 'n', 'e']
  | elseKw => ['e', 'l', 's', 'e']
  | falseKw => ['f', 'a', 'l', 's', 'e']
  | fiKw => ['f', 'i']
  | ifKw => ['i', 'f']
  | modKw => ['m', 'o', 'd']
  | notKw => ['n', 'o', 't']
  | orKw => ['o', 'r']
  | skipKw => ['s', 'k', 'i', 'p']
  | thenKw => ['t', 'h', 'e', 'n']
  | trueKw => ['t', 'r', 'u', 'e']
  | whileKw => ['w', 'h', 'i', 'l', 'e']

/-- The name of a keyword's kind. -/
def name : Keyword → String
  | andKw => "AND"
  | divKw => "DIV"
  | doKw => "DO"
  | doneKw => "DONE"
  | elseKw => "ELSE"
  | falseKw => "FALSE"
  | fiKw => "FI"
  | ifKw => "IF"
  | modKw => "MOD"
  | notKw => "NOT"
  | orKw => "OR"
  | skipKw => "SKIP"
  | thenKw => "THEN"
  | trueKw => "TRUE"
  | whileKw => "WHILE"

/-- The keyword with a given spelling. -/
def ofSpelling? (cs : List Char) : Option Keyword :=
  all.find? fun k => k.spelling = cs

theorem mem_all (k : Keyword) : k ∈ all := by
  cases k <;> decide

/-- Distinct keywords have distinct spellings, so each is found by its own. -/
theorem ofSpelling?_spelling (k : Keyword) : ofSpelling? k.spelling = some k := by
  cases k <;> decide

theorem spelling_of_ofSpelling? {cs : List Char} {k : Keyword} (h : ofSpelling? cs = some k) :
    k.spelling = cs := by
  simpa using List.find?_some h

end Keyword

/-- What a token is, apart from its value. -/
inductive Kind where
  | symbol (s : Symbol)
  | keyword (k : Keyword)
  | number
  | ident
  /-- A character that starts no other token. -/
  | unknown
  /-- The end of the tokens. -/
  | eof
  /-- A kind that the language does not have. -/
  | foreign (name : String)
  deriving DecidableEq, Repr

namespace Kind

/-- The name under which a kind is shown. -/
def name : Kind → String
  | symbol s => s.name
  | keyword k => k.name
  | number => "NUMBER"
  | ident => "IDENT"
  | unknown => "UNKNOWN"
  | eof => "EOF"
  | foreign s => s

/-- The kinds of the language. -/
def known : List Kind :=
  Symbol.all.map symbol ++ Keyword.all.map keyword ++ [number, ident, unknown, eof]

/-- The kind with a given name: one of the language's, or a foreign one. -/
def ofName (s : String) : Kind :=
  (known.find? fun k => k.name = s).getD (foreign s)

/-- Every name is the name of the kind it stands for. -/
theorem name_ofName (s : String) : (ofName s).name = s := by
  unfold ofName
  cases h : known.find? fun k => k.name = s with
  | none => rfl
  | some k => simpa using List.find?_some h

end Kind

/-- The value that a token carries. -/
inductive Payload where
  | int (n : Int)
  | text (s : String)
  deriving DecidableEq, Repr

/-- A lexical unit. Two tokens are equal when their kinds and their values are. -/
structure Token where
  kind : Kind
  value : Option Payload := none
  deriving DecidableEq, Repr

namespace Token

/-- A symbol's token carries no value. -/
def symbol (s : Symbol) : Token := ⟨.symbol s, none⟩

/-- A keyword's token carries no value. -/
def keyword (k : Keyword) : Token := ⟨.keyword k, none⟩

/-- A number's token carries its value, not its spelling. -/
def number (n : Nat) : Token := ⟨.number, some (.int n)⟩

/-- A name's token carries its text. -/
def ident (cs : List Char) : Token := ⟨.ident, some (.text (String.ofList cs))⟩

/-- A stray character's token carries that character. -/
def unknown (c : Char) : Token := ⟨.unknown, some (.text (String.ofList [c]))⟩

/-- What is read where no token is left. -/
def eof : Token := ⟨.eof, none⟩

/-- The integer that a token carries, if it carries one. -/
def int? (t : Token) : Option Int :=
  match t.value with
  | some (.int n) => some n
  | _ => none

/-- The text that a token carries, if it carries one. -/
def text? (t : Token) : Option String :=
  match t.value with
  | some (.text s) => some s
  | _ => none

end Token

end WhileFrontend
