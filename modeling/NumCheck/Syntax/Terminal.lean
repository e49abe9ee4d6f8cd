import NumCheck.Text.LowerCase

/-!
# Terminals

The kinds of tokens that the grammar speaks of. Each has a name, and a description that
is shown to the reader of a message. A message describes a set of terminals, so its
descriptions are sorted and without repetition.
-/

namespace NumCheck

/-- The kinds of tokens, and the end of the input. -/
inductive Terminal where
  /-- The word `let` where it is a keyword. -/
  | letWord
  /-- The word `print` where it is a keyword. -/
  | printWord
  /-- `=` -/
  | equal
  /-- `;` -/
  | semicolon
  /-- The opening brace. -/
  | lbrace
  /-- The closing brace. -/
  | rbrace
  /-- `(` -/
  | lpar
  /-- `)` -/
  | rpar
  /-- `+` -/
  | plus
  /-- `-` -/
  | minus
  /-- `*` -/
  | star
  /-- `/` -/
  | slash
  /-- A name. -/
  | name
  /-- A number. -/
  | number
  /-- The end of the input. -/
  | endOfInput
  deriving DecidableEq, Repr

/-- Put a text into a sorted list that has no text twice. -/
def insertSorted (s : String) : List String → List String
  | [] => [s]
  | t :: rest =>
    if s < t then s :: t :: rest else if s = t then t :: rest else t :: insertSorted s rest

/-- The texts in order, each of them once. -/
def sortedSet (texts : List String) : List String := texts.foldr insertSorted []

namespace Terminal

/-- All terminals. -/
def all : List Terminal :=
  [.letWord, .printWord, .equal, .semicolon, .lbrace, .rbrace, .lpar, .rpar, .plus, .minus,
   .star, .slash, .name, .number, .endOfInput]

/-- The name of a terminal. -/
def label : Terminal → String
  | .letWord => "LET"
  | .printWord => "PRINT"
  | .equal => "EQUAL"
  | .semicolon => "SEMICOLON"
  | .lbrace => "LBRACE"
  | .rbrace => "RBRACE"
  | .lpar => "LPAR"
  | .rpar => "RPAR"
  | .plus => "PLUS"
  | .minus => "MINUS"
  | .star => "STAR"
  | .slash => "SLASH"
  | .name => "NAME"
  | .number => "NUMBER"
  | .endOfInput => "$END"

/-- How a terminal is described: by its spelling in quotes, if it has only one. -/
def description : Terminal → String
  | .letWord => "'let'"
  | .printWord => "'print'"
  | .equal => "'='"
  | .semicolon => "';'"
  | .lbrace => "'\x7b'"
  | .rbrace => "'\x7d'"
  | .lpar => "'('"
  | .rpar => "')'"
  | .plus => "'+'"
  | .minus => "'-'"
  | .star => "'*'"
  | .slash => "'/'"
  | .name => "identifier"
  | .number => "number"
  | .endOfInput => "end of input"

/-- The terminal with the given name. -/
def ofLabel? (label : String) : Option Terminal := all.find? (·.label == label)

/-- The description of a set of terminals. -/
def describe (ts : List Terminal) : List String := sortedSet (ts.map description)

/-- The description of a set that is given by names. A name of no terminal is shown in lower
case. -/
def describeLabels (labels : List String) : List String :=
  sortedSet (labels.map fun l => (ofLabel? l).elim (Text.lowerCase l) description)

end Terminal

end NumCheck
