import NumCheck.Span
import NumCheck.Syntax.Terminal

/-!
# Tokens

A source is a sequence of lexemes with layout between them: blanks, and comments that run
from `#` to the end of the line. A lexeme is as long as it can be. Scanning never fails: a
character that starts no lexeme becomes a token of its own, `stray`, which the parser
refuses wherever it stands.

Words are not yet told apart: whether `let` is a keyword or a name depends on where it
stands in the grammar.
-/

namespace NumCheck

/-- Tokens of one fixed character. -/
inductive Symbol where
  /-- `=` -/
  | equal
  /-- `;` -/
  | semicolon
  /-- The opening brace. -/
  | lbrace
  /-- The closing brace. -/
  | rbrace
  /-- `(` -/
  | lpar
  /-- `)` -/
  | rpar
  /-- `+` -/
  | plus
  /-- `-` -/
  | minus
  /-- `*` -/
  | star
  /-- `/` -/
  | slash
  deriving DecidableEq, Repr

namespace Symbol

/-- The character of a symbol. -/
def char : Symbol → Char
  | .equal => '='
  | .semicolon => ';'
  | .lbrace => '\x7b'
  | .rbrace => '\x7d'
  | .lpar => '('
  | .rpar => ')'
  | .plus => '+'
  | .minus => '-'
  | .star => '*'
  | .slash => '/'

/-- All symbols. -/
def all : List Symbol :=
  [.equal, .semicolon, .lbrace, .rbrace, .lpar, .rpar, .plus, .minus, .star, .slash]

/-- The symbol of a character. -/
def ofChar? (c : Char) : Option Symbol := all.find? (·.char == c)

/-- The terminal of a symbol. -/
def terminal : Symbol → Terminal
  | .equal => .equal
  | .semicolon => .semicolon
  | .lbrace => .lbrace
  | .rbrace => .rbrace
  | .lpar => .lpar
  | .rpar => .rpar
  | .plus => .plus
  | .minus => .minus
  | .star => .star
  | .slash => .slash

end Symbol

/-- What a token is. -/
inductive Lexeme where
  /-- A keyword or a name. -/
  | word (text : String)
  /-- A number. -/
  | numeral (text : String)
  /-- A symbol. -/
  | symbol (s : Symbol)
  /-- A character that starts no other lexeme. -/
  | stray (c : Char)
  deriving DecidableEq, Repr

/-- A lexeme and where it stands. -/
structure Token where
  /-- What stands there. -/
  lexeme : Lexeme
  /-- The characters that it takes. -/
  span : Span
  deriving DecidableEq, Repr

/-! ### Classes of characters -/

/-- A blank between tokens. -/
def isBlank (c : Char) : Bool :=
  c == ' ' || c == '\t' || c == '\x0c' || c == '\r' || c == '\n'

/-- A character that starts a word: a letter or a low line. -/
def isWordStart (c : Char) : Bool := c.isAlpha || c == '_'

/-- A character inside of a word: also a digit. -/
def isWordPart (c : Char) : Bool := c.isAlphanum || c == '_'

namespace Lexeme

/-- The text of a lexeme. -/
def text : Lexeme → String
  | .word text | .numeral text => text
  | .symbol s => String.singleton s.char
  | .stray c => String.singleton c

/-- The number of characters of a lexeme. -/
def length (l : Lexeme) : Nat := l.text.length

/-- The terminal of a lexeme, where a word is a keyword if it can be one. -/
def terminal? : Lexeme → Option Terminal
  | .word text =>
    some (if text = "let" then .letWord else if text = "print" then .printWord else .name)
  | .numeral _ => some .number
  | .symbol s => some s.terminal
  | .stray _ => none

/-- The longest numeral at the head of the text: digits, and a point only if a digit
follows it. -/
def numeralPrefix (cs : List Char) : List Char :=
  let whole := cs.takeWhile Char.isDigit
  match cs.dropWhile Char.isDigit with
  | '.' :: rest =>
    let fraction := rest.takeWhile Char.isDigit
    if fraction.isEmpty then whole else whole ++ '.' :: fraction
  | _ => whole

/-- The lexeme at the head of a text that starts with `c`, if there is no layout. -/
def first? (c : Char) (rest : List Char) : Option Lexeme :=
  if isBlank c || c == '#' then none
  else if isWordStart c then some (.word (String.ofList (c :: rest.takeWhile isWordPart)))
  else if c.isDigit then some (.numeral (String.ofList (numeralPrefix (c :: rest))))
  else match Symbol.ofChar? c with
    | some s => some (.symbol s)
    | none => some (.stray c)

end Lexeme

namespace Token

/-- How many characters of layout follow `c`, which starts it: those of the rest of a comment. -/
def layoutRest (c : Char) (rest : List Char) : Nat :=
  if c == '#' then (rest.takeWhile (· != '\n')).length else 0

/-- The tokens of a text that stands at offset `pos`, after its first `skip` characters. -/
def scanFrom : (pos skip : Nat) → List Char → List Token
  | _, _, [] => []
  | pos, skip + 1, _ :: rest => scanFrom (pos + 1) skip rest
  | pos, 0, c :: rest =>
    match Lexeme.first? c rest with
    | none => scanFrom (pos + 1) (layoutRest c rest) rest
    | some l => ⟨l, ⟨pos, pos + l.length⟩⟩ :: scanFrom (pos + 1) (l.length - 1) rest

/-- The tokens of a source. -/
def scan (source : String) : List Token := scanFrom 0 0 source.toList

end Token

end NumCheck
