import NumCheck.Number.Numeral
import NumCheck.Operator
import NumCheck.Syntax.Basic
import NumCheck.Syntax.Token

/-!
# Bare trees and how they are written

A bare tree is a program without places: only names, numerals, operators and their nesting.
It is written with a blank between any two tokens and with as few parentheses as the grammar
allows. Operators of the same level group to the left, so only a right operand of the same
level needs them. A statement that would start with the word `let` or `print` has its whole
expression in parentheses, since the word would be taken for a keyword.
-/

namespace NumCheck.Bare

/-- Expressions. -/
inductive Expr where
  /-- A variable. -/
  | var (name : String)
  /-- A number, by its digits. -/
  | numeral (digits : String)
  /-- A negation. -/
  | neg (operand : Expr)
  /-- An operator between its operands. -/
  | binary (op : BinaryOp) (lhs rhs : Expr)
  deriving DecidableEq, Repr

/-- Statements. -/
inductive Stmt where
  /-- An expression for its own sake. -/
  | expr (e : Expr)
  /-- Statements with a scope of their own. -/
  | block (statements : List Stmt)
  /-- A variable and its value. -/
  | bind (name : String) (value : Expr)
  /-- An expression whose value is printed. -/
  | print (e : Expr)
  deriving Repr

/-! ### As syntax trees -/

/-- The syntax tree, with nothing for spans. -/
def Expr.toExpr : Expr → NumCheck.Expr
  | .var name => .var ⟨name, {}⟩ {}
  | .numeral digits => .literal (Binary64.ofNumeral digits.toList) {}
  | .neg operand => .prefixed ⟨UnaryOp.neg.symbol, {}⟩ operand.toExpr {}
  | .binary op lhs rhs => .binary ⟨op.symbol, {}⟩ lhs.toExpr rhs.toExpr {}

mutual
/-- The syntax tree, with nothing for spans. -/
def Stmt.toStmt : Stmt → NumCheck.Stmt
  | .expr e => .expr e.toExpr {}
  | .block statements => .block (Stmt.toStmts statements) {}
  | .bind name value => .bind ⟨name, {}⟩ value.toExpr {}
  | .print e => .print e.toExpr {}
/-- The syntax trees, with nothing for spans. -/
def Stmt.toStmts : List Stmt → List NumCheck.Stmt
  | [] => []
  | s :: rest => s.toStmt :: Stmt.toStmts rest
end

/-! ### As they are written -/

/-- The symbol of an operator. -/
def operatorSymbol : BinaryOp → Symbol
  | .add => .plus
  | .sub => .minus
  | .mul => .star
  | .div => .slash

/-- How tightly an operator binds: sums less than products. -/
def operatorLevel : BinaryOp → Nat
  | .add | .sub => 0
  | .mul | .div => 1

/-- How tightly the outermost operator binds: sums, products, negations, and then what has
no operator. -/
def Expr.level : Expr → Nat
  | .binary op _ _ => operatorLevel op
  | .neg _ => 2
  | .var _ | .numeral _ => 3

/-- Lexemes in parentheses, if they need them. -/
def parenthesize (needed : Bool) (ls : List Lexeme) : List Lexeme :=
  if needed then .symbol .lpar :: ls ++ [.symbol .rpar] else ls

/-- An expression as it is written. -/
def Expr.lexemes : Expr → List Lexeme
  | .var name => [.word name]
  | .numeral digits => [.numeral digits]
  | .neg operand => .symbol .minus :: parenthesize (operand.level < 2) operand.lexemes
  | .binary op lhs rhs =>
    parenthesize (lhs.level < operatorLevel op) lhs.lexemes ++
      .symbol (operatorSymbol op) :: parenthesize (rhs.level ≤ operatorLevel op) rhs.lexemes

/-- The lexemes start with a word that is a keyword at the start of a statement. -/
def startsWithKeyword (ls : List Lexeme) : Bool :=
  ls.head? = some (.word "let") || ls.head? = some (.word "print")

mutual
/-- A statement as it is written. -/
def Stmt.lexemes : Stmt → List Lexeme
  | .expr e => parenthesize (startsWithKeyword e.lexemes) e.lexemes ++ [.symbol .semicolon]
  | .block statements => .symbol .lbrace :: Stmt.lexemesList statements ++ [.symbol .rbrace]
  | .bind name value =>
    .word "let" :: .word name :: .symbol .equal :: value.lexemes ++ [.symbol .semicolon]
  | .print e => .word "print" :: e.lexemes ++ [.symbol .semicolon]
/-- Statements as they are written. -/
def Stmt.lexemesList : List Stmt → List Lexeme
  | [] => []
  | s :: rest => s.lexemes ++ Stmt.lexemesList rest
end

/-- The text of a program, with one blank between any two tokens. -/
def render (p : List Stmt) : String := " ".intercalate ((Stmt.lexemesList p).map Lexeme.text)

/-! ### What can be written -/

/-- A word of the language. -/
def isName (s : String) : Bool :=
  match s.toList with
  | [] => false
  | c :: rest => isWordStart c && rest.all isWordPart

/-- Digits, or digits on both sides of a point. -/
def isNumeral (s : String) : Bool :=
  !(s.toList.takeWhile Char.isDigit).isEmpty &&
    match s.toList.dropWhile Char.isDigit with
    | [] => true
    | c :: fraction => c == '.' && !fraction.isEmpty && fraction.all Char.isDigit

/-- Names are words and numerals are numerals. -/
def Expr.IsWritable : Expr → Prop
  | .var name => isName name
  | .numeral digits => isNumeral digits
  | .neg operand => operand.IsWritable
  | .binary _ lhs rhs => lhs.IsWritable ∧ rhs.IsWritable

mutual
/-- Names are words and numerals are numerals. -/
def Stmt.IsWritable : Stmt → Prop
  | .expr e | .print e => e.IsWritable
  | .block statements => Stmt.AreWritable statements
  | .bind name value => isName name ∧ value.IsWritable
/-- Names are words and numerals are numerals. -/
def Stmt.AreWritable : List Stmt → Prop
  | [] => True
  | s :: rest => s.IsWritable ∧ Stmt.AreWritable rest
end

end NumCheck.Bare
