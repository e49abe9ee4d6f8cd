import NumCheck.Number.SixDigits
import NumCheck.Syntax.Bare
import NumCheck.Typed.Basic

/-!
# Outlines of typed trees

An outline keeps of a typed tree what a listing is meant to show: names and types, operators
by their symbols, numbers by their texts, and how all this is nested. Trees with the same
outline differ only in places, in whether a minus is the unary or the binary operator, and in
numbers that have the same six digits.

A tree is plain if its names are names of the language, its types are called `Num`, `Bool` or
`Str`, its numbers are finite, and there are no stray nodes. An infinite number would be
listed like a variable of the name `inf`.
-/

namespace NumCheck.Typed

namespace Outline

/-- Outlines of expressions. -/
inductive Expr where
  /-- A variable. -/
  | var (name : String) (ty : Ty)
  /-- A number, by its text. -/
  | number (text : String) (ty : Ty)
  /-- A symbol before its operand. -/
  | prefixed (symbol : String) (operand : Expr) (ty : Ty)
  /-- A symbol with two operands. -/
  | binary (symbol : String) (lhs rhs : Expr) (ty : Ty)
  /-- A node of another kind. -/
  | stray (kind : String)
  deriving DecidableEq, Repr

/-- Outlines of statements. -/
inductive Stmt where
  /-- An expression for its own sake. -/
  | expr (e : Expr)
  /-- Statements with a scope of their own. -/
  | block (statements : List Stmt)
  /-- A variable and its value. -/
  | bind (name : String) (value : Expr)
  /-- An expression whose value is printed. -/
  | print (e : Expr)
  /-- A node of another kind. -/
  | stray (kind : String)
  deriving Repr

end Outline

/-! ### The outline of a tree -/

/-- The outline of an expression. -/
def Expr.outline : Expr → Outline.Expr
  | .var name ty _ => .var name.name ty
  | .literal value ty _ => .number value.render ty
  | .prefixed op _ operand ty _ => .prefixed op.symbol operand.outline ty
  | .binary op _ lhs rhs ty _ => .binary op.symbol lhs.outline rhs.outline ty
  | .stray kind => .stray kind

mutual
/-- The outline of a statement. -/
def Stmt.outline : Stmt → Outline.Stmt
  | .expr e _ => .expr e.outline
  | .block statements _ => .block (Stmt.outlineList statements)
  | .bind name value _ => .bind name.name value.outline
  | .print e _ => .print e.outline
  | .stray kind => .stray kind
/-- The outlines of statements. -/
def Stmt.outlineList : List Stmt → List Outline.Stmt
  | [] => []
  | s :: rest => s.outline :: Stmt.outlineList rest
end

/-- The outline of a program. -/
def Program.outline (p : Program) : List Outline.Stmt := Stmt.outlineList p.statements

/-! ### Plain trees -/

/-- The type is called `Num`, `Bool` or `Str`. -/
def isPlainType (ty : Ty) : Bool := ty.name == "Num" || ty.name == "Bool" || ty.name == "Str"

/-- An expression with names of the language, the types above and finite numbers. -/
def Expr.isPlain : Expr → Bool
  | .var name ty _ => Bare.isName name.name && isPlainType ty
  | .literal value ty _ => value.isFinite && isPlainType ty
  | .prefixed _ _ operand ty _ => operand.isPlain && isPlainType ty
  | .binary _ _ lhs rhs ty _ => lhs.isPlain && rhs.isPlain && isPlainType ty
  | .stray _ => false

mutual
/-- A statement with plain expressions and names of the language. -/
def Stmt.isPlain : Stmt → Bool
  | .expr e _ => e.isPlain
  | .block statements _ => Stmt.isPlainList statements
  | .bind name value _ => Bare.isName name.name && value.isPlain
  | .print e _ => e.isPlain
  | .stray _ => false
/-- All of the statements are plain. -/
def Stmt.isPlainList : List Stmt → Bool
  | [] => true
  | s :: rest => s.isPlain && Stmt.isPlainList rest
end

/-- A program of plain statements. -/
def Program.isPlain (p : Program) : Bool := Stmt.isPlainList p.statements

end NumCheck.Typed
