import NumCheck.Number.Binary64
import NumCheck.Span

/-!
# Syntax trees

Programs as they are written. Every node has the span of the text that it was read from.

A tree can also come from somewhere else than the parser, and then a node of another kind
may stand where a statement or an expression belongs. Such a node is `stray`; it keeps
only the name of its kind, which is all that is ever said of it.
-/

namespace NumCheck

/-- A name in a source. -/
structure Ident where
  /-- The name. -/
  name : String
  /-- Where it stands. -/
  span : Span
  deriving DecidableEq, Repr

/-- An operator in a source, not yet known to be one of the language. -/
structure Operator where
  /-- The operator as it is written. -/
  symbol : String
  /-- Where it stands. -/
  span : Span
  deriving DecidableEq, Repr

/-- Expressions. -/
inductive Expr where
  /-- A variable. -/
  | var (name : Ident) (span : Span)
  /-- A number. -/
  | literal (value : Binary64) (span : Span)
  /-- An operator before its operand. -/
  | prefixed (op : Operator) (operand : Expr) (span : Span)
  /-- An operator between its operands. -/
  | binary (op : Operator) (lhs rhs : Expr) (span : Span)
  /-- A node of a kind that is no expression. -/
  | stray (kind : String)
  deriving DecidableEq, Repr

/-- Statements. -/
inductive Stmt where
  /-- An expression for its own sake, `e;`. -/
  | expr (e : Expr) (span : Span)
  /-- Statements with a scope of their own, between braces. -/
  | block (statements : List Stmt) (span : Span)
  /-- A variable for the rest of the enclosing list, `let x = e;`. -/
  | bind (name : Ident) (value : Expr) (span : Span)
  /-- An expression whose value is printed, `print e;`. -/
  | print (e : Expr) (span : Span)
  /-- A node of a kind that is no statement. -/
  | stray (kind : String)
  deriving Repr

/-- A whole source. -/
structure Program where
  /-- The statements at top level. -/
  statements : List Stmt
  /-- The span of the whole source. -/
  span : Span
  deriving Repr

/-- The span of an expression; a stray node has none and counts as empty. -/
def Expr.span : Expr → Span
  | .var _ span | .literal _ span | .prefixed _ _ span | .binary _ _ _ span => span
  | .stray _ => {}

/-- The span of a statement; a stray node has none and counts as empty. -/
def Stmt.span : Stmt → Span
  | .expr _ span | .block _ span | .bind _ _ span | .print _ span => span
  | .stray _ => {}

/-! ### Depth

How deep operators and blocks stand inside each other. Parentheses leave no node, so they
add nothing. -/

/-- The nesting of operators in an expression. -/
def Expr.depth : Expr → Nat
  | .var _ _ | .literal _ _ | .stray _ => 0
  | .prefixed _ operand _ => operand.depth + 1
  | .binary _ lhs rhs _ => max lhs.depth rhs.depth + 1

mutual
/-- The nesting of blocks and operators in a statement. -/
def Stmt.depth : Stmt → Nat
  | .expr e _ | .bind _ e _ | .print e _ => e.depth
  | .block statements _ => Stmt.depthList statements + 1
  | .stray _ => 0
/-- The deepest nesting in a list of statements. -/
def Stmt.depthList : List Stmt → Nat
  | [] => 0
  | s :: rest => max s.depth (Stmt.depthList rest)
end

/-- The deepest nesting in a program. -/
def Program.depth (p : Program) : Nat := Stmt.depthList p.statements

/-- How deep a program may be nested. The number is a stand-in. A builder that calls itself at each
level stops where its stack ends, and a block costs it two calls where an operator costs one, while
`depth` counts one for either. Results are stated for this bound whatever it is. -/
def nestingLimit : Nat := 1000

end NumCheck
