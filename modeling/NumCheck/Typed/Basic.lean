import NumCheck.Operator
import NumCheck.Syntax.Basic
import NumCheck.Ty

/-!
# Typed trees

What a successful check makes of a program: the same tree node for node, with a type on
every expression and with the operators of the language in place of symbols. Spans are
those of the nodes that were checked.

A tree from elsewhere may hold more than the checker makes. As in syntax trees, a node of
another kind is `stray`. An operator may be of either kind wherever it stands; the checker
puts unary ones before an operand and binary ones between two.
-/

namespace NumCheck.Typed

/-- Expressions with their types. -/
inductive Expr where
  /-- A variable. -/
  | var (name : Ident) (ty : Ty) (span : Span)
  /-- A number. -/
  | literal (value : Binary64) (ty : Ty) (span : Span)
  /-- An operator, which stands at `opSpan`, before its operand. -/
  | prefixed (op : Operation) (opSpan : Span) (operand : Expr) (ty : Ty) (span : Span)
  /-- An operator, which stands at `opSpan`, between its operands. -/
  | binary (op : Operation) (opSpan : Span) (lhs rhs : Expr) (ty : Ty) (span : Span)
  /-- A node of a kind that is no typed expression. -/
  | stray (kind : String)
  deriving DecidableEq, Repr

/-- Statements with typed expressions. -/
inductive Stmt where
  /-- An expression for its own sake. -/
  | expr (e : Expr) (span : Span)
  /-- Statements with a scope of their own. -/
  | block (statements : List Stmt) (span : Span)
  /-- A variable and its value. -/
  | bind (name : Ident) (value : Expr) (span : Span)
  /-- An expression whose value is printed. -/
  | print (e : Expr) (span : Span)
  /-- A node of a kind that is no typed statement. -/
  | stray (kind : String)
  deriving Repr

/-- A program that has been checked. -/
structure Program where
  /-- The statements at top level. -/
  statements : List Stmt
  /-- The span of the whole source. -/
  span : Span
  deriving Repr

/-- The type of an expression. A stray node has none, and gets one without a name. -/
def Expr.ty : Expr → Ty
  | .var _ ty _ | .literal _ ty _ | .prefixed _ _ _ ty _ | .binary _ _ _ _ ty _ => ty
  | .stray _ => ⟨""⟩

/-- The span of an expression; a stray node has none and counts as empty. -/
def Expr.span : Expr → Span
  | .var _ _ span | .literal _ _ span | .prefixed _ _ _ _ span | .binary _ _ _ _ _ span => span
  | .stray _ => {}

end NumCheck.Typed
