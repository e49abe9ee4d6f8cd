import NumCheck.Typed.Basic

/-!
# Erasure of types

A typed tree without its types, and with symbols for operators again, is a syntax tree.
-/

namespace NumCheck.Typed

/-- An expression without its types. -/
def Expr.erase : Expr → NumCheck.Expr
  | .var name _ span => .var name span
  | .literal value _ span => .literal value span
  | .prefixed op opSpan operand _ span => .prefixed ⟨op.symbol, opSpan⟩ operand.erase span
  | .binary op opSpan lhs rhs _ span => .binary ⟨op.symbol, opSpan⟩ lhs.erase rhs.erase span
  | .stray kind => .stray kind

mutual
/-- A statement without its types. -/
def Stmt.erase : Stmt → NumCheck.Stmt
  | .expr e span => .expr e.erase span
  | .block statements span => .block (Stmt.eraseList statements) span
  | .bind name value span => .bind name value.erase span
  | .print e span => .print e.erase span
  | .stray kind => .stray kind
/-- Statements without their types. -/
def Stmt.eraseList : List Stmt → List NumCheck.Stmt
  | [] => []
  | s :: rest => s.erase :: Stmt.eraseList rest
end

/-- A program without its types. -/
def Program.erase (p : Program) : NumCheck.Program := ⟨Stmt.eraseList p.statements, p.span⟩

end NumCheck.Typed
