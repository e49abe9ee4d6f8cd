import NumCheck.Typed.Basic

/-!
# The nodes of typed trees

All expressions and all statements of a typed tree, at any depth. A node comes before the nodes
inside of it.
-/

namespace NumCheck

/-- A typed expression and all expressions inside of it. -/
def Typed.Expr.nodes : Typed.Expr → List Typed.Expr
  | .prefixed op opSpan operand ty span => .prefixed op opSpan operand ty span :: operand.nodes
  | .binary op opSpan lhs rhs ty span =>
    .binary op opSpan lhs rhs ty span :: (lhs.nodes ++ rhs.nodes)
  | e => [e]

mutual
/-- All expressions inside of a typed statement. -/
def Typed.Stmt.exprNodes : Typed.Stmt → List Typed.Expr
  | .expr e _ | .bind _ e _ | .print e _ => e.nodes
  | .block statements _ => Typed.Stmt.exprNodesList statements
  | .stray _ => []
/-- All expressions inside of typed statements. -/
def Typed.Stmt.exprNodesList : List Typed.Stmt → List Typed.Expr
  | [] => []
  | s :: rest => s.exprNodes ++ Typed.Stmt.exprNodesList rest
end

/-- All expressions of a typed program. -/
def Typed.Program.exprNodes (p : Typed.Program) : List Typed.Expr :=
  Typed.Stmt.exprNodesList p.statements

mutual
/-- A typed statement and all statements inside of it. -/
def Typed.Stmt.nodes : Typed.Stmt → List Typed.Stmt
  | .block statements span => .block statements span :: Typed.Stmt.nodesList statements
  | s => [s]
/-- Typed statements and all statements inside of them. -/
def Typed.Stmt.nodesList : List Typed.Stmt → List Typed.Stmt
  | [] => []
  | s :: rest => s.nodes ++ Typed.Stmt.nodesList rest
end

/-- All statements of a typed program, in blocks too. -/
def Typed.Program.stmtNodes (p : Typed.Program) : List Typed.Stmt :=
  Typed.Stmt.nodesList p.statements

/-! ### Kinds of nodes -/

/-- The expression is an operator before its operand. -/
def Typed.Expr.isPrefixed : Typed.Expr → Bool
  | .prefixed .. => true
  | _ => false

/-- The expression is an operator between its operands. -/
def Typed.Expr.isBinary : Typed.Expr → Bool
  | .binary .. => true
  | _ => false

/-- The statement is a `let`. -/
def Typed.Stmt.isBind : Typed.Stmt → Bool
  | .bind .. => true
  | _ => false

end NumCheck
