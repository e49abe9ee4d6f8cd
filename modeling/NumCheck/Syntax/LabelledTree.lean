import NumCheck.Diagnostic
import NumCheck.Number.FreeForm
import NumCheck.Syntax.Basic
import NumCheck.Text.Quoted

/-!
# Programs from labelled trees

A reader other than the parser gives a tree whose inner nodes have labels and whose leaves
are tokens. This module makes a program of it.

    statements   let_stmt (name, value) · print_stmt (value) · block (statements) · expr_stmt (value)
    expressions  number (token) · var (token) · prefix (token, operand) · binary (operand, token, operand)

At top level and in a block, tokens are passed over. A node without bounds spans from its
first to its last child. A label that does not belong where it stands is a problem of the
source; a tree that is broken in other ways is a fault of its maker.
-/

namespace NumCheck

/-- A tree of labelled nodes over tokens. -/
inductive LabelledTree where
  /-- A token, with the offsets it is said to have. -/
  | leaf (kind text : String) (start stop : Option Int)
  /-- A node, with the bounds it is said to have. -/
  | node (label : String) (bounds : Option (Int × Int)) (children : List LabelledTree)
  deriving Repr

namespace LabelledTree

/-- A way in which a tree is broken. -/
inductive Fault where
  /-- Bounds that no span has. -/
  | bounds (e : Span.BoundsError)
  /-- A child is missing. -/
  | missingChild
  /-- There are too few or too many children. -/
  | childCount
  /-- The text of a number is none. -/
  | notANumber
  /-- A node stands where a token belongs. -/
  | notALeaf
  /-- A token stands where the root belongs. -/
  | notANode
  deriving DecidableEq, Repr

/-- Why a tree gives no program. -/
inductive Error where
  /-- The source is wrong. -/
  | problem (p : Problem)
  /-- The tree is broken. -/
  | fault (f : Fault)
  deriving DecidableEq, Repr

/-- Building a part of a program. -/
abbrev Build := Except Error

/-- The span with the given bounds. -/
def boundsSpan (start stop : Int) : Build Span :=
  (Span.ofBounds start stop).mapError fun e => .fault (.bounds e)

/-- The span of a token: without a start it is empty and stands at the start of the source,
without an end it is as long as its text. -/
def leafSpan (text : String) (start stop : Option Int) : Build Span :=
  match start with
  | none => .ok {}
  | some start => boundsSpan start (stop.getD (start + text.length))

mutual
/-- The span of a tree. -/
def span : LabelledTree → Build Span
  | .leaf _ text start stop => leafSpan text start stop
  | .node _ (some (start, stop)) _ => boundsSpan start stop
  | .node _ none children => do
    let spans ← spans children
    match spans.head?, spans.getLast? with
    | some first, some last => boundsSpan first.start last.stop
    | _, _ => return {}
/-- The spans of trees. -/
def spans : List LabelledTree → Build (List Span)
  | [] => return []
  | t :: rest => return (← t.span) :: (← spans rest)
end

/-- The text of a token, and its span. -/
def token : LabelledTree → Build (String × Span)
  | .leaf _ text start stop => return (text, ← leafSpan text start stop)
  | .node .. => throw (.fault .notALeaf)

/-- The first child. -/
def firstChild : List LabelledTree → Build LabelledTree
  | [] => throw (.fault .missingChild)
  | t :: _ => return t

/-- The number that the first child of a node is the text of. -/
def numberOf (children : List LabelledTree) : Build Binary64 := do
  match ← firstChild children with
  | .node .. => throw (.fault .notALeaf)
  | .leaf _ text _ _ =>
    match Binary64.ofText? text with
    | some value => return value
    | none => throw (.fault .notANumber)

/-- The name that a token is. -/
def toIdent (t : LabelledTree) : Build Ident := do
  let (text, span) ← t.token
  return ⟨text, span⟩

/-- The operator that a token is. -/
def toOperator (t : LabelledTree) : Build Operator := do
  let (text, span) ← t.token
  return ⟨text, span⟩

/-- The expression of a tree. -/
def toExpr : LabelledTree → Build Expr
  | .leaf kind text start stop => do
    let span ← leafSpan text start stop
    throw (.problem (.custom span ("unexpected token in expression position: Token(" ++
      Text.quote kind ++ ", " ++ Text.quote text ++ ")")))
  | .node label bounds children => do
    let span ← span (.node label bounds children)
    if label = "number" then
      return .literal (← numberOf children) span
    else if label = "var" then
      return .var (← (← firstChild children).toIdent) span
    else if label = "prefix" then
      match children with
      | [op, operand] => return .prefixed (← op.toOperator) (← operand.toExpr) span
      | _ => throw (.fault .childCount)
    else if label = "binary" then
      match children with
      | [lhs, op, rhs] =>
        let op ← op.toOperator
        return .binary op (← lhs.toExpr) (← rhs.toExpr) span
      | _ => throw (.fault .childCount)
    else throw (.problem (.custom span s!"unsupported expression node: {label}"))

/-- The expression of the first child. -/
def firstExpr (children : List LabelledTree) : Build Expr := do
  (← firstChild children).toExpr

mutual
/-- The statement of a node. -/
def toStmt (label : String) (bounds : Option (Int × Int)) :
    (children : List LabelledTree) → Build Stmt
  | children => do
    let span ← span (.node label bounds children)
    if label = "let_stmt" then
      let name ← (← firstChild children).toIdent
      return .bind name (← firstExpr (children.drop 1)) span
    else if label = "print_stmt" then
      return .print (← firstExpr children) span
    else if label = "block" then
      return .block (← toStmts children) span
    else if label = "expr_stmt" then
      return .expr (← firstExpr children) span
    else throw (.problem (.custom span s!"unsupported statement node: {label}"))
/-- The statements of the nodes among the trees. -/
def toStmts : List LabelledTree → Build (List Stmt)
  | [] => return []
  | .leaf .. :: rest => toStmts rest
  | .node label bounds children :: rest => return (← toStmt label bounds children) :: (← toStmts rest)
end

/-- The program of a tree, whose root may have any label. -/
def toProgram (source : String) : LabelledTree → Build Program
  | .leaf .. => throw (.fault .notANode)
  | .node _ _ children => do
    let program := ⟨← toStmts children, ⟨0, source.length⟩⟩
    if program.depth ≤ nestingLimit then return program
    else throw (.problem (.custom ⟨0, source.length⟩ "Expression nesting too deep"))

end LabelledTree

end NumCheck
