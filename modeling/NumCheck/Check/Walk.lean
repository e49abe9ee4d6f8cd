import NumCheck.Check.Basic
import NumCheck.Typed.Basic

/-!
# Checking programs

The check goes through a program in order. Names are resolved through the scopes, so a
variable can be used in the statements after its own, and not in its own value. Each operand
gets a slot with its type; the operands of a binary operator are unified before the rules are
asked, and a variable is unified with its value. What comes out is the typed tree.

In `accumulate` mode both operands of a binary operator are checked even if the first one
fails, and a failing statement is recorded and left out. A failing `let` binds nothing.

The check goes through trees of any depth. What is not modelled is a check that runs out of stack on
a deep tree; the only limit on nesting is the one of the parser, which a tree from elsewhere has not
passed.
-/

namespace NumCheck.Check

variable (rules : Rules) (mode : Mode)

/-- The operator of a symbol that stands before its operand. -/
def lowerUnary (op : Operator) : CheckM UnaryOp :=
  match UnaryOp.ofSymbol? op.symbol with
  | some lowered => return lowered
  | none => throw (.problem (.custom op.span s!"Unknown prefix operator '{op.symbol}'"))

/-- The operator of a symbol that stands between its operands. -/
def lowerBinary (op : Operator) : CheckM BinaryOp :=
  match BinaryOp.ofSymbol? op.symbol with
  | some lowered => return lowered
  | none => throw (.problem (.custom op.span s!"Unknown binary operator '{op.symbol}'"))

/-- Check two operands. The failures of both are put together in `accumulate` mode. -/
def operands (lhs rhs : CheckM Typed.Expr) : CheckM (Typed.Expr × Typed.Expr) :=
  match mode with
  | .failFast => return (← lhs, ← rhs)
  | .accumulate => do
    match ← attempt lhs, ← attempt rhs with
    | .ok l, .ok r => return (l, r)
    | .error d, .ok _ => throw (.rejected d)
    | .ok _, .error e => throw (.rejected e)
    | .error d, .error e => throw (.rejected (.many [d, e]))

/-- Unify the slots of two operands. What does not unify is a misuse of their operator. -/
def unifyOperands (op : BinaryOp) (span : Span) (lhs rhs : Typed.Expr) (x y : SlotId) :
    CheckM Unit :=
  tryCatch (unify x y) fun
    | .rejected (.one (.typeMismatch ..)) =>
      throw (.problem (.cannotApplyBinary span (.binary op) lhs.ty rhs.ty))
    | f => throw f

/-- Check an expression. -/
def expr : Expr → CheckM Typed.Expr
  | .var name span => do
    let id ← lookupName name.name span
    return .var name (← resolve id) span
  | .literal value span => return .literal value .num span
  | .prefixed op operand span => do
    let lowered ← lowerUnary op
    let operand ← expr operand
    let id ← newSlot (.known operand.ty) operand.span
    let ty ← resolve id
    match rules.unary lowered ty with
    | some result => return .prefixed (.unary lowered) op.span operand result span
    | none => throw (.problem (.cannotApplyUnary op.span (.unary lowered) ty))
  | .binary op lhs rhs span => do
    let lowered ← lowerBinary op
    let (lhs, rhs) ← operands mode (expr lhs) (expr rhs)
    let x ← newSlot (.known lhs.ty) lhs.span
    let y ← newSlot (.known rhs.ty) rhs.span
    unifyOperands lowered op.span lhs rhs x y
    let ty₁ ← resolve x
    let ty₂ ← resolve y
    match rules.binary ty₁ ty₂ with
    | some result => return .binary (.binary lowered) op.span lhs rhs result span
    | none => throw (.problem (.cannotApplyBinary op.span (.binary lowered) ty₁ ty₂))
  | .stray kind => throw (.fault (.strayExpr kind))

/-- Check a `let`. The name is bound last, so that it is not visible in its own value. -/
def binding (name : Ident) (value : Expr) (span : Span) : CheckM Typed.Stmt := do
  let value ← expr rules mode value
  let x ← newSlot (.known value.ty) value.span
  let y ← newSlot .unknown name.span
  unify x y
  bindName name.name (some y)
  note (.bind name.name y)
  return .bind name value span

mutual
/-- Check a statement. -/
def stmt : Stmt → CheckM Typed.Stmt
  | .expr e span => return .expr (← expr rules mode e) span
  | .block body span => return .block (← inScope (statements body)) span
  | .bind name value span => binding rules mode name value span
  | .print e span => return .print (← expr rules mode e) span
  | .stray kind => throw (.fault (.strayStmt kind))
/-- Check a list of statements in the innermost scope. -/
def statements : List Stmt → CheckM (List Typed.Stmt)
  | [] => return []
  | s :: rest =>
    match mode with
    | .failFast => return (← stmt s) :: (← statements rest)
    | .accumulate => do
      match ← attempt (stmt s) with
      | .ok typed => return typed :: (← statements rest)
      | .error d =>
        record d
        statements rest
end

/-- What a check comes to: the typed program or a diagnostic, unless a node stands where it
does not belong; and the state that is left behind. -/
structure Outcome where
  /-- The result. -/
  result : Except Fault (Except Diagnostic Typed.Program)
  /-- The state at the end. -/
  final : State

/-- Check a program, from an empty state. -/
def check (p : Program) : Outcome :=
  match inScope (statements rules mode p.statements) {} with
  | .ok typed s =>
    match Diagnostic.combine s.recorded with
    | some d => ⟨.ok (.error d), s⟩
    | none =>
      ⟨.ok (.ok ⟨typed, p.span⟩),
        { s with log := s.log.push (.succeeded typed.length s.arena.size) }⟩
  | .error (.rejected d) s => ⟨.ok (.error d), { s with log := s.log.push (.failed d) }⟩
  | .error (.fault f) s => ⟨.error f, s⟩

end NumCheck.Check
