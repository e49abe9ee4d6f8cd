import NumCheck.Check.Walk

/-!
# Checking with an environment

The same check without slots and scopes. The types of the visible names are in an
*environment*, which is passed along: a `let` that has been checked extends it for the rest of
its list, and what a block adds to it ends with the block. The operands of a binary operator
have to have one type before the rules are asked.

Statements give their typed tree together with the diagnostics that were recorded on the way.
-/

namespace NumCheck.Check.Direct

variable (rules : Rules) (mode : Mode)

/-- The types of the visible names, the latest binding first. -/
abbrev Env := List (String × Ty)

/-- Put the results of two operands together. -/
def both (lhs rhs : Except Failure Typed.Expr) : Except Failure (Typed.Expr × Typed.Expr) :=
  match mode, lhs, rhs with
  | _, .ok l, .ok r => .ok (l, r)
  | .accumulate, .error (.rejected d), .error (.rejected e) => .error (.rejected (.many [d, e]))
  | .accumulate, .error (.rejected _), .error (.fault f) => .error (.fault f)
  | _, .error e, _ => .error e
  | _, .ok _, .error e => .error e

/-- Check an expression. -/
def expr (env : Env) : Expr → Except Failure Typed.Expr
  | .var name span =>
    match env.lookup name.name with
    | some ty => .ok (.var name ty span)
    | none => .error (.problem (.undefinedVariable name.name span))
  | .literal value span => .ok (.literal value .num span)
  | .prefixed op operand span =>
    match UnaryOp.ofSymbol? op.symbol with
    | none => .error (.problem (.custom op.span s!"Unknown prefix operator '{op.symbol}'"))
    | some lowered =>
      match expr env operand with
      | .error e => .error e
      | .ok operand =>
        match rules.unary lowered operand.ty with
        | some ty => .ok (.prefixed (.unary lowered) op.span operand ty span)
        | none => .error (.problem (.cannotApplyUnary op.span (.unary lowered) operand.ty))
  | .binary op lhs rhs span =>
    match BinaryOp.ofSymbol? op.symbol with
    | none => .error (.problem (.custom op.span s!"Unknown binary operator '{op.symbol}'"))
    | some lowered =>
      match both mode (expr env lhs) (expr env rhs) with
      | .error e => .error e
      | .ok (lhs, rhs) =>
        match if lhs.ty = rhs.ty then rules.binary lhs.ty rhs.ty else none with
        | some ty => .ok (.binary (.binary lowered) op.span lhs rhs ty span)
        | none => .error (.problem (.cannotApplyBinary op.span (.binary lowered) lhs.ty rhs.ty))
  | .stray kind => .error (.fault (.strayExpr kind))

/-- The environment after a statement. -/
def Env.after (env : Env) : Typed.Stmt → Env
  | .bind name value _ => (name.name, value.ty) :: env
  | _ => env

mutual
/-- Check a statement. -/
def stmt (env : Env) : Stmt → Except Failure (Typed.Stmt × List Diagnostic)
  | .expr e span => (expr rules mode env e).map fun e => (.expr e span, [])
  | .block body span => (statements env body).map fun (body, ds) => (.block body span, ds)
  | .bind name value span =>
    (expr rules mode env value).map fun value => (.bind name value span, [])
  | .print e span => (expr rules mode env e).map fun e => (.print e span, [])
  | .stray kind => .error (.fault (.strayStmt kind))
/-- Check a list of statements. -/
def statements (env : Env) : List Stmt → Except Failure (List Typed.Stmt × List Diagnostic)
  | [] => .ok ([], [])
  | s :: rest =>
    match mode, stmt env s with
    | _, .ok (typed, ds) =>
      (statements (env.after typed) rest).map fun (more, es) => (typed :: more, ds ++ es)
    | .accumulate, .error (.rejected d) =>
      (statements env rest).map fun (more, es) => (more, d :: es)
    | _, .error e => .error e
end

/-- Check a program. -/
def check (p : Program) : Except Fault (Except Diagnostic Typed.Program) :=
  match statements rules mode [] p.statements with
  | .ok (typed, ds) =>
    match Diagnostic.combine ds with
    | some d => .ok (.error d)
    | none => .ok (.ok ⟨typed, p.span⟩)
  | .error (.rejected d) => .ok (.error d)
  | .error (.fault f) => .error f

end NumCheck.Check.Direct
