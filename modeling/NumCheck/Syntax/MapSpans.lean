import NumCheck.Syntax.Basic

/-!
# Moving trees

A tree with a function applied to all of its spans. With a shift this is the tree of the same
text at another place; with a constant function it is the tree without its places.
-/

namespace NumCheck

/-- The span moved by `k` characters to the right. -/
def Span.shift (k : Nat) (s : Span) : Span := ⟨s.start + k, s.stop + k⟩

/-- A name at another place. -/
def Ident.mapSpan (f : Span → Span) (x : Ident) : Ident := ⟨x.name, f x.span⟩

/-- An operator at another place. -/
def Operator.mapSpan (f : Span → Span) (op : Operator) : Operator := ⟨op.symbol, f op.span⟩

/-- An expression with `f` applied to its spans. -/
def Expr.mapSpans (f : Span → Span) : Expr → Expr
  | .var name span => .var (name.mapSpan f) (f span)
  | .literal value span => .literal value (f span)
  | .prefixed op operand span => .prefixed (op.mapSpan f) (operand.mapSpans f) (f span)
  | .binary op lhs rhs span =>
    .binary (op.mapSpan f) (lhs.mapSpans f) (rhs.mapSpans f) (f span)
  | .stray kind => .stray kind

mutual
/-- A statement with `f` applied to its spans. -/
def Stmt.mapSpans (f : Span → Span) : Stmt → Stmt
  | .expr e span => .expr (e.mapSpans f) (f span)
  | .block statements span => .block (Stmt.mapSpansList f statements) (f span)
  | .bind name value span => .bind (name.mapSpan f) (value.mapSpans f) (f span)
  | .print e span => .print (e.mapSpans f) (f span)
  | .stray kind => .stray kind
/-- Statements with `f` applied to their spans. -/
def Stmt.mapSpansList (f : Span → Span) : List Stmt → List Stmt
  | [] => []
  | s :: rest => s.mapSpans f :: Stmt.mapSpansList f rest
end

/-- A program with `f` applied to its spans. -/
def Program.mapSpans (f : Span → Span) (p : Program) : Program :=
  ⟨Stmt.mapSpansList f p.statements, f p.span⟩

end NumCheck
