import NumCheck.Check.Walk

/-!
# Relabelling

Names and spans are the labels of a program. A relabelling puts other ones in their places, in all
that a check reads and in all that it leaves behind: in trees and typed trees, in diagnostics, in
the slots of the arena, in the scopes and in the log. Symbols, values and types stay, and so do the
numbers of slots.
-/

namespace NumCheck

/-- Other names and other spans. -/
structure Relabelling where
  /-- The name that takes the place of a name. -/
  name : String → String := id
  /-- The span that takes the place of a span. -/
  span : Span → Span := id

/-- Other spans, and the same names. -/
def Relabelling.ofSpans (f : Span → Span) : Relabelling := { span := f }

/-- Other names, and the same spans. -/
def Relabelling.ofNames (r : String → String) : Relabelling := { name := r }

variable (ρ : Relabelling)

/-! ### Trees -/

/-- A name with another label. -/
def Ident.relabel (x : Ident) : Ident := ⟨ρ.name x.name, ρ.span x.span⟩

/-- An operator at another place. -/
def Operator.relabel (op : Operator) : Operator := ⟨op.symbol, ρ.span op.span⟩

/-- An expression with other labels. -/
def Expr.relabel : Expr → Expr
  | .var name span => .var (name.relabel ρ) (ρ.span span)
  | .literal value span => .literal value (ρ.span span)
  | .prefixed op operand span => .prefixed (op.relabel ρ) operand.relabel (ρ.span span)
  | .binary op lhs rhs span => .binary (op.relabel ρ) lhs.relabel rhs.relabel (ρ.span span)
  | .stray kind => .stray kind

mutual
/-- A statement with other labels. -/
def Stmt.relabel : Stmt → Stmt
  | .expr e span => .expr (e.relabel ρ) (ρ.span span)
  | .block statements span => .block (Stmt.relabelList statements) (ρ.span span)
  | .bind name value span => .bind (name.relabel ρ) (value.relabel ρ) (ρ.span span)
  | .print e span => .print (e.relabel ρ) (ρ.span span)
  | .stray kind => .stray kind
/-- Statements with other labels. -/
def Stmt.relabelList : List Stmt → List Stmt
  | [] => []
  | s :: rest => s.relabel :: Stmt.relabelList rest
end

/-- A program with other labels. -/
def Program.relabel (p : Program) : Program := ⟨Stmt.relabelList ρ p.statements, ρ.span p.span⟩

namespace Typed

/-- A typed expression with other labels. -/
def Expr.relabel : Expr → Expr
  | .var name ty span => .var (name.relabel ρ) ty (ρ.span span)
  | .literal value ty span => .literal value ty (ρ.span span)
  | .prefixed op opSpan operand ty span =>
    .prefixed op (ρ.span opSpan) operand.relabel ty (ρ.span span)
  | .binary op opSpan lhs rhs ty span =>
    .binary op (ρ.span opSpan) lhs.relabel rhs.relabel ty (ρ.span span)
  | .stray kind => .stray kind

mutual
/-- A typed statement with other labels. -/
def Stmt.relabel : Stmt → Stmt
  | .expr e span => .expr (e.relabel ρ) (ρ.span span)
  | .block statements span => .block (Stmt.relabelList statements) (ρ.span span)
  | .bind name value span => .bind (name.relabel ρ) (value.relabel ρ) (ρ.span span)
  | .print e span => .print (e.relabel ρ) (ρ.span span)
  | .stray kind => .stray kind
/-- Typed statements with other labels. -/
def Stmt.relabelList : List Stmt → List Stmt
  | [] => []
  | s :: rest => s.relabel :: Stmt.relabelList rest
end

/-- A typed program with other labels. -/
def Program.relabel (p : Program) : Program := ⟨Stmt.relabelList ρ p.statements, ρ.span p.span⟩

end Typed

/-! ### Diagnostics -/

/-- A problem with other labels. Only a variable that is not bound is known by its name. -/
def Problem.relabel : Problem → Problem
  | .expectedFound span expected found => .expectedFound (ρ.span span) expected found
  | .custom span message => .custom (ρ.span span) message
  | .undefinedVariable name span => .undefinedVariable (ρ.name name) (ρ.span span)
  | .cannotInferType span => .cannotInferType (ρ.span span)
  | .typeMismatch span₁ span₂ content₁ content₂ =>
    .typeMismatch (ρ.span span₁) (ρ.span span₂) content₁ content₂
  | .cannotApplyUnary span op ty => .cannotApplyUnary (ρ.span span) op ty
  | .cannotApplyBinary span op ty₁ ty₂ => .cannotApplyBinary (ρ.span span) op ty₁ ty₂

mutual
/-- A diagnostic with other labels. -/
def Diagnostic.relabel : Diagnostic → Diagnostic
  | .one p => .one (p.relabel ρ)
  | .many members => .many (Diagnostic.relabelList members)
/-- Diagnostics with other labels. -/
def Diagnostic.relabelList : List Diagnostic → List Diagnostic
  | [] => []
  | d :: rest => d.relabel :: Diagnostic.relabelList rest
end

/-! ### States -/

/-- A slot about another span. -/
def Slot.relabel (s : Slot) : Slot := ⟨s.content, ρ.span s.span⟩

/-- An arena with slots about other spans. -/
def Arena.relabel (a : Arena) : Arena := ⟨a.slots.map (·.relabel ρ)⟩

/-- An error of the arena about other spans. -/
def Arena.Error.relabel : Arena.Error → Arena.Error
  | .fault f => .fault f
  | .mismatch first second => .mismatch (first.relabel ρ) (second.relabel ρ)
  | .unresolved span => .unresolved (ρ.span span)

/-- A frame with other keys. -/
def Frame.mapKeys {κ κ' ν : Type} (g : κ → κ') (frame : Frame κ ν) : Frame κ' ν :=
  frame.map fun (key, value) => (g key, value)

/-- Scopes with other keys. -/
def Scopes.mapKeys {κ κ' ν : Type} (g : κ → κ') (s : Scopes κ ν) : Scopes κ' ν :=
  ⟨s.frames.map (Frame.mapKeys g)⟩

namespace Check

/-- An event with other labels. -/
def Event.relabel : Event → Event
  | .pushScope depth => .pushScope depth
  | .popScope depth => .popScope depth
  | .insert id slot => .insert id (slot.relabel ρ)
  | .link source target => .link source target
  | .bind name id => .bind (ρ.name name) id
  | .failed d => .failed (d.relabel ρ)
  | .succeeded statements slots => .succeeded statements slots

/-- A failure with other labels. A fault has none. -/
def Failure.relabel : Failure → Failure
  | .rejected d => .rejected (d.relabel ρ)
  | .fault f => .fault f

/-- A state with other labels. -/
def State.relabel (s : State) : State where
  arena := s.arena.relabel ρ
  bindings := s.bindings.mapKeys ρ.name
  recorded := Diagnostic.relabelList ρ s.recorded
  log := s.log.map (·.relabel ρ)

/-- The outcome of a check with other labels. -/
def Outcome.relabel (o : Outcome) : Outcome where
  result :=
    match o.result with
    | .ok (.ok typed) => .ok (.ok (typed.relabel ρ))
    | .ok (.error d) => .ok (.error (d.relabel ρ))
    | .error f => .error f
  final := o.final.relabel ρ

end Check

end NumCheck
