import NumCheck.Check.Basic

/-!
# Log lines

An event of a check is logged as a line that names the part of the checker it comes from.
-/

namespace NumCheck

/-- The long form of a problem, with the names of its parts. -/
def Problem.renderFields : Problem → String
  | .expectedFound span expected found =>
    let expected := ", ".intercalate (expected.map Text.quote)
    let found := found.elim "None" Text.quote
    s!"ExpectedFound(span={span.renderFields}, expected=({expected}), found={found})"
  | .custom span message =>
    let message := Text.quote message
    s!"Custom(span={span.renderFields}, message={message})"
  | .undefinedVariable name span =>
    let name := Text.quote name
    s!"UndefinedVariable(name={name}, span={span.renderFields})"
  | .cannotInferType span => s!"CannotInferType(span={span.renderFields})"
  | .typeMismatch span₁ span₂ content₁ content₂ =>
    s!"TypeMismatch(span1={span₁.renderFields}, span2={span₂.renderFields}, " ++
      s!"ty1={content₁.render}, ty2={content₂.render})"
  | .cannotApplyUnary span op ty =>
    s!"CannotApplyUnaryOperator(span={span.renderFields}, op={op.symbol}, ty={ty.name})"
  | .cannotApplyBinary span op ty₁ ty₂ =>
    s!"CannotApplyBinaryOperator(span={span.renderFields}, op={op.symbol}, " ++
      s!"ty1={ty₁.name}, ty2={ty₂.name})"

mutual
/-- The long form of a diagnostic. -/
def Diagnostic.renderFields : Diagnostic → String
  | .one p => p.renderFields
  | .many members =>
    let members := ", ".intercalate (Diagnostic.renderFieldsList members)
    s!"Many(errors=({members}))"
/-- The long forms of diagnostics. -/
def Diagnostic.renderFieldsList : List Diagnostic → List String
  | [] => []
  | d :: rest => d.renderFields :: Diagnostic.renderFieldsList rest
end

namespace Check.Event

/-- The part of the checker that an event comes from. -/
def origin : Event → String
  | .pushScope _ | .popScope _ => "numlang.core.scopes"
  | .insert .. | .link .. => "numlang.infer"
  | .bind .. | .failed _ | .succeeded .. => "numlang.type_checker"

/-- What is logged of an event. -/
def message : Event → String
  | .pushScope depth => s!"push scope (depth={depth})"
  | .popScope depth => s!"pop scope (depth={depth})"
  | .insert id slot => s!"insert #{id} = {slot.content.render} @ {slot.span.render}"
  | .link source target => s!"unify #{source} -> #{target}"
  | .bind name id => s!"bind {name} -> #{id}"
  | .failed d => s!"check failed: {d.renderFields}"
  | .succeeded statements slots => s!"check ok: {statements} statements, {slots} slots"

end Check.Event

end NumCheck
