import NumCheck.Diagnostic
import NumCheck.Json
import NumCheck.Position

/-!
# Reports

A problem is shown as a report: a message, labels that point into the source, and notes.
A report is written either as lines of text or as a JSON object; both name places by line
and column.
-/

namespace NumCheck

/-- The colour of a label. -/
inductive Color where
  /-- Red. -/
  | red
  /-- Yellow, the colour of all labels that problems have. -/
  | yellow
  /-- Blue. -/
  | blue
  /-- Cyan. -/
  | cyan
  deriving DecidableEq, Repr

/-- The name of a colour. -/
def Color.name : Color → String
  | .red => "red"
  | .yellow => "yellow"
  | .blue => "blue"
  | .cyan => "cyan"

/-- A pointer into the source. -/
structure Label where
  /-- What is said there; it may be empty. -/
  text : String
  /-- The colour it should have. -/
  color : Color
  /-- Where it points. -/
  span : Span
  deriving DecidableEq, Repr

/-- What is shown of a problem. -/
structure Report where
  /-- The headline. -/
  message : String
  /-- Where to look. -/
  labels : List Label
  /-- What else there is to say. -/
  notes : List String
  deriving DecidableEq, Repr

/-- The report of a problem. -/
def Problem.report : Problem → Report
  | .expectedFound span expected found =>
    let headline := match found with
      | some _ => "Unexpected token in input"
      | none => "Unexpected end of input"
    let wanted := if expected.isEmpty then "something else" else ", ".intercalate expected
    let shown := found.getD "eof"
    ⟨s!"{headline}, expected {wanted}", [⟨s!"Unexpected token '{shown}'", .yellow, span⟩], []⟩
  | .custom span message => ⟨message, [⟨"", .yellow, span⟩], []⟩
  | .undefinedVariable name span =>
    ⟨s!"Undefined variable '{name}'", [⟨"not found in this scope", .yellow, span⟩], []⟩
  | .cannotInferType span =>
    ⟨"Cannot infer type", [⟨"Cannot infer the type of this expression", .yellow, span⟩],
      ["help: try adding a type annotation"]⟩
  | .typeMismatch span₁ span₂ content₁ content₂ =>
    ⟨"Type mismatch",
      [⟨s!"Type '{content₁.render}' here", .yellow, span₁⟩,
       ⟨s!"Type '{content₂.render}' here", .yellow, span₂⟩], []⟩
  | .cannotApplyUnary span op ty =>
    ⟨s!"Cannot apply operator '{op.symbol}' to type '{ty.name}'",
      [⟨s!"Cannot apply this operator to type '{ty.name}'", .yellow, span⟩], []⟩
  | .cannotApplyBinary span op ty₁ ty₂ =>
    ⟨s!"Cannot apply binary operator '{op.symbol}' to types '{ty₁.name}' and '{ty₂.name}'",
      [⟨s!"Cannot apply this operator to types '{ty₁.name}' and '{ty₂.name}'", .yellow, span⟩],
      []⟩

namespace Diagnostic

mutual
/-- The reports of a diagnostic, in order. -/
def reports : Diagnostic → List Report
  | .one p => [p.report]
  | .many members => reportsList members
/-- The reports of all members, in order. -/
def reportsList : List Diagnostic → List Report
  | [] => []
  | d :: rest => d.reports ++ reportsList rest
end

end Diagnostic

namespace Report

/-- The report as lines: a headline with the code, a line for each label, a line for each
note. -/
def render (r : Report) (code : Int) (source path : String) : String :=
  let labelLine (l : Label) : String :=
    let place := Position.ofOffset source l.span.start
    let location := s!"  --> {path}:{place.line}:{place.column}"
    if l.text.isEmpty then location else s!"{location}: {l.text}"
  "\n".intercalate
    (s!"error[E{code}]: {r.message}" :: (r.labels.map labelLine ++ r.notes.map ("  = " ++ ·)))

/-- The report as a JSON object. The first label gives its line and column. -/
def toJson (r : Report) (code : Int) (phase source path : String) : Json :=
  let labelJson (l : Label) : Json :=
    let place := Position.ofOffset source l.span.start
    .obj [("text", .str l.text), ("color", .str l.color.name), ("start", .int l.span.start),
      ("end", .int l.span.stop), ("line", .int place.line), ("column", .int place.column)]
  let place := r.labels.head?.map fun l => Position.ofOffset source l.span.start
  .obj [("phase", .str phase), ("code", .int code), ("message", .str r.message),
    ("severity", .str "error"), ("file", .str path),
    ("line", place.elim .null (.int ·.line)), ("column", place.elim .null (.int ·.column)),
    ("labels", .arr (r.labels.map labelJson)), ("notes", .arr (r.notes.map .str))]

end Report

end NumCheck
