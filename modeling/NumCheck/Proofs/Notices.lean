import NumCheck.Report

/-!
# Notices

A report is written as lines of text or as a JSON object. The two are compared with a *notice*,
which is what a reader takes from either of them: the code, the message, the labels with their lines
and columns, and the notes. The text of a report is written from its notice alone, and from its JSON
object the notice is read back.

The phase, the severity and the file in the object are not part of a notice. An object is taken as a
value here; that its characters determine it is shown in `JsonText`.
-/

namespace NumCheck

/-! ### Reading JSON -/

namespace Json

/-- The value of a field. -/
def field? (name : String) : Json → Option Json
  | .obj fields => fields.lookup name
  | _ => none

/-- The number that a value is. -/
def nat? : Json → Option Nat
  | .int (.ofNat n) => some n
  | _ => none

@[simp] theorem nat?_int (n : Nat) : nat? (.int n) = some n := rfl

/-- The text that a value is. -/
def text? : Json → Option String
  | .str s => some s
  | _ => none

/-- The members of a list. -/
def items? : Json → Option (List Json)
  | .arr items => some items
  | _ => none

end Json

/-! ### What is shown of a problem -/

/-- What is said about a place. -/
structure Remark where
  /-- What is said; it may be empty. -/
  text : String
  /-- The place. -/
  place : Position
  deriving DecidableEq, Repr

/-- What is shown of a problem in every form. -/
structure Notice where
  /-- The code of the problem. -/
  code : Nat
  /-- The headline. -/
  message : String
  /-- Where to look. -/
  remarks : List Remark
  /-- What else there is to say. -/
  notes : List String
  deriving DecidableEq, Repr

/-- The place that the fields of an object name. -/
def Position.ofJson? (j : Json) : Option Position := do
  let line ← (← j.field? "line").nat?
  let column ← (← j.field? "column").nat?
  return ⟨line, column⟩

/-- The remark that an object is. -/
def Remark.ofJson? (j : Json) : Option Remark := do
  let text ← (← j.field? "text").text?
  let place ← Position.ofJson? j
  return ⟨text, place⟩

/-- The notice that an object is. Its own place has to be that of its first label. -/
def Notice.ofJson? (j : Json) : Option Notice := do
  let code ← (← j.field? "code").nat?
  let message ← (← j.field? "message").text?
  let remarks ← (← (← j.field? "labels").items?).mapM Remark.ofJson?
  let notes ← (← (← j.field? "notes").items?).mapM Json.text?
  if Position.ofJson? j = remarks.head?.map Remark.place then some ⟨code, message, remarks, notes⟩
  else none

/-- The line of a remark on a file. -/
def Remark.line (path : String) (r : Remark) : String :=
  let location := s!"  --> {path}:{r.place.line}:{r.place.column}"
  if r.text.isEmpty then location else s!"{location}: {r.text}"

/-- The lines of a notice on a file. -/
def Notice.text (path : String) (n : Notice) : String :=
  "\n".intercalate (s!"error[E{n.code}]: {n.message}" ::
    (n.remarks.map (Remark.line path) ++ n.notes.map ("  = " ++ ·))) ++ "\n"

/-- The notice of a problem with a source. -/
def Problem.notice (source : String) (q : Problem) : Notice where
  code := q.code
  message := q.report.message
  remarks := q.report.labels.map fun l => ⟨l.text, .ofOffset source l.span.start⟩
  notes := q.report.notes

/-! ### Text and JSON -/

/-- The text of a report is that of its notice. -/
theorem Problem.render_report (q : Problem) (source path : String) :
    q.report.render q.code source path ++ "\n" = (q.notice source).text path := by
  rw [Report.render, Notice.text, Problem.notice, List.map_map]
  rfl

theorem mapM_map_some {α β γ : Type} {f : α → β} {g : β → Option γ} {k : α → γ}
    (h : ∀ a, g (f a) = some (k a)) (l : List α) : (l.map f).mapM g = some (l.map k) := by
  have hcomp : g ∘ f = fun a => pure (k a) := funext h
  rw [List.mapM_map, hcomp, List.mapM_pure]
  rfl

/-- From the JSON object of a report its notice can be read back. -/
theorem Problem.notice_report (q : Problem) (phase source path : String) :
    Notice.ofJson? (q.report.toJson q.code phase source path) = some (q.notice source) := by
  generalize hj : q.report.toJson q.code phase source path = j
  have hcode : j.field? "code" = some (.int q.code) := by rw [← hj]; rfl
  have hmessage : j.field? "message" = some (.str q.report.message) := by rw [← hj]; rfl
  have hlabels : ∃ items, j.field? "labels" = some (.arr items) ∧
      items.mapM Remark.ofJson? = some (q.notice source).remarks := by
    rw [← hj]
    refine ⟨_, rfl, mapM_map_some ?_ _⟩
    exact fun l => rfl
  have hnotes : ∃ items, j.field? "notes" = some (.arr items) ∧
      items.mapM Json.text? = some (q.notice source).notes := by
    rw [← hj]
    refine ⟨_, rfl, ?_⟩
    rw [mapM_map_some (f := Json.str) (g := Json.text?) (k := id) fun _ => rfl, List.map_id]
    rfl
  have hplace : Position.ofJson? j = (q.notice source).remarks.head?.map Remark.place := by
    rw [← hj, Report.toJson, Problem.notice]
    cases q.report.labels with
    | nil => rfl
    | cons l rest => rfl
  obtain ⟨labels, hlabels, hremarks⟩ := hlabels
  obtain ⟨notes, hnotes, htexts⟩ := hnotes
  simp only [Notice.ofJson?, hcode, hmessage, hlabels, hnotes, Json.nat?_int, Json.text?, Json.items?,
    hremarks, htexts, Option.bind_eq_bind, Option.bind_some]
  rw [if_pos hplace]
  rfl

end NumCheck
