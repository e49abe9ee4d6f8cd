import NumCheck.Span
import NumCheck.Ty

/-!
# Slots

A slot holds what is known about one type while a program is checked: nothing yet, that
it is the type of another slot, or the type itself.
-/

namespace NumCheck

/-- The number of a slot. Slots are numbered from 1; a link may name any number. -/
abbrev SlotId := Int

/-- What a slot holds. -/
inductive Content where
  /-- Nothing is known yet. -/
  | unknown
  /-- The same type as in slot `target`. -/
  | link (target : SlotId)
  /-- The type `ty`. -/
  | known (ty : Ty)
  /-- No content at all. The checker never makes such a slot. -/
  | absent
  deriving DecidableEq, Repr

/-- How a content is written. -/
def Content.render : Content → String
  | .unknown => "Unknown"
  | .link target => s!"Ref({target})"
  | .known ty => ty.name
  | .absent => "None"

/-- The long form of a content, with the names of its parts and the given texts for types. -/
def Content.renderFields (typeText : Ty → String) : Content → String
  | .unknown => "Unknown()"
  | .link target => s!"Ref(target={target})"
  | .known ty => s!"Known(ty={typeText ty})"
  | .absent => "None"

/-- A content, and the span of the expression or name that it is about. -/
structure Slot where
  /-- What is known. -/
  content : Content
  /-- What it is known of. -/
  span : Span
  deriving DecidableEq, Repr

/-- How a slot is written, `Num@4..5`. -/
def Slot.render (s : Slot) : String := s!"{s.content.render}@{s.span.render}"

end NumCheck
