/-!
# Spans

A span is a half-open range `[start, stop)` of a source text. Offsets count
characters. Spans are made by the parser, from the bounds of tokens, and are only
copied after that.
-/

namespace NumCheck

/-- The characters of a source from offset `start` up to, not including, offset `stop`. -/
structure Span where
  /-- The offset of the first character. -/
  start : Nat := 0
  /-- The offset just after the last character. -/
  stop : Nat := 0
  deriving DecidableEq, Repr, Inhabited

namespace Span

/-- A pair of bounds that no span has. -/
structure BoundsError where
  /-- The lower bound that was asked for. -/
  start : Int
  /-- The upper bound that was asked for. -/
  stop : Int
  deriving DecidableEq, Repr

/-- What is said of bounds that no span has. -/
def BoundsError.message (e : BoundsError) : String :=
  s!"invalid span ({e.start}, {e.stop})"

/-- The span with the given bounds: they are in order and none is negative. -/
def ofBounds (start stop : Int) : Except BoundsError Span :=
  if 0 ≤ start ∧ start ≤ stop then .ok ⟨start.toNat, stop.toNat⟩ else .error ⟨start, stop⟩

/-- The slice of `source` that the span covers; what lies outside of the source is cut. -/
def text (s : Span) (source : String) : String :=
  String.ofList ((source.toList.take s.stop).drop s.start)

/-- The short form, `1..4`. -/
def render (s : Span) : String := s!"{s.start}..{s.stop}"

/-- The long form, with the names of the bounds. -/
def renderFields (s : Span) : String := s!"Span(start={s.start}, end={s.stop})"

end Span

end NumCheck
