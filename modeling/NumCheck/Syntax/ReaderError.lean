import NumCheck.Diagnostic
import NumCheck.Syntax.Terminal

/-!
# Errors of other readers

A source can also be refused by a reader other than the parser, which then says what it
knows: the token or character it stopped at, with a position or without one, and the names
of the terminals it would have taken. Such an error becomes a problem like any other, if its
position is one.
-/

namespace NumCheck

/-- How a reader says that it cannot go on. -/
inductive ReaderError where
  /-- It stopped at a token. The kind `$END` stands for the end of the input. -/
  | token (kind text : String) (start stop : Option Int) (expected : List String)
  /-- It stopped at a character that starts no token. -/
  | character (position : Int) (text : String) (expected : List String)
  /-- It stopped at the end of the input. -/
  | endOfInput (expected : List String)
  /-- It stopped for a reason of its own. -/
  | other (position : Option Int) (message : String)
  deriving DecidableEq, Repr

namespace ReaderError

/-- The problem with the given bounds, if they are those of a span. -/
def atBounds (start stop : Int) (problem : Span → Problem) : Except Span.BoundsError Problem :=
  (Span.ofBounds start stop).map problem

/-- The problem of a reader's error. A token without a start stands at the start of the
source, one without an end is empty; a reason without a position, or with a negative one,
is at the start. -/
def problem (source : String) : ReaderError → Except Span.BoundsError Problem
  | .token kind text start stop expected =>
    if kind = Terminal.endOfInput.label then
      .ok (.expectedFound ⟨source.length, source.length⟩ (Terminal.describeLabels expected) none)
    else
      let start := start.getD 0
      atBounds start (stop.getD start) fun span =>
        .expectedFound span (Terminal.describeLabels expected) (some text)
  | .character position text expected =>
    atBounds position (min (position + 1) source.length) fun span =>
      .expectedFound span (Terminal.describeLabels expected) (some text)
  | .endOfInput expected =>
    .ok (.expectedFound ⟨source.length, source.length⟩ (Terminal.describeLabels expected) none)
  | .other position message =>
    let position := (position.getD 0).toNat
    .ok (.custom ⟨position, position⟩ message)

end ReaderError

end NumCheck
