/-!
# Line and column

Reports name a place by line and column, both counted from 1. Only a line feed ends
a line. An offset outside of the source counts as the nearer end of it.
-/

namespace NumCheck

/-- A place in a text. -/
structure Position where
  /-- The line, from 1. -/
  line : Nat
  /-- The column, from 1. -/
  column : Nat
  deriving DecidableEq, Repr

namespace Position

/-- Where the text `before` ends: after its last line feed the column starts over. -/
def after (before : List Char) : Position where
  line := before.count '\n' + 1
  column := (before.reverse.takeWhile (· != '\n')).length + 1

/-- The place of an offset. A negative offset counts as the start of the source; `take`
cuts one that lies past its end. -/
def ofOffset (source : String) (offset : Int) : Position :=
  after (source.toList.take offset.toNat)

end Position

end NumCheck
