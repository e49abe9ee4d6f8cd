/-!
# Text from bytes

A source is stored as UTF-8. Line ends of other systems, a carriage return with or without
a line feed after it, are read as line feeds.
-/

namespace NumCheck.Text

/-- Every carriage return becomes a line feed, together with a line feed that follows it. -/
def unifyLineEnds : List Char → List Char
  | [] => []
  | '\r' :: '\n' :: rest => '\n' :: unifyLineEnds rest
  | '\r' :: rest => '\n' :: unifyLineEnds rest
  | c :: rest => c :: unifyLineEnds rest

/-- The text of bytes that are UTF-8, with its line ends unified. -/
def ofBytes? (bytes : ByteArray) : Option String :=
  (String.fromUTF8? bytes).map fun s => String.ofList (unifyLineEnds s.toList)

end NumCheck.Text
