import NumCheck.Text.Hex
import NumCheck.Text.Printable

/-!
# Quoted text

A text is shown between quotes so that its ends and its unprintable characters can be
seen. The quotes are single, unless the text has a single quote and no double one. A
backslash and the quote itself are escaped by a backslash; line feed, carriage return
and tab have letters; any other unprintable character is given by its code point.
-/

namespace NumCheck.Text.Quoted

/-- The quote that a text takes. -/
def quoteOf (text : List Char) : Char :=
  if text.contains '\'' && !text.contains '"' then '"' else '\''

/-- A character as it stands between quotes of the given kind. -/
def escape (quote c : Char) : List Char :=
  if c == quote || c == '\\' then ['\\', c]
  else if c == '\n' then ['\\', 'n']
  else if c == '\r' then ['\\', 'r']
  else if c == '\t' then ['\\', 't']
  else if isPrintable c then [c]
  else if c.toNat < 0x100 then '\\' :: 'x' :: hex 2 c.toNat
  else if c.toNat < 0x10000 then '\\' :: 'u' :: hex 4 c.toNat
  else '\\' :: 'U' :: hex 8 c.toNat

end Quoted

/-- The text between quotes. -/
def quote (text : String) : String :=
  let q := Quoted.quoteOf text.toList
  String.ofList (q :: (text.toList.flatMap (Quoted.escape q) ++ [q]))

end NumCheck.Text
