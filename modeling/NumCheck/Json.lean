import NumCheck.Text.Hex

/-!
# JSON

Values of the JSON format, and their text: on one line, with a blank after each comma and
colon, fields in the order given. The text has the printable characters of ASCII only: other
characters, DEL and the controls among them, are escaped, by their UTF-16 units where they have no
letter.
-/

namespace NumCheck

/-- A JSON value. -/
inductive Json where
  /-- The null value. -/
  | null
  /-- A whole number. -/
  | int (n : Int)
  /-- A text. -/
  | str (s : String)
  /-- A list of values. -/
  | arr (items : List Json)
  /-- Named values, in order. -/
  | obj (fields : List (String × Json))
  deriving Repr

namespace Json

/-- The UTF-16 units of a character. -/
def units (c : Char) : List Nat :=
  if c.toNat < 0x10000 then [c.toNat]
  else [0xd800 + (c.toNat - 0x10000) / 0x400, 0xdc00 + (c.toNat - 0x10000) % 0x400]

/-- A character as it stands in a JSON text. -/
def escape (c : Char) : List Char :=
  if c == '"' then ['\\', '"']
  else if c == '\\' then ['\\', '\\']
  else if c == '\n' then ['\\', 'n']
  else if c == '\r' then ['\\', 'r']
  else if c == '\t' then ['\\', 't']
  else if c == '\x08' then ['\\', 'b']
  else if c == '\x0c' then ['\\', 'f']
  else if 0x20 ≤ c.toNat && c.toNat < 0x7f then [c]
  else (units c).flatMap fun n => '\\' :: 'u' :: Text.hex 4 n

/-- A text between its quotes. -/
def quote (s : String) : String := "\"" ++ String.ofList (s.toList.flatMap escape) ++ "\""

mutual
/-- The text of a value. -/
def render : Json → String
  | .null => "null"
  | .int n => toString n
  | .str s => quote s
  | .arr items => "[" ++ ", ".intercalate (renderList items) ++ "]"
  | .obj fields => "\x7b" ++ ", ".intercalate (renderFields fields) ++ "\x7d"
/-- The texts of values. -/
def renderList : List Json → List String
  | [] => []
  | v :: rest => v.render :: renderList rest
/-- The texts of named values. -/
def renderFields : List (String × Json) → List String
  | [] => []
  | f :: rest => renderField f :: renderFields rest
/-- The text of a named value. -/
def renderField : String × Json → String
  | (name, v) => quote name ++ ": " ++ v.render
end

end Json

end NumCheck
