import NumCheck.Json

/-!
# Reading JSON

The value that a JSON text stands for. The text is read once, character by character. Lists and
objects that are open stand on a stack with what they have so far, and a value waits until the mark
after it says where it belongs. Between marks, words and strings there may be any blanks. All escapes
of the format are read in strings, and two UTF-16 units that are a pair make one character.

The reader knows the values that `Json` has. `true`, `false`, fractions and exponents are refused,
and so is half of a pair of units, which is no character. A number may begin with zeros, which the
format forbids. An object keeps all its fields in order, also those with the same name.
-/

namespace NumCheck.Json

/-- A character that may stand between the parts of a text. -/
def isBlank (c : Char) : Bool := c == ' ' || c == '\t' || c == '\n' || c == '\r'

/-- A character of a number or of `null`. -/
def isWordPart (c : Char) : Bool := c == '-' || c.isDigit || c.isLower

/-- The number that digits stand for. -/
def natural? (digits : List Char) : Option Nat :=
  if digits ≠ [] ∧ digits.all Char.isDigit then some (Nat.ofDigitChars 10 digits 0) else none

/-- The value that a word stands for. -/
def ofWord? (word : List Char) : Option Json :=
  match natural? word, word with
  | some n, _ => some (.int n)
  | none, '-' :: digits => (natural? digits).map fun (n : Nat) => .int (-(n : Int))
  | none, ['n', 'u', 'l', 'l'] => some .null
  | none, _ => none

/-- The character that a letter stands for after a backslash. -/
def unescape? (c : Char) : Option Char :=
  if c == '"' || c == '\\' || c == '/' then some c
  else if c == 'n' then some '\n'
  else if c == 'r' then some '\r'
  else if c == 't' then some '\t'
  else if c == 'b' then some '\x08'
  else if c == 'f' then some '\x0c'
  else none

/-- The characters that units stand for. A character beyond UTF-16 may also be one unit. -/
def ofUnits? : List Nat → Option (List Char)
  | [] => some []
  | high :: rest =>
    if 0xd800 ≤ high ∧ high < 0xdc00 then
      match rest with
      | [] => none
      | low :: rest =>
        if 0xdc00 ≤ low ∧ low < 0xe000 then
          (ofUnits? rest).map
            (Char.ofNat (0x10000 + (high - 0xd800) * 0x400 + (low - 0xdc00)) :: ·)
        else none
    else if 0xdc00 ≤ high ∧ high < 0xe000 then none
    else (ofUnits? rest).map (Char.ofNat high :: ·)

namespace Reader

/-- A list or an object that is being read, with what it has so far, the latest first. -/
inductive Opened where
  /-- A list, before an item. -/
  | items (done : List Json)
  /-- An object, before a name. -/
  | fields (done : List (String × Json))
  /-- An object, before the value of a name. -/
  | field (name : String) (done : List (String × Json))

/-- What has been read. -/
structure Progress where
  /-- The value that was read last, if it has no place yet. -/
  value : Option Json := none
  /-- What is open, the innermost first. -/
  opened : List Opened := []

namespace Progress

/-- Put down a value that has been read. There must not be one already. -/
def give (p : Progress) (v : Json) : Option Progress :=
  match p.value with
  | none => some { p with value := some v }
  | some _ => none

/-- Read one of the marks that values stand between. -/
def mark (p : Progress) (c : Char) : Option Progress :=
  match c, p with
  | '[', ⟨none, opened⟩ => some ⟨none, .items [] :: opened⟩
  | ']', ⟨none, .items [] :: opened⟩ => some ⟨some (.arr []), opened⟩
  | ']', ⟨some v, .items done :: opened⟩ => some ⟨some (.arr (v :: done).reverse), opened⟩
  | '\x7b', ⟨none, opened⟩ => some ⟨none, .fields [] :: opened⟩
  | '\x7d', ⟨none, .fields [] :: opened⟩ => some ⟨some (.obj []), opened⟩
  | '\x7d', ⟨some v, .field name done :: opened⟩ =>
    some ⟨some (.obj ((name, v) :: done).reverse), opened⟩
  | ',', ⟨some v, .items done :: opened⟩ => some ⟨none, .items (v :: done) :: opened⟩
  | ',', ⟨some v, .field name done :: opened⟩ => some ⟨none, .fields ((name, v) :: done) :: opened⟩
  | ':', ⟨some (.str name), .fields done :: opened⟩ => some ⟨none, .field name done :: opened⟩
  | _, _ => none

end Progress

/-- Where in a text the reader is. Letters and units that have been read are the latest first. -/
inductive State where
  /-- Between marks, words and strings. -/
  | between (p : Progress)
  /-- In a word. -/
  | word (p : Progress) (letters : List Char)
  /-- In a string. -/
  | text (p : Progress) (units : List Nat)
  /-- In a string, after a backslash. -/
  | escape (p : Progress) (units : List Nat)
  /-- In a unit of which there is the number `n`, with `left` more digits after the next one. -/
  | unit (p : Progress) (units : List Nat) (left n : Nat)

namespace State

/-- What has been read if nothing more belongs to the last word. -/
def settle : State → Option Progress
  | .between p => some p
  | .word p letters => (ofWord? letters.reverse).bind p.give
  | .text .. | .escape .. | .unit .. => none

/-- Read the first character after what has been read. -/
def start (p : Progress) (c : Char) : Option State :=
  if isBlank c then some (.between p)
  else if c == '"' then some (.text p [])
  else if isWordPart c then some (.word p [c])
  else (p.mark c).map .between

/-- Read a character. -/
def step (s : State) (c : Char) : Option State :=
  match s with
  | .between p => start p c
  | .word p letters =>
    if isWordPart c then some (.word p (c :: letters)) else s.settle.bind (start · c)
  | .text p units =>
    if c == '"' then do
      let characters ← ofUnits? units.reverse
      let p ← p.give (.str (String.ofList characters))
      return .between p
    else if c == '\\' then some (.escape p units)
    else if c.toNat < 0x20 then none
    else some (.text p (c.toNat :: units))
  | .escape p units =>
    if c == 'u' then some (.unit p units 3 0)
    else (unescape? c).map fun e => .text p (e.toNat :: units)
  | .unit p units left n =>
    (Text.hexValue? c).map fun digit =>
      match left with
      | 0 => .text p ((16 * n + digit) :: units)
      | left + 1 => .unit p units left (16 * n + digit)

/-- Read characters. -/
def run (s : State) (cs : List Char) : Option State := cs.foldlM step s

/-- The value that has been read, at the end of a text. -/
def finish (s : State) : Option Json :=
  match s.settle with
  | some ⟨some v, []⟩ => some v
  | _ => none

end State

end Reader

/-- The value that a text stands for. -/
def read? (text : String) : Option Json :=
  ((Reader.State.between {}).run text.toList).bind Reader.State.finish

end NumCheck.Json
