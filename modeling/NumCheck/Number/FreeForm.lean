import NumCheck.Number.Numeral
import NumCheck.Text.Digit

/-!
# Reading numbers in free form

Trees that come from elsewhere give their numbers as texts of a wider form than the
language's numerals: blanks around, a sign, digits of any script with single low lines
between them, a point with digits on one side at least, an exponent, and the words for
infinity and not-a-number in any case.

A text whose exponent puts it far outside the range of a `Binary64` is decided by the
place of its first digit, so the power of ten stays small.
-/

namespace NumCheck.Binary64

/-- Low lines may only stand between two digits; they are taken out. -/
def dropSeparators : (afterDigit : Bool) → List Char → Option (List Char)
  | _, [] => some []
  | afterDigit, '_' :: rest =>
    if afterDigit && (rest.head?.any Char.isDigit) then dropSeparators false rest else none
  | _, c :: rest => (dropSeparators c.isDigit rest).map (c :: ·)

/-- A magnitude written with digits, a point and an exponent of ten: `digits` are those on
both sides of the point, and the value is `0.digits` times ten to the power `point`. -/
def ofScientific (digits : List Char) (point : Int) : Binary64 :=
  let significant := digits.dropWhile (· == '0')
  let leading := point - (digits.length - significant.length : Nat)
  if significant.isEmpty then ofRatio 0 1
  else if leading > 310 then infinity
  else if leading < -330 then ofRatio 0 1
  else
    let exponent := leading - significant.length
    ofRatio (digitsValue significant * Nat.pow 10 exponent.toNat) (Nat.pow 10 (-exponent).toNat)

/-- An exponent: nothing, or the letter, a sign and digits. -/
def exponent? : List Char → Option Int
  | [] => some 0
  | c :: rest =>
    if c == 'e' || c == 'E' then
      let (negative, digits) := match rest with
        | '-' :: ds => (true, ds)
        | '+' :: ds => (false, ds)
        | ds => (false, ds)
      if digits.isEmpty || !digits.all Char.isDigit then none
      else some (if negative then -(digitsValue digits : Int) else digitsValue digits)
    else none

/-- A magnitude: a word, or digits with an optional point and exponent. -/
def magnitude? (text : List Char) : Option Binary64 :=
  let word := String.ofList (text.map Char.toLower)
  if word == "inf" || word == "infinity" then some infinity
  else if word == "nan" then some nan
  else
    let whole := text.takeWhile Char.isDigit
    let rest := text.dropWhile Char.isDigit
    let (fraction, rest) := match rest with
      | '.' :: after => (after.takeWhile Char.isDigit, after.dropWhile Char.isDigit)
      | after => ([], after)
    if whole.isEmpty && fraction.isEmpty then none
    else (exponent? rest).map fun e => ofScientific (whole ++ fraction) (whole.length + e)

/-- The number that a text in free form denotes, if it is one. -/
def ofText? (text : String) : Option Binary64 :=
  let plain := text.toList.map fun c =>
    match Text.digitValue? c with
    | some n => Char.ofNat ('0'.toNat + n)
    | none => c
  let trimmed := ((plain.dropWhile Text.isBlank).reverse.dropWhile Text.isBlank).reverse
  (dropSeparators false trimmed).bind fun
    | '-' :: rest => (magnitude? rest).map neg
    | '+' :: rest => magnitude? rest
    | rest => magnitude? rest

end NumCheck.Binary64
