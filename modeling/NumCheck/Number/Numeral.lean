import NumCheck.Number.Binary64

/-!
# Reading numerals

A numeral of the language is a run of digits, or two of them with a point between. It
denotes a rational number, and its value is the `Binary64` nearest to that.
-/

namespace NumCheck

/-- The number that a run of the digits `0` to `9` denotes. -/
def digitsValue (digits : List Char) : Nat :=
  digits.foldl (fun n c => 10 * n + (c.toNat - '0'.toNat)) 0

namespace Binary64

/-- The number nearest to `whole.fraction`, both given by their digits. -/
def ofDigits (whole fraction : List Char) : Binary64 :=
  ofRatio (digitsValue (whole ++ fraction)) (Nat.pow 10 fraction.length)

/-- The value of a numeral: what stands before its point, and what stands after. -/
def ofNumeral (text : List Char) : Binary64 :=
  ofDigits (text.takeWhile Char.isDigit) ((text.dropWhile Char.isDigit).drop 1)

end Binary64

end NumCheck
