import NumCheck.Number.Binary64

/-!
# Writing numbers with six digits

A number is written with the six significant digits nearest to its exact value, a tie
going to the even last digit, and without the zeros at the end of a fraction. It is
written in exponent form if its first digit, after rounding, stands for less than
`10 ^ -4` or for `10 ^ 6` or more.

A finite nonzero number is at least `2 ^ -1074`, so that `10 ^ 329` times its magnitude
has six digits before the point: with that scale all exponents are natural numbers.
-/

namespace NumCheck.Binary64

/-- The six leading digits, as a number of six digits, and the power of ten that the
first of them counts, of a finite nonzero number. Rounding up to seven digits moves on
to the next power. -/
def leadingDigits (x : Binary64) : Nat × Int :=
  let scaled := x.units * Nat.pow 10 329
  let power := decimalLog (scaled / Nat.pow 2 1074)
  let digits := roundDiv scaled (Nat.pow 2 1074 * Nat.pow 10 (power - 5))
  if digits = Nat.pow 10 6 then (Nat.pow 10 5, power + 1 - 329) else (digits, power - 329)

/-- Digits without the zeros at their end. -/
def dropZeros (digits : List Char) : List Char := (digits.reverse.dropWhile (· == '0')).reverse

/-- Digits before and after a point; the point is left out with nothing after it. -/
def joinPoint (whole fraction : List Char) : List Char :=
  if fraction.isEmpty then whole else whole ++ '.' :: fraction

/-- The digits with the point where the first digit counts `10 ^ power`. -/
def positional (digits : List Char) : (power : Int) → List Char
  | .ofNat n => joinPoint (digits.take (n + 1)) (dropZeros (digits.drop (n + 1)))
  | .negSucc n => joinPoint ['0'] (List.replicate n '0' ++ dropZeros digits)

/-- The exponent with its sign and at least two digits. -/
def exponentText (power : Int) : List Char :=
  let digits := Nat.toDigits 10 power.natAbs
  (if power < 0 then '-' else '+') :: (List.replicate (2 - digits.length) '0' ++ digits)

/-- One digit before the point, and the exponent. -/
def scientific (digits : List Char) (power : Int) : List Char :=
  joinPoint (digits.take 1) (dropZeros (digits.drop 1)) ++ 'e' :: exponentText power

/-- Digits, the first of which counts `10 ^ power`, in the form that they have there. -/
def writeDigits (digits : List Char) (power : Int) : List Char :=
  if power < -4 ∨ 6 ≤ power then scientific digits power else positional digits power

/-- The magnitude of a finite nonzero number. -/
def magnitudeText (x : Binary64) : List Char :=
  writeDigits (Nat.toDigits 10 x.leadingDigits.1) x.leadingDigits.2

/-- The text of a number. A NaN has no sign. -/
def render (x : Binary64) : String :=
  if x.isNaN then "nan"
  else
    let magnitude :=
      if !x.isFinite then "inf" else if x.units = 0 then "0" else String.ofList x.magnitudeText
    if x.isNegative then "-" ++ magnitude else magnitude

end NumCheck.Binary64
