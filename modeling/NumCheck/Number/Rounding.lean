/-!
# Rounding a quotient

`roundDiv n d` is the whole number nearest to `n / d`; of two that are equally near
it is the even one. It is what reading a numeral and writing a number share.
-/

namespace NumCheck

/-- The whole number nearest to `n / d`, the even one in a tie. -/
def roundDiv (n d : Nat) : Nat :=
  let q := n / d
  let r := n % d
  if 2 * r < d then q
  else if d < 2 * r then q + 1
  else q + q % 2

/-- The exponent of the largest power of ten that is not above `n`, and `0` for `0`. -/
def decimalLog (n : Nat) : Nat :=
  if n < 10 then 0 else decimalLog (n / 10) + 1
  termination_by n

end NumCheck
