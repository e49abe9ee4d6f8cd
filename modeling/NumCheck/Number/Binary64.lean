import NumCheck.Number.Rounding

/-!
# Double-precision numbers

A `Binary64` is a number in the 64-bit format of IEEE 754, kept as its bits: the
sign, eleven bits of exponent, and the 52 bits of the significand that follow its
leading one. Nothing here computes with hardware floating point. Every finite number
is a whole multiple of `2 ^ -1074`, the least positive number of the format, so its
magnitude is the natural number `units`.

Read as natural numbers, the bits of the nonnegative numbers are in the order of
their values, and infinity comes just after the largest finite number. So a
significand that is rounded up to the next power of two, with its carry into the
exponent, needs no case of its own in `ofRatio`.
-/

namespace NumCheck

/-- A double-precision number, by its bits. -/
structure Binary64 where
  /-- Sign, exponent and significand, from the highest bit down. -/
  bits : UInt64
  deriving DecidableEq, Repr

namespace Binary64

/-- The bits as a natural number. -/
def code (x : Binary64) : Nat := x.bits.toNat

/-- The sign bit is set. -/
def isNegative (x : Binary64) : Bool := x.code / Nat.pow 2 63 % 2 == 1

/-- The eleven bits of the exponent: 0 for subnormal numbers, 2047 for what is not finite. -/
def exponentField (x : Binary64) : Nat := x.code / Nat.pow 2 52 % Nat.pow 2 11

/-- The 52 stored bits of the significand. -/
def fraction (x : Binary64) : Nat := x.code % Nat.pow 2 52

/-- Neither infinite nor a NaN. -/
def isFinite (x : Binary64) : Bool := x.exponentField != 2047

/-- Not a number. -/
def isNaN (x : Binary64) : Bool := x.exponentField == 2047 && x.fraction != 0

/-- The magnitude of a finite number in units of `2 ^ -1074`. -/
def units (x : Binary64) : Nat :=
  if x.exponentField = 0 then x.fraction
  else (Nat.pow 2 52 + x.fraction) * Nat.pow 2 (x.exponentField - 1)

/-- The bits of positive infinity. -/
def infinityCode : Nat := 2047 * Nat.pow 2 52

/-- Positive infinity. -/
def infinity : Binary64 := ⟨infinityCode.toUInt64⟩

/-- The NaN that has only the highest bit of the significand. -/
def nan : Binary64 := ⟨(infinityCode + Nat.pow 2 51).toUInt64⟩

/-- The number with the other sign. -/
def neg (x : Binary64) : Binary64 := ⟨x.bits ^^^ (Nat.pow 2 63).toUInt64⟩

/-- The bits of the number nearest to `num / den`, a tie going to the even significand,
and those of infinity from the midpoint above the largest finite number on.

In units of `2 ^ -1074` the quotient is `num * 2 ^ 1074 / den`. A significand has 53 bits,
so the last of them counts `2 ^ shift` units, where `shift` is how far the quotient is
longer than that; the subtraction stops at 0, which is the subnormal range. -/
def codeOfRatio (num den : Nat) : Nat :=
  let scaled := num * Nat.pow 2 1074
  let shift := (scaled / den).log2 - 52
  let significand := roundDiv scaled (den * Nat.pow 2 shift)
  min (shift * Nat.pow 2 52 + significand) infinityCode

/-- The number nearest to `num / den`. -/
def ofRatio (num den : Nat) : Binary64 := ⟨(codeOfRatio num den).toUInt64⟩

end Binary64

end NumCheck
