/-!
# Operators

The operators that the language knows. In a source an operator is only a symbol; the
checker turns symbols into these.
-/

namespace NumCheck

/-- An operator before its operand. -/
inductive UnaryOp where
  /-- Negation, `-`. -/
  | neg
  deriving DecidableEq, Repr

/-- An operator between its operands. -/
inductive BinaryOp where
  /-- Sum, `+`. -/
  | add
  /-- Difference, `-`. -/
  | sub
  /-- Product, `*`. -/
  | mul
  /-- Quotient, `/`. -/
  | div
  deriving DecidableEq, Repr

namespace UnaryOp

/-- How the operator is written. -/
def symbol : UnaryOp → String
  | .neg => "-"

/-- The operator that is written so. -/
def ofSymbol? (s : String) : Option UnaryOp :=
  if s = "-" then some .neg else none

end UnaryOp

namespace BinaryOp

/-- How the operator is written. -/
def symbol : BinaryOp → String
  | .add => "+"
  | .sub => "-"
  | .mul => "*"
  | .div => "/"

/-- The operator that is written so. -/
def ofSymbol? (s : String) : Option BinaryOp :=
  if s = "+" then some .add
  else if s = "-" then some .sub
  else if s = "*" then some .mul
  else if s = "/" then some .div
  else none

end BinaryOp

/-- An operator of either kind. -/
inductive Operation where
  /-- One that takes one operand. -/
  | unary (op : UnaryOp)
  /-- One that takes two operands. -/
  | binary (op : BinaryOp)
  deriving DecidableEq, Repr

/-- How the operator is written. -/
def Operation.symbol : Operation → String
  | .unary op => op.symbol
  | .binary op => op.symbol

end NumCheck
