import NumCheck.Operator
import NumCheck.Slot

/-!
# Diagnostics

What can be wrong with a program. A *problem* is one thing, with all that is needed to
report it. A *diagnostic* is a problem or a group of diagnostics. Each problem has a code,
which becomes the exit status of the command; a group has the highest code in it.
-/

namespace NumCheck

/-- One thing that is wrong with a program. -/
inductive Problem where
  /-- At `span` stands `found`, or the end of the input, where only `expected` can stand. -/
  | expectedFound (span : Span) (expected : List String) (found : Option String)
  /-- Anything that a message says. -/
  | custom (span : Span) (message : String)
  /-- The variable is not bound where it is used. -/
  | undefinedVariable (name : String) (span : Span)
  /-- Nothing determines the type of an expression. -/
  | cannotInferType (span : Span)
  /-- Two types that should be the same are not. -/
  | typeMismatch (span₁ span₂ : Span) (content₁ content₂ : Content)
  /-- There is no rule for the operator at `span` and the type of its operand. -/
  | cannotApplyUnary (span : Span) (op : Operation) (ty : Ty)
  /-- There is no rule for the operator at `span` and the types of its operands. -/
  | cannotApplyBinary (span : Span) (op : Operation) (ty₁ ty₂ : Ty)
  deriving DecidableEq, Repr

/-- The code of a problem. -/
def Problem.code : Problem → Nat
  | .custom .. => 0
  | .expectedFound .. => 1
  | .undefinedVariable .. => 2
  | .cannotInferType .. => 3
  | .typeMismatch .. => 4
  | .cannotApplyUnary .. => 5
  | .cannotApplyBinary .. => 6

/-- One problem, or a group. -/
inductive Diagnostic where
  /-- One problem. -/
  | one (p : Problem)
  /-- A group, in order. It may be empty. -/
  | many (members : List Diagnostic)
  deriving Repr

namespace Diagnostic

mutual
/-- The problems, in order. -/
def leaves : Diagnostic → List Problem
  | .one p => [p]
  | .many members => leavesList members
/-- The problems of all members, in order. -/
def leavesList : List Diagnostic → List Problem
  | [] => []
  | d :: rest => d.leaves ++ leavesList rest
end

mutual
/-- The code of a problem, or the highest code in a group. -/
def code : Diagnostic → Nat
  | .one p => p.code
  | .many members => codeList members
/-- The highest code of the members, and 0 if there are none. -/
def codeList : List Diagnostic → Nat
  | [] => 0
  | d :: rest => max d.code (codeList rest)
end

/-- The exit status: the code, but never 0. -/
def exitStatus (d : Diagnostic) : Nat := if d.code = 0 then 1 else d.code

/-- One diagnostic out of a list: a single one stays as it is, more than one are a group. -/
def combine : List Diagnostic → Option Diagnostic
  | [] => none
  | [d] => some d
  | ds => some (.many ds)

end Diagnostic

end NumCheck
