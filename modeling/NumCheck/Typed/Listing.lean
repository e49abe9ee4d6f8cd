import NumCheck.Number.SixDigits
import NumCheck.Typed.Basic

/-!
# Listings of typed trees

A typed program is written as a list of lines, in parenthesised form, with the type after
each expression. A block takes a line for its head, its statements indented by two blanks,
and a line for its closing parenthesis; any other statement takes one line.
-/

namespace NumCheck.Typed

/-- A node of a kind that does not belong where it stands. -/
inductive Stray where
  /-- It stands for a statement. -/
  | stmt (kind : String)
  /-- It stands for an expression. -/
  | expr (kind : String)
  deriving DecidableEq, Repr

/-- What is said of a node that does not belong where it stands. -/
def Stray.message : Stray → String
  | .stmt kind => s!"unexpected typed statement: {kind}"
  | .expr kind => s!"unexpected typed expression: {kind}"

/-- The text of an expression and its type. -/
def Expr.listing : Expr → Except Stray String
  | .var name ty _ => return s!"{name.name}: {ty.name}"
  | .literal value ty _ => return s!"{value.render}: {ty.name}"
  | .prefixed op _ operand ty _ => do
    return s!"({op.symbol} {← operand.listing}): {ty.name}"
  | .binary op _ lhs rhs ty _ => do
    return s!"({op.symbol} {← lhs.listing} {← rhs.listing}): {ty.name}"
  | .stray kind => throw (.expr kind)

/-- The indentation inside of `depth` blocks. -/
def indent (depth : Nat) : String := String.ofList (List.replicate (2 * depth) ' ')

mutual
/-- The lines of a statement that stands inside of `depth` blocks. -/
def Stmt.listing (depth : Nat) : Stmt → Except Stray (List String)
  | .expr e _ => return [indent depth ++ (← e.listing)]
  | .block statements _ => do
    let lines ← Stmt.listingList (depth + 1) statements
    return (indent depth ++ "(block") :: (lines ++ [indent depth ++ ")"])
  | .bind name value _ => return [indent depth ++ s!"(let {name.name} {← value.listing})"]
  | .print e _ => return [indent depth ++ s!"(print {← e.listing})"]
  | .stray kind => throw (.stmt kind)
/-- The lines of a list of statements. -/
def Stmt.listingList (depth : Nat) : List Stmt → Except Stray (List String)
  | [] => return []
  | s :: rest => return (← s.listing depth) ++ (← Stmt.listingList depth rest)
end

/-- The listing of statements at top level, its lines joined by line feeds. -/
def listing (statements : List Stmt) : Except Stray String :=
  return "\n".intercalate (← Stmt.listingList 0 statements)

/-- The listing of a program. -/
def Program.listing (p : Program) : Except Stray String := Typed.listing p.statements

end NumCheck.Typed
