import NumCheck.Slot
import NumCheck.Typed.Basic

/-!
# The slots of a typed tree

Which slots a check makes for a program can be read off its typed tree: operands and values
get one each, after those of their own parts, and the name of a `let` gets a link to the slot
of its value.
-/

namespace NumCheck.Typed

/-- The slot of an expression that is an operand or a value. -/
def Expr.slot (e : Expr) : Slot := ⟨.known e.ty, e.span⟩

/-- The slots that an expression takes, in order. -/
def Expr.slots : Expr → List Slot
  | .var .. | .literal .. | .stray _ => []
  | .prefixed _ _ operand _ _ => operand.slots ++ [operand.slot]
  | .binary _ _ lhs rhs _ _ => lhs.slots ++ rhs.slots ++ [lhs.slot, rhs.slot]

mutual
/-- The slots that a statement takes after the first `size` ones. -/
def Stmt.slots (size : Nat) : Stmt → List Slot
  | .expr e _ | .print e _ => e.slots
  | .block statements _ => Stmt.slotsList size statements
  | .bind name value _ =>
    let own := value.slots ++ [value.slot]
    own ++ [⟨.link (size + own.length : Nat), name.span⟩]
  | .stray _ => []
/-- The slots that statements take after the first `size` ones. -/
def Stmt.slotsList (size : Nat) : List Stmt → List Slot
  | [] => []
  | s :: rest =>
    let own := s.slots size
    own ++ Stmt.slotsList (size + own.length) rest
end

end NumCheck.Typed
