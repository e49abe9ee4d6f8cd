import NumCheck.Scopes

/-!
# Scopes by snapshots

Scopes without frames: one list of bindings, of which the latest of a key counts. Opening a
scope saves the list, and closing it takes the saved list back. Nothing in the list is ever
replaced.
-/

namespace NumCheck.Scopes

/-- A list of bindings, the latest first, and the lists that have been saved. -/
structure Snapshots (κ ν : Type) where
  /-- The bindings. -/
  current : List (κ × ν) := []
  /-- The bindings at the start of each open scope, the innermost first. -/
  saved : List (List (κ × ν)) := []
  deriving DecidableEq, Repr

namespace Snapshots

variable {κ ν : Type}

/-- How many scopes are open. -/
def depth (s : Snapshots κ ν) : Nat := s.saved.length

/-- Open a scope. -/
def push (s : Snapshots κ ν) : Snapshots κ ν := ⟨s.current, s.current :: s.saved⟩

/-- Close the innermost scope. -/
def pop (s : Snapshots κ ν) : Except Error (Snapshots κ ν) :=
  match s.saved with
  | [] => .error .noScopeToPop
  | last :: saved => .ok ⟨last, saved⟩

/-- Bind `key` to `value` in the innermost scope. -/
def insert (s : Snapshots κ ν) (key : κ) (value : ν) : Except Error (Snapshots κ ν) :=
  match s.saved with
  | [] => .error .noScopeToInsert
  | _ => .ok { s with current := (key, value) :: s.current }

variable [DecidableEq κ]

/-- The value of the latest binding of `key`. -/
def get? (s : Snapshots κ ν) (key : κ) : Option ν := s.current.lookup key

/-- There is a binding of `key`. -/
def contains (s : Snapshots κ ν) (key : κ) : Bool := s.current.any (·.1 = key)

end Snapshots

end NumCheck.Scopes
