/-!
# Types

A type is known by its name: types of different names are different. The language's
own rules give every expression the type of numbers; other rules may use more types.
-/

namespace NumCheck

/-- A type. -/
structure Ty where
  /-- How the type is written. -/
  name : String
  deriving DecidableEq, Repr

/-- The type of numbers. -/
def Ty.num : Ty := ⟨"Num"⟩

end NumCheck
