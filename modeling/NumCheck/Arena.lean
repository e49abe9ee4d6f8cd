import NumCheck.Slot

/-!
# The arena of slots

The arena holds all slots of a check, in the order in which they were made. Links lead
from slot to slot; a chain of links ends in its *root*, the first slot that is not a
link. Two slots are unified by linking one root to the other, if that root is unknown.
Two roots that have the same type are left as they are.

An arena may hold any links at all: a chain may leave the arena, or run in a circle.
Following it then ends in a `Fault`.
-/

namespace NumCheck

/-- Slots, numbered from 1 in the order in which they were made. -/
structure Arena where
  /-- Slot `n` stands at place `n - 1`. -/
  slots : Array Slot := #[]
  deriving DecidableEq, Repr

namespace Arena

/-- The arena cannot answer. -/
inductive Fault where
  /-- There is no slot `id`. -/
  | missing (id : SlotId)
  /-- The links run in a circle, and `id` is the first slot that was met again. -/
  | cycle (id : SlotId)
  /-- Contents that are neither unknown nor both types. -/
  | incompatible (first second : Content)
  deriving DecidableEq, Repr

/-- What is said of a fault, with the given texts for types. -/
def Fault.message (typeText : Ty → String) : Fault → String
  | .missing id => toString id
  | .cycle id => s!"reference cycle through slot #{id}"
  | .incompatible first second =>
    s!"cannot unify {first.renderFields typeText} with {second.renderFields typeText}"

/-- Why slots are not unified, or a slot has no type. -/
inductive Error where
  /-- The arena cannot answer. -/
  | fault (f : Fault)
  /-- The roots of the two slots have different types. -/
  | mismatch (first second : Slot)
  /-- The slot, which is about `span`, has no type. -/
  | unresolved (span : Span)
  deriving DecidableEq, Repr

/-- How many slots there are. -/
def size (a : Arena) : Nat := a.slots.size

/-- Slot `id`, if there is one. -/
def get? (a : Arena) (id : SlotId) : Option Slot :=
  if 0 < id then a.slots[(id - 1).toNat]? else none

/-- Slot `id`; it is a fault if there is none. -/
def slot (a : Arena) (id : SlotId) : Except Fault Slot :=
  match a.get? id with
  | some s => .ok s
  | none => .error (.missing id)

/-- A new slot, with its number. -/
def insert (a : Arena) (content : Content) (span : Span) : SlotId × Arena :=
  (a.size + 1, ⟨a.slots.push ⟨content, span⟩⟩)

/-- The arena with another content in slot `id`, whose span stays. -/
def setContent (a : Arena) (id : SlotId) (content : Content) : Arena :=
  ⟨a.slots.modify (id - 1).toNat fun s => { s with content }⟩

/-! ### Chains of links -/

/-- Follow the links from slot `id`, having come through the slots `seen`, for at most
`fuel` slots. -/
def follow (a : Arena) : (fuel : Nat) → (seen : List SlotId) → SlotId → Except Fault SlotId
  | 0, _, id => .error (.cycle id)
  | fuel + 1, seen, id =>
    match a.get? id with
    | none => .error (.missing id)
    | some s =>
      match s.content with
      | .link target =>
        if id ∈ seen then .error (.cycle id) else a.follow fuel (id :: seen) target
      | _ => .ok id

/-- The root of slot `id`. A chain that comes through more slots than there are comes
through one of them twice, so the fuel is never used up. -/
def root (a : Arena) (id : SlotId) : Except Fault SlotId :=
  a.follow (a.size + 1) [] id

/-! ### Unification -/

/-- What it takes to unify two slots. -/
inductive Union where
  /-- Nothing: they have one root, or roots of the same type. -/
  | agree
  /-- The unknown root `source` has to be linked to the root `target`. -/
  | link (source target : SlotId)
  /-- It cannot be done: the roots have different types. -/
  | clash (first second : Slot)
  deriving DecidableEq, Repr

/-- Find what it takes to unify slots `x` and `y`. If both roots are unknown, the root of
`x` gets the link. -/
def union (a : Arena) (x y : SlotId) : Except Fault Union := do
  let x ← a.root x
  let y ← a.root y
  if x = y then return .agree
  let first ← a.slot x
  let second ← a.slot y
  match first.content, second.content with
  | .unknown, _ => return .link x y
  | _, .unknown => return .link y x
  | .known t, .known u => return if t = u then .agree else .clash first second
  | c, d => throw (.incompatible c d)

/-- Do what it takes. -/
def apply (a : Arena) : Union → Except Error Arena
  | .agree => .ok a
  | .link source target => .ok (a.setContent source (.link target))
  | .clash first second => .error (.mismatch first second)

/-- Unify slots `x` and `y`. -/
def unify (a : Arena) (x y : SlotId) : Except Error Arena :=
  match a.union x y with
  | .ok u => a.apply u
  | .error f => .error (.fault f)

/-- The content of the root of slot `id`. -/
def rootContent (a : Arena) (id : SlotId) : Except Fault Content := do
  let r ← a.root id
  return (← a.slot r).content

/-- The type of slot `id`. A slot without one is named by its own span, not by its root's. -/
def resolve (a : Arena) (id : SlotId) : Except Error Ty :=
  match a.slot id, a.rootContent id with
  | .error f, _ => .error (.fault f)
  | .ok _, .error f => .error (.fault f)
  | .ok _, .ok (.known ty) => .ok ty
  | .ok s, .ok _ => .error (.unresolved s.span)

/-- How the slots are written, in order. -/
def render (a : Arena) : List String := a.slots.toList.map Slot.render

end Arena

end NumCheck
