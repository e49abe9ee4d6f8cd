import NumCheck.Arena
import NumCheck.Diagnostic
import NumCheck.Scopes
import NumCheck.Text.Quoted

/-!
# The state of a check

A check works on an arena of slots, on scopes that bind names to slots, and on the list of
diagnostics that have been recorded so far; it also keeps a log of what it does. A step of
the check gives a result or fails, and in both cases leaves a state behind: a failure undoes
nothing.

Most failures are diagnostics of the program. The others say that a tree has a node where it
does not belong, or that the arena or the scopes cannot do what is asked of them.
-/

namespace NumCheck.Check

/-- Whether a check ends at the first failure, or goes on to find all independent ones. -/
inductive Mode where
  /-- The first failure ends the check. -/
  | failFast
  /-- A failing statement is recorded, and the check goes on with the next one. -/
  | accumulate
  deriving DecidableEq, Repr

/-- Which operators can be applied to which types. The operands of a binary operator have one
type by then, and the operator itself does not matter. -/
structure Rules where
  /-- The type of a prefixed expression. -/
  unary : UnaryOp → Ty → Option Ty
  /-- The type of a binary expression. -/
  binary : Ty → Ty → Option Ty

namespace Rules

/-- The rules of the language: operators take numbers to numbers. -/
def standard : Rules where
  unary _ ty := if ty = .num then some .num else none
  binary ty₁ ty₂ := if ty₁ = .num ∧ ty₂ = .num then some .num else none

/-- The value of a key in a table, in which a later entry takes the place of an earlier one. -/
def lookupLast {κ ν : Type} [BEq κ] (table : List (κ × ν)) (key : κ) : Option ν :=
  table.reverse.lookup key

/-- The rules with the unary table replaced. Its entries for binary operators are never asked
for. -/
def withUnary (rules : Rules) (table : List ((Operation × Ty) × Ty)) : Rules :=
  { rules with unary := fun op ty => lookupLast table (.unary op, ty) }

/-- The rules with the binary table replaced. -/
def withBinary (rules : Rules) (table : List ((Ty × Ty) × Ty)) : Rules :=
  { rules with binary := fun ty₁ ty₂ => lookupLast table (ty₁, ty₂) }

end Rules

/-! ### The log -/

/-- What a check does, step by step. -/
inductive Event where
  /-- A scope is opened, and `depth` are open now. -/
  | pushScope (depth : Nat)
  /-- A scope is closed, and `depth` are open now. -/
  | popScope (depth : Nat)
  /-- A slot is made. -/
  | insert (id : SlotId) (slot : Slot)
  /-- A slot is linked to another. -/
  | link (source target : SlotId)
  /-- A name is bound to a slot. -/
  | bind (name : String) (id : SlotId)
  /-- The check has failed. -/
  | failed (d : Diagnostic)
  /-- The check has succeeded. -/
  | succeeded (statements slots : Nat)
  deriving Repr

/-- The event of a unification that changes a slot. -/
def Event.ofUnion? : Arena.Union → Option Event
  | .link source target => some (.link source target)
  | _ => none

/-! ### Failures -/

/-- A failure that says nothing about the program. -/
inductive Fault where
  /-- A node of kind `kind` stands for a statement. -/
  | strayStmt (kind : String)
  /-- A node of kind `kind` stands for an expression. -/
  | strayExpr (kind : String)
  /-- The arena cannot answer. -/
  | arena (f : Arena.Fault)
  /-- No scope is open. -/
  | scopes (e : Scopes.Error)
  deriving DecidableEq, Repr

/-- What is said of a fault, with the given texts for types. -/
def Fault.message (typeText : Ty → String) : Fault → String
  | .strayStmt kind => s!"unexpected statement node: {kind}"
  | .strayExpr kind => s!"unexpected expression node: {kind}"
  | .arena f => f.message typeText
  | .scopes e => e.message

/-- Why a step does not give a result. -/
inductive Failure where
  /-- The program is wrong. -/
  | rejected (d : Diagnostic)
  /-- Something else is. -/
  | fault (f : Fault)
  deriving Repr

/-- The failure with a single problem. -/
def Failure.problem (p : Problem) : Failure := .rejected (.one p)

/-- What an error of the arena means for the program that is checked. -/
def Failure.ofArena : Arena.Error → Failure
  | .fault f => .fault (.arena f)
  | .mismatch first second =>
    .problem (.typeMismatch first.span second.span first.content second.content)
  | .unresolved span => .problem (.cannotInferType span)

/-! ### States and steps -/

/-- What a check works on. -/
structure State where
  /-- The slots. -/
  arena : Arena := {}
  /-- The names and their slots. A name that is bound to no slot counts as undefined. -/
  bindings : Scopes String (Option SlotId) := {}
  /-- The diagnostics of the statements that have failed, in order. -/
  recorded : List Diagnostic := []
  /-- What has been done, in order. -/
  log : Array Event := #[]
  deriving Repr

/-- A step of a check: a result or a failure, and a new state with either. -/
abbrev CheckM := EStateM Failure State

/-- Open a scope. -/
def pushScope : CheckM Unit := fun s =>
  let bindings := s.bindings.push
  .ok () { s with bindings, log := s.log.push (.pushScope bindings.depth) }

/-- Close the innermost scope. -/
def popScope : CheckM Unit := fun s =>
  match s.bindings.pop with
  | .ok bindings => .ok () { s with bindings, log := s.log.push (.popScope bindings.depth) }
  | .error e => .error (.fault (.scopes e)) s

/-- Take a step in a scope of its own, which is closed however the step ends. -/
def inScope {α : Type} (x : CheckM α) : CheckM α := do
  pushScope
  try x finally popScope

/-- Bind a name in the innermost scope. -/
def bindName (name : String) (id : Option SlotId) : CheckM Unit := fun s =>
  match s.bindings.insert name id with
  | .ok bindings => .ok () { s with bindings }
  | .error e => .error (.fault (.scopes e)) s

/-- The slot of a variable that is used at `span`. -/
def lookupName (name : String) (span : Span) : CheckM SlotId := fun s =>
  match (s.bindings.get? name).join with
  | some id => .ok id s
  | none => .error (.problem (.undefinedVariable name span)) s

/-- Make a slot. -/
def newSlot (content : Content) (span : Span) : CheckM SlotId := fun s =>
  let (id, arena) := s.arena.insert content span
  .ok id { s with arena, log := s.log.push (.insert id ⟨content, span⟩) }

/-- Unify two slots. -/
def unify (x y : SlotId) : CheckM Unit := fun s =>
  match s.arena.union x y with
  | .error f => .error (.fault (.arena f)) s
  | .ok u =>
    match s.arena.apply u with
    | .error e => .error (.ofArena e) s
    | .ok arena => .ok () { s with arena, log := s.log ++ (Event.ofUnion? u).toArray }

/-- The type of a slot. -/
def resolve (id : SlotId) : CheckM Ty := fun s =>
  match s.arena.resolve id with
  | .ok ty => .ok ty s
  | .error e => .error (.ofArena e) s

/-- Write an event to the log. -/
def note (e : Event) : CheckM Unit := fun s => .ok () { s with log := s.log.push e }

/-- Record a diagnostic. -/
def record (d : Diagnostic) : CheckM Unit := fun s =>
  .ok () { s with recorded := s.recorded ++ [d] }

/-- Take a step whose diagnostics are caught. Other failures are not. -/
def attempt {α : Type} (x : CheckM α) : CheckM (Except Diagnostic α) := fun s =>
  match x s with
  | .ok a s' => .ok (.ok a) s'
  | .error (.rejected d) s' => .ok (.error d) s'
  | .error (.fault f) s' => .error (.fault f) s'

end NumCheck.Check
