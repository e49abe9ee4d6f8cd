/-!
# Scopes

A stack of frames, each of which binds keys to values. A key is looked up from the
innermost frame outwards. A binding only ever enters the innermost frame, where it takes
the place of an older binding of the same key. Closing a scope drops its whole frame.
-/

namespace NumCheck

/-- The bindings of one scope, in the order in which their keys were first bound. -/
abbrev Frame (κ ν : Type) := List (κ × ν)

/-- Bind `key` to `value`: an older binding of the key gives up its value and keeps its
place. -/
def Frame.insert {κ ν : Type} [DecidableEq κ] (key : κ) (value : ν) : Frame κ ν → Frame κ ν
  | [] => [(key, value)]
  | (k, v) :: rest => if k = key then (k, value) :: rest else (k, v) :: insert key value rest

/-- A stack of frames, the innermost first. -/
structure Scopes (κ ν : Type) where
  /-- The frames of the open scopes. -/
  frames : List (Frame κ ν) := []
  deriving DecidableEq, Repr

namespace Scopes

/-- A scope is needed and none is open. -/
inductive Error where
  /-- No scope can be closed. -/
  | noScopeToPop
  /-- No scope can take a binding. -/
  | noScopeToInsert
  deriving DecidableEq, Repr

/-- What is said when no scope is open. -/
def Error.message : Error → String
  | .noScopeToPop => "pop_scope called with no open scope"
  | .noScopeToInsert => "insert called with no open scope"

variable {κ ν : Type}

/-- How many scopes are open. -/
def depth (s : Scopes κ ν) : Nat := s.frames.length

/-- Open a scope. -/
def push (s : Scopes κ ν) : Scopes κ ν := ⟨[] :: s.frames⟩

/-- Close the innermost scope. -/
def pop (s : Scopes κ ν) : Except Error (Scopes κ ν) :=
  match s.frames with
  | [] => .error .noScopeToPop
  | _ :: outer => .ok ⟨outer⟩

variable [DecidableEq κ]

/-- Bind `key` to `value` in the innermost scope. -/
def insert (s : Scopes κ ν) (key : κ) (value : ν) : Except Error (Scopes κ ν) :=
  match s.frames with
  | [] => .error .noScopeToInsert
  | frame :: outer => .ok ⟨frame.insert key value :: outer⟩

/-- The value of `key` in the innermost scope that binds it. -/
def get? (s : Scopes κ ν) (key : κ) : Option ν := s.frames.findSome? (·.lookup key)

/-- Some scope binds `key`. -/
def contains (s : Scopes κ ν) (key : κ) : Bool := (s.get? key).isSome

omit [DecidableEq κ] in
/-- How the scopes are written, the outermost first, with the given texts for keys and
values. -/
def render (key : κ → String) (value : ν → String) (s : Scopes κ ν) : String :=
  let frame (f : Frame κ ν) : String :=
    "\x7b" ++ ", ".intercalate (f.map fun (k, v) => key k ++ ": " ++ value v) ++ "\x7d"
  "Scopes([" ++ ", ".intercalate (s.frames.reverse.map frame) ++ "])"

end Scopes

end NumCheck
