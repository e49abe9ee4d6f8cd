import NumCheck.Scopes

/-!
# Scripts of scope operations

A script drives a stack of scopes: it opens and closes scopes, binds and looks up keys,
and runs bodies inside a scope of their own. Each step answers. A body can break off by a
failure; whatever its body does, a scope is closed when the body is over.
-/

namespace NumCheck.Scopes

mutual
/-- One step of a script. -/
inductive Step (κ ν : Type) where
  /-- Open a scope. -/
  | push
  /-- Close the innermost scope. -/
  | pop
  /-- Bind a key in the innermost scope. -/
  | insert (key : κ) (value : ν)
  /-- Look a key up. -/
  | get (key : κ)
  /-- Ask whether a key is bound. -/
  | contains (key : κ)
  /-- Show the scopes. -/
  | snapshot
  /-- Run a body in a scope of its own. -/
  | within (body : Script κ ν)
/-- The steps of a body, and how it ends. -/
inductive Script (κ ν : Type) where
  /-- The body is over. -/
  | done
  /-- The body breaks off by a failure. -/
  | fail
  /-- A step, then the rest. -/
  | next (step : Step κ ν) (rest : Script κ ν)
end

/-- Why a scope with a body ended otherwise than by the end of its body. -/
inductive Ending where
  /-- The body failed. -/
  | failure
  /-- The scope could not be closed, because the body had closed it. -/
  | refused (e : Error)
  deriving DecidableEq, Repr

/-- The answer to a step. -/
inductive Answer (κ ν : Type) where
  /-- The step is done and says nothing. -/
  | done
  /-- The step could not be done, and nothing has changed. -/
  | refused (e : Error)
  /-- The value of a key, if it is bound. -/
  | value (v : Option ν)
  /-- Whether a key is bound. -/
  | bound (b : Bool)
  /-- The scopes as they are. -/
  | snapshot (s : Scopes κ ν)
  /-- The answers of a body, each with the number of open scopes after it, and how it ended
  if not by its end. -/
  | ran (answers : List (Nat × Answer κ ν)) (ending : Option Ending)

/-- What a script leaves behind. -/
structure Run (κ ν : Type) where
  /-- The answers, each with the number of open scopes after it. -/
  answers : List (Nat × Answer κ ν)
  /-- The script broke off by a failure. -/
  failed : Bool
  /-- The scopes. -/
  scopes : Scopes κ ν

variable {κ ν : Type} [DecidableEq κ]

/-- An operation that may be refused: then the scopes stay. -/
def attempt (s : Scopes κ ν) : Except Error (Scopes κ ν) → Answer κ ν × Scopes κ ν
  | .ok s' => (.done, s')
  | .error e => (.refused e, s)

mutual
/-- Run one step. -/
def Step.run (s : Scopes κ ν) : Step κ ν → Answer κ ν × Scopes κ ν
  | .push => (.done, s.push)
  | .pop => attempt s s.pop
  | .insert key value => attempt s (s.insert key value)
  | .get key => (.value (s.get? key), s)
  | .contains key => (.bound (s.contains key), s)
  | .snapshot => (.snapshot s, s)
  | .within body =>
    let inner := body.run s.push
    match inner.scopes.pop with
    | .ok outer => (.ran inner.answers (if inner.failed then some .failure else none), outer)
    | .error e => (.ran inner.answers (some (.refused e)), inner.scopes)
/-- Run a script: a failure skips nothing that was done before it. -/
def Script.run (s : Scopes κ ν) : Script κ ν → Run κ ν
  | .done => ⟨[], false, s⟩
  | .fail => ⟨[], true, s⟩
  | .next step rest =>
    let (answer, s') := step.run s
    let more := rest.run s'
    { more with answers := (s'.depth, answer) :: more.answers }
end

end NumCheck.Scopes
