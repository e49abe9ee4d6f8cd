import NumCheck.Scopes.Script
import NumCheck.Scopes.Snapshots

/-!
# Scopes refine snapshots

A stack of frames replaces the value of a key that is bound once more in the same scope, and drops
a whole frame when its scope is closed. Snapshots do neither: every binding goes in front of one
list, and closing a scope takes back the list that was saved when it was opened. Whatever is asked
of the two, in any order and with any misuse, the answers are the same, and so is the number of open
scopes after each of them.

The two sides are related scope by scope. The list is the one that was saved last with the bindings
of the innermost scope in front of it, all that were ever made there, and of these the first of each
key is the one that the innermost frame has. This says nothing of what the frame has replaced, so it
is kept by every request.

Only the answers are compared, and how many scopes are open; what a closed scope had in it can no
longer be asked for on either side.
-/

namespace NumCheck

/-! ### Bindings in frames -/

theorem lookup_cons_ite {κ ν : Type} [BEq κ] [LawfulBEq κ] [DecidableEq κ] (key k : κ) (v : ν)
    (rest : List (κ × ν)) :
    ((k, v) :: rest).lookup key = if key = k then some v else rest.lookup key := by
  by_cases h : key = k
  · rw [if_pos h, h, List.lookup_cons_self]
  · rw [if_neg h, List.lookup_cons, beq_false_of_ne h]

theorem Frame.lookup_insert {κ ν : Type} [DecidableEq κ] (key key' : κ) (value : ν)
    (frame : Frame κ ν) :
    (frame.insert key value).lookup key' =
      if key' = key then some value else frame.lookup key' := by
  induction frame with
  | nil => exact lookup_cons_ite key' key value []
  | cons entry rest ih =>
    obtain ⟨k, v⟩ := entry
    by_cases hk : k = key
    · subst hk
      rw [Frame.insert, if_pos rfl, lookup_cons_ite, lookup_cons_ite]
      by_cases h : key' = k
      · rw [if_pos h, if_pos h]
      · rw [if_neg h, if_neg h, if_neg h]
    · rw [Frame.insert, if_neg hk, lookup_cons_ite, lookup_cons_ite, ih]
      by_cases h : key' = key
      · rw [if_pos h, if_pos h, if_neg (h ▸ Ne.symm hk)]
      · rw [if_neg h, if_neg h]

/-- A name that is bound is found; what is found for other names stays. -/
theorem Scopes.get?_insert {κ ν : Type} [DecidableEq κ] {s s' : Scopes κ ν} {key : κ} {value : ν}
    (h : s.insert key value = .ok s') (key' : κ) :
    s'.get? key' = if key' = key then some value else s.get? key' := by
  rw [Scopes.insert] at h
  split at h
  · cases h
  · next frame outer hf =>
    cases h
    rw [Scopes.get?, Scopes.get?, hf, List.findSome?_cons, List.findSome?_cons,
      Frame.lookup_insert]
    by_cases hk : key' = key
    · simp only [if_pos hk]
    · simp only [if_neg hk]

theorem Scopes.exists_insert {κ ν : Type} [DecidableEq κ] {s : Scopes κ ν} (h : s.frames ≠ [])
    (key : κ) (value : ν) : ∃ s', s.insert key value = .ok s' := by
  cases hf : s.frames with
  | nil => exact absurd hf h
  | cons frame outer => exact ⟨_, by rw [Scopes.insert, hf]⟩

namespace Scopes

variable {κ ν : Type} [DecidableEq κ]

/-! ### Requests -/

/-- What can be asked of scopes. -/
inductive Request (κ ν : Type) where
  /-- Open a scope. -/
  | push
  /-- Close the innermost scope. -/
  | pop
  /-- Bind a key in the innermost scope. -/
  | insert (key : κ) (value : ν)
  /-- Look a key up. -/
  | get (key : κ)
  /-- Ask whether a key is bound. -/
  | contains (key : κ)

/-- The step of a script that makes the request. -/
def Request.step : Request κ ν → Step κ ν
  | .push => .push
  | .pop => .pop
  | .insert key value => .insert key value
  | .get key => .get key
  | .contains key => .contains key

/-- The script that makes the requests, one after the other. -/
def Script.ofRequests : List (Request κ ν) → Script κ ν
  | [] => .done
  | request :: rest => .next request.step (ofRequests rest)

namespace Snapshots

/-- An operation that may be refused: then nothing changes. -/
def attempt (t : Snapshots κ ν) : Except Error (Snapshots κ ν) → Answer κ ν × Snapshots κ ν
  | .ok t' => (.done, t')
  | .error e => (.refused e, t)

/-- The answer to a request, and what is there after it. -/
def answer (t : Snapshots κ ν) : Request κ ν → Answer κ ν × Snapshots κ ν
  | .push => (.done, t.push)
  | .pop => t.attempt t.pop
  | .insert key value => t.attempt (t.insert key value)
  | .get key => (.value (t.get? key), t)
  | .contains key => (.bound (t.contains key), t)

/-- The answers to requests, each with the number of open scopes after it. -/
def answers (t : Snapshots κ ν) : List (Request κ ν) → List (Nat × Answer κ ν)
  | [] => []
  | request :: rest =>
    let (answer, t') := t.answer request
    (t'.depth, answer) :: t'.answers rest

end Snapshots

/-! ### Frames and snapshots -/

/-- The frames stand for the list `current`, where the lists `saved` were saved. -/
inductive Represents : List (Frame κ ν) → List (κ × ν) → List (List (κ × ν)) → Prop where
  /-- No scope is open, and nothing is bound. -/
  | closed : Represents [] [] []
  /-- The bindings `own` have been made in the innermost scope, the latest first. -/
  | opened {frame : Frame κ ν} {outer : List (Frame κ ν)} (own : List (κ × ν))
      {last : List (κ × ν)} {saved : List (List (κ × ν))} : Represents outer last saved →
      (∀ key, own.lookup key = frame.lookup key) →
        Represents (frame :: outer) (own ++ last) (last :: saved)

namespace Represents

variable {frames : List (Frame κ ν)} {current : List (κ × ν)} {saved : List (List (κ × ν))}

theorem lookup_eq (h : Represents frames current saved) (key : κ) :
    current.lookup key = frames.findSome? (·.lookup key) := by
  induction h with
  | closed => rfl
  | @opened frame outer own last saved _ hown ih =>
    rw [List.lookup_append, hown, ih, List.findSome?_cons]
    cases frame.lookup key <;> rfl

theorem length_eq (h : Represents frames current saved) : saved.length = frames.length := by
  induction h with
  | closed => rfl
  | opened _ _ _ ih => simp [ih]

/-- A new scope has made no bindings. -/
theorem push (h : Represents frames current saved) :
    Represents ([] :: frames) current (current :: saved) :=
  .opened [] h fun _ => rfl

/-- A binding in the innermost scope hides the older ones of its key on both sides. -/
theorem insert {frame : Frame κ ν} (h : Represents (frame :: frames) current saved) (key : κ)
    (value : ν) :
    Represents (frame.insert key value :: frames) ((key, value) :: current) saved := by
  cases h with
  | @opened _ _ own last saved houter hown =>
    refine .opened ((key, value) :: own) houter ?_
    intro key'
    rw [Frame.lookup_insert, lookup_cons_ite, hown]

end Represents

/-- The scopes stand for the snapshots. -/
def Simulates (s : Scopes κ ν) (t : Snapshots κ ν) : Prop :=
  Represents s.frames t.current t.saved

/-- A key is bound on both sides or on none. -/
theorem Simulates.contains_eq {s : Scopes κ ν} {t : Snapshots κ ν} (h : Simulates s t) (key : κ) :
    s.contains key = t.contains key := by
  have hlookup : s.get? key = t.current.lookup key := (h.lookup_eq key).symm
  rw [Scopes.contains, Snapshots.contains, hlookup, Bool.eq_iff_iff, List.lookup_isSome_iff]
  simp only [List.any_eq_true, beq_iff_eq, decide_eq_true_eq, @eq_comm _ key]

/-- A request has the same answer on both sides, and they still stand for each other after it. -/
theorem Simulates.answer {s : Scopes κ ν} {t : Snapshots κ ν} (h : Simulates s t)
    (request : Request κ ν) :
    (request.step.run s).1 = (t.answer request).1 ∧
      Simulates (request.step.run s).2 (t.answer request).2 := by
  obtain ⟨frames⟩ := s
  obtain ⟨current, saved⟩ := t
  cases request with
  | push => exact ⟨rfl, Represents.push h⟩
  | pop =>
    cases h with
    | closed => exact ⟨rfl, .closed⟩
    | opened own houter hown => exact ⟨rfl, houter⟩
  | insert key value =>
    cases frames with
    | nil =>
      cases h
      exact ⟨rfl, .closed⟩
    | cons frame outer =>
      cases h with
      | opened own houter hown =>
        exact ⟨rfl, Represents.insert (.opened own houter hown) key value⟩
  | get key =>
    refine ⟨?_, h⟩
    exact congrArg Answer.value (h.lookup_eq key).symm
  | contains key =>
    refine ⟨?_, h⟩
    exact congrArg Answer.bound (h.contains_eq key)

/-- Requests have the same answers from scopes and from snapshots that stand for each other. -/
theorem Simulates.answers {s : Scopes κ ν} {t : Snapshots κ ν} (h : Simulates s t)
    (requests : List (Request κ ν)) :
    ((Script.ofRequests requests).run s).answers = t.answers requests := by
  induction requests generalizing s t with
  | nil => rfl
  | cons request rest ih =>
    obtain ⟨hanswer, hnext⟩ := h.answer request
    have hdepth : (request.step.run s).2.depth = (t.answer request).2.depth :=
      (Represents.length_eq hnext).symm
    simp only [Script.ofRequests, Script.run, Snapshots.answers, hanswer, hdepth, ih hnext]

/-- **Scopes answer as snapshots do.** From the start on, with keys and values of any kind, every
sequence of requests has the same answers, with the same number of open scopes after each. -/
theorem run_ofRequests (requests : List (Request κ ν)) :
    ((Script.ofRequests requests).run {}).answers = ({} : Snapshots κ ν).answers requests := by
  have hstart : Simulates ({} : Scopes κ ν) {} := .closed
  exact hstart.answers requests

-- A key can be bound to nothing, and it is bound then; what a closed scope had bound is gone.
example :
    let requests : List (Request String (Option Nat)) :=
      [.insert "x" none, .push, .insert "x" none, .push, .insert "x" (some 1), .insert "x" (some 2),
        .get "x", .pop, .get "x", .contains "x", .contains "y", .pop, .pop]
    ((Script.ofRequests requests).run {}).answers =
      [(0, .refused .noScopeToInsert), (1, .done), (1, .done), (2, .done), (2, .done), (2, .done),
        (2, .value (some (some 2))), (1, .done), (1, .value (some none)), (1, .bound true),
        (1, .bound false), (0, .done), (0, .refused .noScopeToPop)] :=
  rfl

end Scopes

end NumCheck
