import NumCheck.Check.Basic
import NumCheck.Proofs.Snapshots

/-!
# A scope leaves nothing behind

A body that runs in a scope of its own can bind and look up keys, run other bodies in scopes of
their own, open scopes and close them by hand, and break off by a failure at any depth. When it is
over, however it ended, the scopes are those from before: the same frames with the same bindings.

Scopes that are opened by hand have to be closed by hand in the same body, and nothing may fail in
between, because nobody would close them then. `Matched` is this condition. It says at each place of
a body how many scopes are open by hand, and so how many frames above the outer ones the body has
the use of. The frames below are never touched, which is what one request keeps
(`Request.Shifts.run`), and by it a whole body (`Body.Matched.ends`).

A body is run in three ways. It is performed, and then a failure breaks off all the bodies around
it. It is written as a script, which answers after each scope and goes on, so that a failure has to
be passed on by hand. And the check performs it on the bindings that are part of its state. A body
that decides by an answer what to do next does in each of its runs what one of these bodies does.

Bodies that are not matched are left out: they close scopes that are not theirs, or leave some open.
-/

namespace NumCheck.Scopes

/-! ### Bodies -/

/-- What breaks off a body. -/
inductive Raised (ε : Type) where
  /-- The failure `e` of a body. -/
  | failure (e : ε)
  /-- A request that is refused. -/
  | refused (e : Error)
  deriving DecidableEq, Repr

/-- A computation on scopes: it gives a result or is broken off, and leaves scopes with either. -/
abbrev ScopesM (ε κ ν : Type) := EStateM (Raised ε) (Scopes κ ν)

/-- What is run in a scope. -/
inductive Body (ε κ ν : Type) where
  /-- The body is over. -/
  | done
  /-- The body breaks off by the failure `e`. -/
  | raise (e : ε)
  /-- A request, then the rest. -/
  | ask (request : Request κ ν) (rest : Body ε κ ν)
  /-- Another body in a scope of its own, then the rest. -/
  | within (body rest : Body ε κ ν)

variable {ε κ ν α : Type}

/-- The failure that a body comes to. -/
def Body.failure? : Body ε κ ν → Option ε
  | .done => none
  | .raise e => some e
  | .ask _ rest => rest.failure?
  | .within body rest => body.failure? <|> rest.failure?

/-- The script of a body. A script goes on after a scope whose body has failed, so the failure is
passed on by another one. -/
def Body.script : Body ε κ ν → Script κ ν
  | .done => .done
  | .raise _ => .fail
  | .ask request rest => .next request.step rest.script
  | .within body rest =>
    .next (.within body.script) (if body.failure?.isSome then .fail else rest.script)

section

variable [DecidableEq κ]

/-- Make a request, which is broken off if it is refused. -/
def Request.perform (request : Request κ ν) : ScopesM ε κ ν Unit := fun s =>
  match request.step.run s with
  | (.refused e, s') => .error (.refused e) s'
  | (_, s') => .ok () s'

/-- Run a computation in a scope of its own, which is closed however the computation ends. -/
def inScope (x : ScopesM ε κ ν α) : ScopesM ε κ ν α := do
  (Request.push : Request κ ν).perform
  try x finally (Request.pop : Request κ ν).perform

/-- Perform a body. -/
def Body.perform : Body ε κ ν → ScopesM ε κ ν Unit
  | .done => return
  | .raise e => throw (.failure e)
  | .ask request rest => do
    request.perform
    rest.perform
  | .within body rest => do
    inScope body.perform
    rest.perform

end

/-! ### Scopes that are opened and closed by hand -/

/-- A request that can be made with `n` scopes open by hand, and leaves `m` of them open. -/
inductive Request.Shifts : Request κ ν → Nat → Nat → Prop where
  /-- One more is open. -/
  | push {n : Nat} : Shifts .push n (n + 1)
  /-- One of them is closed. -/
  | pop {n : Nat} : Shifts .pop (n + 1) n
  /-- A binding opens and closes none. -/
  | insert {n : Nat} (key : κ) (value : ν) : Shifts (.insert key value) n n
  /-- Nor does looking up a key. -/
  | get {n : Nat} (key : κ) : Shifts (.get key) n n
  /-- Nor does asking for one. -/
  | contains {n : Nat} (key : κ) : Shifts (.contains key) n n

/-- The rest of a body with `n` scopes open by hand: it closes them all and no others, and nothing
fails while one of them is open. -/
inductive Body.Matched : Nat → Body ε κ ν → Prop where
  /-- The body ends with none open. -/
  | done : Matched 0 .done
  /-- The body fails with none open. -/
  | raise (e : ε) : Matched 0 (.raise e)
  /-- A request. -/
  | ask {request : Request κ ν} {n m : Nat} {rest : Body ε κ ν} :
      request.Shifts n m → Matched m rest → Matched n (.ask request rest)
  /-- Another body, which matches its own, and fails only if none are open here. -/
  | within {n : Nat} {body rest : Body ε κ ν} : Matched 0 body →
      (n = 0 ∨ body.failure? = none) → Matched n rest → Matched n (.within body rest)

/-- An answer that refuses nothing, nor does any answer within it. -/
inductive Answer.Granted : Answer κ ν → Prop where
  /-- The step is done. -/
  | done : Granted .done
  /-- A key has been looked up. -/
  | value (v : Option ν) : Granted (.value v)
  /-- A key has been asked for. -/
  | bound (b : Bool) : Granted (.bound b)
  /-- A body has run, and its scope could be closed. -/
  | ran {answers : List (Nat × Answer κ ν)} {ending : Option Ending} :
      (∀ answer ∈ answers, Granted answer.2) → (∀ e, ending ≠ some (.refused e)) →
        Granted (.ran answers ending)

variable [DecidableEq κ]

/-- **One request** in a body: it is granted, and changes no frame but those of the body. These are
one for the body's own scope and one for each that is open by hand. -/
theorem Request.Shifts.run {request : Request κ ν} {n m : Nat} (h : request.Shifts n m)
    {own : List (Frame κ ν)} (hown : own.length = n + 1) (outer : List (Frame κ ν)) :
    ∃ (own' : List (Frame κ ν)) (answer : Answer κ ν), own'.length = m + 1 ∧ answer.Granted ∧
      request.step.run ⟨own ++ outer⟩ = (answer, ⟨own' ++ outer⟩) := by
  obtain ⟨frame, own, rfl⟩ := List.exists_cons_of_length_eq_add_one hown
  cases h with
  | push => exact ⟨[] :: frame :: own, .done, congrArg (· + 1) hown, .done, rfl⟩
  | pop => exact ⟨own, .done, Nat.succ.inj hown, .done, rfl⟩
  | insert key value => exact ⟨frame.insert key value :: own, .done, hown, .done, rfl⟩
  | get key => exact ⟨frame :: own, _, hown, .value _, rfl⟩
  | contains key => exact ⟨frame :: own, _, hown, .bound _, rfl⟩

theorem Request.perform_of_granted {request : Request κ ν} {s s' : Scopes κ ν} {answer : Answer κ ν}
    (hrun : request.step.run s = (answer, s')) (h : answer.Granted) :
    request.perform s = (.ok () s' : EStateM.Result (Raised ε) (Scopes κ ν) Unit) := by
  cases h <;> rw [perform, hrun]

/-! ### What a body leaves behind -/

/-- How a body ends that has the failure `failure?`, and leaves the scopes `s`. -/
def ending (failure? : Option ε) (s : Scopes κ ν) : EStateM.Result (Raised ε) (Scopes κ ν) Unit :=
  match failure? with
  | none => .ok () s
  | some e => .error (.failure e) s

/-- A body takes the scopes from `s` to `s'`, whether it is performed or run as a script, and
nothing is refused on the way. -/
structure Body.Ends (body : Body ε κ ν) (s s' : Scopes κ ν) : Prop where
  /-- It ends with its own failure or with none. -/
  performed : body.perform s = ending body.failure? s'
  /-- The script ends with a failure in the same cases. -/
  scripted : ∃ answers, body.script.run s = ⟨answers, body.failure?.isSome, s'⟩ ∧
    ∀ answer ∈ answers, answer.2.Granted

/-- A body in a scope of its own takes the scopes from `s` back to `s`, and nothing is refused. -/
structure Body.Restores (body : Body ε κ ν) (s : Scopes κ ν) : Prop where
  /-- It ends as the body does. -/
  performed : inScope body.perform s = ending body.failure? s
  /-- So does the step of a script. -/
  scripted : ∃ answers, (∀ answer ∈ answers, answer.2.Granted) ∧
    (Step.within body.script).run s =
      (.ran answers (body.failure?.map fun _ => .failure), s)

namespace Body.Ends

variable {body rest : Body ε κ ν} {s s' : Scopes κ ν}

theorem ask {request : Request κ ν} {s₁ : Scopes κ ν} {answer : Answer κ ν} (hg : answer.Granted)
    (hrun : request.step.run s = (answer, s₁)) (h : rest.Ends s₁ s') :
    (Body.ask request rest).Ends s s' := by
  obtain ⟨answers, hanswers, hgranted⟩ := h.scripted
  constructor
  · rw [perform]
    simp only [bind, EStateM.bind, Request.perform_of_granted hrun hg]
    exact h.performed
  · refine ⟨(s₁.depth, answer) :: answers, ?_, ?_⟩
    · rw [script, Script.run, hrun]
      simp only [hanswers, failure?]
    · exact List.forall_mem_cons.mpr ⟨hg, hgranted⟩

/-- A scope is closed at the end of its body: the innermost frame is its own. -/
theorem restores {frame : Frame κ ν} (h : body.Ends s.push ⟨frame :: s.frames⟩) :
    body.Restores s := by
  obtain ⟨answers, hanswers, hgranted⟩ := h.scripted
  constructor
  · have hpop : (Request.pop : Request κ ν).perform ⟨frame :: s.frames⟩ =
        (.ok () s : EStateM.Result (Raised ε) (Scopes κ ν) Unit) := rfl
    have hpush : (Request.push : Request κ ν).perform s =
        (.ok () s.push : EStateM.Result (Raised ε) (Scopes κ ν) Unit) := rfl
    rw [inScope]
    simp only [bind, EStateM.bind, hpush, tryFinally, tryFinally', Functor.map, EStateM.map,
      h.performed]
    cases body.failure? with
    | none => simp only [ending, hpop]
    | some e => simp only [ending, hpop]
  · refine ⟨answers, hgranted, ?_⟩
    rw [Step.run, hanswers]
    cases body.failure? <;> rfl

/-- After a body that has failed the rest is left out. -/
theorem within_failed {e : ε} (hf : body.failure? = some e) (h : body.Restores s) :
    (Body.within body rest).Ends s s := by
  obtain ⟨answers, hgranted, hrun⟩ := h.scripted
  constructor
  · rw [perform, failure?, hf]
    simp only [bind, EStateM.bind, h.performed, hf]
    rfl
  · refine ⟨[(s.depth, .ran answers (some .failure))], ?_, ?_⟩
    · rw [script, Script.run, hrun]
      simp only [hf, failure?]
      rfl
    · simpa using Answer.Granted.ran hgranted (by simp)

/-- After a body that has not failed the rest has the scopes from before. -/
theorem within_done (hf : body.failure? = none) (h : body.Restores s) (hrest : rest.Ends s s') :
    (Body.within body rest).Ends s s' := by
  obtain ⟨answers, hgranted, hrun⟩ := h.scripted
  obtain ⟨more, hmore, hmoreGranted⟩ := hrest.scripted
  constructor
  · rw [perform, failure?, hf]
    simp only [bind, EStateM.bind, h.performed, hf]
    exact hrest.performed
  · refine ⟨(s.depth, .ran answers none) :: more, ?_, ?_⟩
    · rw [script, Script.run, hrun]
      simp only [hf, failure?]
      rw [if_neg (by simp), hmore]
      rfl
    · exact List.forall_mem_cons.mpr ⟨.ran hgranted (by simp), hmoreGranted⟩

end Body.Ends

/-- **A whole body**: of the frames that it has the use of one is left, and those below are as they
were. -/
theorem Body.Matched.ends {body : Body ε κ ν} {n : Nat} (h : body.Matched n)
    (own : List (Frame κ ν)) (hown : own.length = n + 1) (outer : List (Frame κ ν)) :
    ∃ frame, body.Ends ⟨own ++ outer⟩ ⟨frame :: outer⟩ := by
  induction h generalizing own outer with
  | done =>
    obtain ⟨frame, rfl⟩ := List.length_eq_one_iff.mp hown
    exact ⟨frame, rfl, [], rfl, by simp⟩
  | raise e =>
    obtain ⟨frame, rfl⟩ := List.length_eq_one_iff.mp hown
    exact ⟨frame, rfl, [], rfl, by simp⟩
  | ask hshift _ ih =>
    obtain ⟨own', answer, hown', hgranted, hrun⟩ := hshift.run hown outer
    obtain ⟨frame, hends⟩ := ih own' hown' outer
    exact ⟨frame, hends.ask hgranted hrun⟩
  | @within n body rest _ hquiet _ ih ihrest =>
    -- to the inner body all frames of this one are outer frames
    obtain ⟨inner, hinner⟩ := ih [[]] rfl (own ++ outer)
    have hrestores : body.Restores ⟨own ++ outer⟩ := hinner.restores
    cases hf : body.failure? with
    | some e =>
      obtain rfl : n = 0 := hquiet.resolve_right (by simp [hf])
      obtain ⟨frame, rfl⟩ := List.length_eq_one_iff.mp hown
      exact ⟨frame, .within_failed hf hrestores⟩
    | none =>
      obtain ⟨frame, hends⟩ := ihrest own hown outer
      exact ⟨frame, hends.within_done hf hrestores⟩

/-- **A scope leaves nothing behind**, whatever the scopes are that its body starts with. The
failure of the body comes through as it is, from any depth, and no scope fails to be closed. -/
theorem inScope_restores {body : Body ε κ ν} (h : body.Matched 0) (s : Scopes κ ν) :
    body.Restores s := by
  obtain ⟨frame, hends⟩ := h.ends [[]] rfl s.frames
  exact hends.restores

/-- A failure two scopes deep, in a body that has opened a scope by hand and closed it again. -/
theorem inScope_restores_nested :
    let deep : Body String String Nat := .ask (.insert "z" 3) (.raise "boom")
    let body : Body String String Nat :=
      .ask .push (.ask (.insert "y" 1) (.within (.ask (.get "x") .done) (.ask .pop
        (.ask (.insert "x" 2) (.within (.within deep .done) (.ask (.contains "z") .done))))))
    let s : Scopes String Nat := ⟨[[("x", 0)], []]⟩
    body.Matched 0 ∧ inScope body.perform s = .error (.failure "boom") s :=
  have hdeep : Body.Matched 0 (.ask (.insert "z" 3) (.raise "boom")) :=
    .ask (.insert _ _) (.raise _)
  have hrest : Body.Matched 0 (.within (.within _ .done) (.ask (.contains "z") .done)) :=
    .within (.within hdeep (.inl rfl) .done) (.inl rfl) (.ask (.contains _) .done)
  have hbody := Body.Matched.ask .push (.ask (.insert "y" 1)
    (.within (.ask (.get "x") .done) (.inr rfl) (.ask .pop (.ask (.insert "x" 2) hrest))))
  ⟨hbody, (inScope_restores hbody _).performed⟩

-- A failure while a scope is open by hand: that scope is closed in place of the body's own.
example :
    inScope (Body.ask (.insert "x" 1) (.ask .push (.raise "boom")) : Body String String Nat).perform
      {} = .error (.failure "boom") ⟨[[("x", 1)]]⟩ :=
  rfl

end NumCheck.Scopes

namespace NumCheck.Check

open Scopes (Body Raised Request ScopesM)

variable {α β : Type}

/-! ### The scopes of a check -/

/-- What a check fails with where a computation on scopes is broken off. -/
def Failure.ofRaised : Raised Failure → Failure
  | .failure e => e
  | .refused e => .fault (.scopes e)

/-- The step `x` of a check ends as `y` does, and does to the bindings what `y` does to scopes. -/
def Mirrors (x : CheckM α) (y : ScopesM Failure String (Option SlotId) α) : Prop :=
  ∀ st : State,
    match y st.bindings with
    | .ok v s => ∃ st', x st = .ok v st' ∧ st'.bindings = s
    | .error e s => ∃ st', x st = .error (.ofRaised e) st' ∧ st'.bindings = s

theorem mirrors_push : Mirrors pushScope (Request.push : Request _ _).perform :=
  fun _ => ⟨_, rfl, rfl⟩

theorem mirrors_pop : Mirrors popScope (Request.pop : Request _ _).perform := by
  intro st
  obtain ⟨arena, ⟨frames⟩, recorded, log⟩ := st
  cases frames with
  | nil => exact ⟨_, rfl, rfl⟩
  | cons frame outer => exact ⟨_, rfl, rfl⟩

theorem mirrors_insert (name : String) (id : Option SlotId) :
    Mirrors (bindName name id) (Request.insert name id).perform := by
  intro st
  obtain ⟨arena, ⟨frames⟩, recorded, log⟩ := st
  cases frames with
  | nil => exact ⟨_, rfl, rfl⟩
  | cons frame outer => exact ⟨_, rfl, rfl⟩

namespace Mirrors

variable {x : CheckM α} {y : ScopesM Failure String (Option SlotId) α} {f : α → CheckM β}
  {g : α → ScopesM Failure String (Option SlotId) β}

theorem bind (h : Mirrors x y) (hf : ∀ v, Mirrors (f v) (g v)) : Mirrors (x >>= f) (y >>= g) := by
  intro st
  have hst := h st
  simp only [Bind.bind, EStateM.bind]
  cases hy : y st.bindings with
  | ok v s =>
    rw [hy] at hst
    obtain ⟨st', hx, rfl⟩ := hst
    rw [hx]
    exact hf v st'
  | error e s =>
    rw [hy] at hst
    obtain ⟨st', hx, rfl⟩ := hst
    rw [hx]
    exact ⟨st', rfl, rfl⟩

/-- A failure of what is done at the end takes the place of an older one, on both sides. -/
theorem andFinally {f : CheckM β} {g : ScopesM Failure String (Option SlotId) β} (h : Mirrors x y)
    (hf : Mirrors f g) : Mirrors (tryFinally x f) (tryFinally y g) := by
  intro st
  have hst := h st
  simp only [tryFinally, tryFinally', Functor.map, EStateM.map]
  cases hy : y st.bindings with
  | ok _ _ | error _ _ =>
    rw [hy] at hst
    obtain ⟨st', hx, rfl⟩ := hst
    have hend := hf st'
    cases hg : g st'.bindings with
    | ok _ _ | error _ _ =>
      rw [hg] at hend
      obtain ⟨st'', hf', rfl⟩ := hend
      simp only [hx, hf', hg]
      exact ⟨st'', rfl, rfl⟩

theorem inScope (h : Mirrors x y) : Mirrors (inScope x) (Scopes.inScope y) :=
  mirrors_push.bind fun _ => h.andFinally mirrors_pop

end Mirrors

/-- Make a request of the bindings. -/
def ask : Request String (Option SlotId) → CheckM Unit
  | .push => pushScope
  | .pop => popScope
  | .insert name id => bindName name id
  | .get _ | .contains _ => return

/-- Perform a body on the bindings. -/
def performBody : Body Failure String (Option SlotId) → CheckM Unit
  | .done => return
  | .raise e => throw e
  | .ask request rest => do
    ask request
    performBody rest
  | .within body rest => do
    inScope (performBody body)
    performBody rest

theorem mirrors_ask (request : Request String (Option SlotId)) :
    Mirrors (ask request) request.perform := by
  cases request with
  | push => exact mirrors_push
  | pop => exact mirrors_pop
  | insert name id => exact mirrors_insert name id
  | get name => exact fun st => ⟨st, rfl, rfl⟩
  | contains name => exact fun st => ⟨st, rfl, rfl⟩

/-- The check performs any body as it is performed on the bindings alone. -/
theorem mirrors_performBody (body : Body Failure String (Option SlotId)) :
    Mirrors (performBody body) body.perform := by
  induction body with
  | done => exact fun st => ⟨st, rfl, rfl⟩
  | raise e => exact fun st => ⟨st, rfl, rfl⟩
  | ask request rest ih => exact (mirrors_ask request).bind fun _ => ih
  | within body rest ih ihrest => exact ih.inScope.bind fun _ => ihrest

/-- A scope of a check leaves the bindings as they were, and the failure of its body comes
through. -/
theorem inScope_performBody {body : Body Failure String (Option SlotId)} (h : body.Matched 0)
    (st : State) : ∃ st' : State, st'.bindings = st.bindings ∧
      inScope (performBody body) st =
        match body.failure? with
        | none => .ok () st'
        | some e => .error e st' := by
  obtain ⟨frame, hends⟩ := h.ends [[]] rfl st.bindings.frames
  have hmirror := (mirrors_performBody body).inScope st
  rw [hends.restores.performed] at hmirror
  cases hf : body.failure? with
  | none | some e =>
    rw [hf] at hmirror
    obtain ⟨st', hrun, hst'⟩ := hmirror
    exact ⟨st', hst', hrun⟩

end NumCheck.Check
