import NumCheck.Proofs.Modes

/-!
# Failures are independent

In `accumulate` mode a failing statement is recorded and left out, and the check goes on. What is
recorded later does not depend on it. If a statement is deleted that binds nothing, which is any one
but a `let` whose value is checked without a failure, then its own problems are gone, and all others
stay, in their order and with all that is said in them.

The two checks, with the statement and without it, differ in their slots and in what they have
recorded from the deletion on. They have in common that both states agree with one environment, and
this is kept by every statement that both of them check.

A `let` that succeeds is left out: without it, its name may be unbound or bound elsewhere. The other
mode is left out too, since there only one problem is ever found.
-/

namespace NumCheck

/-! ### Places -/

/-- A place in a list of statements, at any depth. -/
inductive Place where
  /-- Between the statements of the list itself. -/
  | here (before after : List Stmt)
  /-- Inside of a block. -/
  | inside (before : List Stmt) (inner : Place) (span : Span) (after : List Stmt)

/-- The list in which the statements `l` stand at the place. -/
def Place.fill (l : List Stmt) : Place → List Stmt
  | .here before after => before ++ (l ++ after)
  | .inside before inner span after => before ++ .block (inner.fill l) span :: after

theorem Stmt.allWellFormed_append {l m : List Stmt} :
    Stmt.AllWellFormed (l ++ m) ↔ Stmt.AllWellFormed l ∧ Stmt.AllWellFormed m := by
  induction l with
  | nil => simp [Stmt.AllWellFormed]
  | cons s l ih => simp [Stmt.AllWellFormed, ih, and_assoc]

theorem Place.allWellFormed_fill {c : Place} {l : List Stmt} :
    Stmt.AllWellFormed (c.fill l) ↔ Stmt.AllWellFormed (c.fill []) ∧ Stmt.AllWellFormed l := by
  induction c with
  | here before after =>
    simp [Place.fill, Stmt.allWellFormed_append, and_comm, and_left_comm]
  | inside before inner span after ih =>
    simp only [Place.fill, Stmt.allWellFormed_append, Stmt.AllWellFormed, Stmt.WellFormed]
    rw [ih]
    simp [and_comm, and_left_comm]

namespace Check

open Diagnostic (leavesList leavesList_append)

variable (rules : Rules)

/-- The state in which a check that starts in state `s` comes to the place. -/
def reached (s : State) : Place → State
  | .here before _ => stateOf (statements rules .accumulate before s)
  | .inside before inner _ _ =>
    reached (stateOf (statements rules .accumulate before s)).pushed inner

/-- The statement is a `let` whose value is checked without a failure in state `s`. -/
def Succeeds (s : State) (st : Stmt) : Prop :=
  ∃ name value span t s', st = .bind name value span ∧ expr rules .accumulate value s = .ok t s'

theorem State.recorded_pushed (s : State) : s.pushed.recorded = s.recorded := rfl

theorem State.recorded_popped (s : State) (outer : List (Frame String (Option SlotId))) :
    (s.popped outer).recorded = s.recorded := rfl

/-! ### Turns -/

/-- What comes of a statement: the environment after it, and what is recorded. -/
def Direct.turn (env : Direct.Env) (st : Stmt) : Direct.Env × List Diagnostic :=
  match Direct.stmt rules .accumulate env st with
  | .ok (typed, ds) => (env.after typed, ds)
  | .error (.rejected d) => (env, [d])
  | .error (.fault _) => (env, [])

/-- What comes of statements, one after the other. -/
def Direct.turns (env : Direct.Env) : List Stmt → Direct.Env × List Diagnostic
  | [] => (env, [])
  | st :: rest =>
    let first := Direct.turn rules env st
    let later := Direct.turns first.1 rest
    (later.1, first.2 ++ later.2)

/-- Statements can be checked in two parts. -/
theorem statements_append {mode : Mode} {l m : List Stmt} {s s' s'' : State}
    {typed more : List Typed.Stmt} (hl : statements rules mode l s = .ok typed s')
    (hm : statements rules mode m s' = .ok more s'') :
    statements rules mode (l ++ m) s = .ok (typed ++ more) s'' := by
  induction l generalizing s typed with
  | nil =>
    rw [statements] at hl
    cases hl
    exact hm
  | cons st l ih =>
    rw [List.cons_append, statements_cons]
    rw [statements_cons] at hl
    cases hst : stmt rules mode st s with
    | ok first s₁ =>
      rw [hst] at hl
      cases hrest : statements rules mode l s₁ with
      | error e s₂ => simp [hrest, mapOk] at hl
      | ok rest s₂ =>
        simp only [hrest, mapOk] at hl
        cases hl
        simp only [ih hrest]
        rfl
    | error e s₁ =>
      rw [hst] at hl
      dsimp only at hl ⊢
      split at hl
      · exact ih hl
      · cases hl

/-- A statement is checked as with an environment: the same is recorded, and the state agrees with
the environment after it. -/
theorem statements_turn {st : Stmt} (hst : st.WellFormed) {s : State} {env : Direct.Env}
    (h : s.Agrees env) :
    ∃ typed s', statements rules .accumulate [st] s = .ok typed s' ∧
      s'.recorded = s.recorded ++ (Direct.turn rules env st).2 ∧
      s'.Agrees (Direct.turn rules env st).1 := by
  have hsim := stmt_simulated rules .accumulate st h
  have hno := Direct.stmt_noFault rules .accumulate st env hst
  rw [Direct.turn, statements_cons]
  generalize stmt rules .accumulate st s = r at hsim
  generalize Direct.stmt rules .accumulate env st = d at hsim hno
  cases hsim with
  | ok recorded kept => exact ⟨_, _, rfl, recorded, kept⟩
  | @rejected d s' kept =>
    obtain ⟨recorded, hagrees⟩ := kept rfl
    refine ⟨[], _, rfl, ?_, hagrees.mono rfl List.prefix_rfl⟩
    rw [← recorded]
  | fault => exact absurd rfl (hno _)

/-- A list of statements is checked as with an environment. -/
theorem statements_turns {l : List Stmt} (hl : Stmt.AllWellFormed l) {s : State}
    {env : Direct.Env} (h : s.Agrees env) :
    ∃ typed s', statements rules .accumulate l s = .ok typed s' ∧
      s'.recorded = s.recorded ++ (Direct.turns rules env l).2 ∧
      s'.Agrees (Direct.turns rules env l).1 := by
  induction l generalizing s env with
  | nil => exact ⟨[], s, by rw [statements]; rfl, by simp [Direct.turns], h⟩
  | cons st l ih =>
    obtain ⟨first, s₁, hfirst, hrec₁, h₁⟩ := statements_turn rules hl.1 h
    obtain ⟨later, s₂, hlater, hrec₂, h₂⟩ := ih hl.2 h₁
    refine ⟨first ++ later, s₂, statements_append rules hfirst hlater, ?_, h₂⟩
    rw [hrec₂, hrec₁, List.append_assoc]
    rfl

/-- A statement that binds nothing leaves the environment as it is. -/
theorem turn_fst {st : Stmt} {s : State} {env : Direct.Env} (h : s.Agrees env)
    (hno : ¬ Succeeds rules s st) : (Direct.turn rules env st).1 = env := by
  rw [Direct.turn]
  cases st with
  | expr e span =>
    rw [Direct.stmt]
    rcases Direct.expr rules .accumulate env e with (d | f) | t <;> rfl
  | block body span =>
    rw [Direct.stmt]
    rcases Direct.statements rules .accumulate env body with (d | f) | r <;> rfl
  | bind name value span =>
    rw [Direct.stmt]
    rcases expr_simulated rules .accumulate value h with ⟨t, ht, -⟩ | ⟨f, new, -, hd⟩
    · exact absurd ⟨name, value, span, t, _, rfl, ht⟩ hno
    · rw [hd]
      cases f <;> rfl
  | print e span =>
    rw [Direct.stmt]
    rcases Direct.expr rules .accumulate env e with (d | f) | t <;> rfl
  | stray kind => rfl

/-- The names that are bound in a block are gone after it. -/
theorem statements_block {body : List Stmt} {s s' : State} {typed : List Typed.Stmt}
    {env : Direct.Env} (h : s.Agrees env)
    (hbody : statements rules .accumulate body s.pushed = .ok typed s') (span : Span) :
    statements rules .accumulate [.block body span] s =
        .ok [.block typed span] (s'.popped s.bindings.frames) ∧
      (s'.popped s.bindings.frames).Agrees env := by
  have hc := statements_confined rules .accumulate body s.pushed
  have hc' : Confined s.pushed s' := by rw [hbody] at hc; exact hc
  refine ⟨?_, h.popped hc'⟩
  rw [statements_cons, stmt_block, inScope_apply hc, hbody]
  rfl

/-- From two states that agree with one environment, a list of statements records the same, and leads
to two such states. -/
theorem statements_inStep {l : List Stmt} (hl : Stmt.AllWellFormed l) {s s' : State}
    {env : Direct.Env} (h : s.Agrees env) (h' : s'.Agrees env) :
    ∃ env' ds,
      (∃ typed t, statements rules .accumulate l s = .ok typed t ∧
        t.recorded = s.recorded ++ ds ∧ t.Agrees env') ∧
      (∃ typed t, statements rules .accumulate l s' = .ok typed t ∧
        t.recorded = s'.recorded ++ ds ∧ t.Agrees env') :=
  ⟨_, _, statements_turns rules hl h, statements_turns rules hl h'⟩

/-! ### Deletion -/

/-- What is recorded in two checks: from `s` to `t` with a statement, which is reached in state `r`,
and from `s'` to `t'` without it. -/
structure Deletes (st : Stmt) (s r t s' t' : State) (before own after : List Diagnostic) :
    Prop where
  /-- What is recorded before the statement. -/
  earlier : r.recorded = s.recorded ++ before
  /-- What is recorded when it is checked. -/
  turn : (stateOf (statements rules .accumulate [st] r)).recorded = r.recorded ++ own
  /-- What is recorded with it. -/
  kept : t.recorded = s.recorded ++ (before ++ own ++ after)
  /-- What is recorded without it. -/
  deleted : t'.recorded = s'.recorded ++ (before ++ after)

/-- From states that agree with one environment, the check of a list and that of the list without a
statement that binds nothing record the same but for the statement. -/
theorem statements_delete {st : Stmt} {c : Place} (hwf : Stmt.AllWellFormed (c.fill [st]))
    {s s' : State} {env : Direct.Env} (h : s.Agrees env) (h' : s'.Agrees env)
    (hno : ¬ Succeeds rules (reached rules s c) st) :
    ∃ typed t typed' t' before own after,
      statements rules .accumulate (c.fill [st]) s = .ok typed t ∧
      statements rules .accumulate (c.fill []) s' = .ok typed' t' ∧
      Deletes rules st s (reached rules s c) t s' t' before own after := by
  induction c generalizing s s' env with
  | here before after =>
    obtain ⟨hbefore, hst, hafter⟩ := Stmt.allWellFormed_append.mp hwf
    obtain ⟨env', ds, ⟨_, r, hr, hrec, hagrees⟩, ⟨_, r', hr', hrec', hagrees'⟩⟩ :=
      statements_inStep rules hbefore h h'
    have hreached : reached rules s (.here before after) = r := by rw [reached, hr]; rfl
    rw [hreached] at hno ⊢
    -- the turn of the statement leaves the environment as it is
    obtain ⟨_, u, hu, hrecu, hagreesu⟩ := statements_turn rules hst hagrees
    rw [turn_fst rules hagrees hno] at hagreesu
    obtain ⟨_, es, ⟨_, t, ht, hrect, -⟩, ⟨_, t', ht', hrect', -⟩⟩ :=
      statements_inStep rules hafter hagreesu hagrees'
    have hturn := congrArg (fun x => (stateOf x).recorded) hu
    refine ⟨_, t, _, t', ds, _, es, statements_append rules hr (statements_append rules hu ht),
      statements_append rules hr' ht', hrec, hturn.trans hrecu, ?_, ?_⟩
    · rw [hrect, hrecu, hrec, List.append_assoc, List.append_assoc, List.append_assoc]
    · rw [hrect', hrec', List.append_assoc]
  | inside before inner span after ih =>
    obtain ⟨hbefore, hblock, hafter⟩ := Stmt.allWellFormed_append.mp hwf
    obtain ⟨env', ds, ⟨_, r, hr, hrec, hagrees⟩, ⟨_, r', hr', hrec', hagrees'⟩⟩ :=
      statements_inStep rules hbefore h h'
    have hreached : reached rules s (.inside before inner span after) =
        reached rules r.pushed inner := by rw [reached, hr]; rfl
    rw [hreached] at hno ⊢
    obtain ⟨_, u, _, u', inner₁, own, inner₂, hu, hu', hdel⟩ :=
      ih hblock hagrees.pushed hagrees'.pushed hno
    obtain ⟨hb, hafterb⟩ := statements_block rules hagrees hu span
    obtain ⟨hb', hafterb'⟩ := statements_block rules hagrees' hu' span
    obtain ⟨_, es, ⟨_, t, ht, hrect, -⟩, ⟨_, t', ht', hrect', -⟩⟩ :=
      statements_inStep rules hafter hafterb hafterb'
    refine ⟨_, t, _, t', ds ++ inner₁, own, inner₂ ++ es,
      statements_append rules hr (statements_append rules hb ht),
      statements_append rules hr' (statements_append rules hb' ht'), ?_, hdel.turn, ?_, ?_⟩
    · rw [hdel.earlier, State.recorded_pushed, hrec, List.append_assoc]
    · rw [hrect, State.recorded_popped, hdel.kept, State.recorded_pushed, hrec]
      simp only [List.append_assoc]
    · rw [hrect', State.recorded_popped, hdel.deleted, State.recorded_pushed, hrec']
      simp only [List.append_assoc]

/-! ### Programs -/

/-- The problems that the check of a program ends with. There are none if it is accepted. -/
inductive Finds : Except Fault (Except Diagnostic Typed.Program) → List Problem → Prop where
  | accepted (typed : Typed.Program) : Finds (.ok (.ok typed)) []
  | refused {d : Diagnostic} (h : d.leaves ≠ []) : Finds (.ok (.error d)) d.leaves

theorem Finds.eq_leaves {d : Diagnostic} {l : List Problem} (h : Finds (.ok (.error d)) l) :
    l = d.leaves := by
  cases h
  rfl

/-- After its statements, a program is accepted or refused for what has been recorded. -/
theorem check_of_statements {p : Program} {typed : List Typed.Stmt} {s : State}
    (h : statements rules .accumulate p.statements (State.pushed {}) = .ok typed s) :
    (check rules .accumulate p).result =
      .ok (match Diagnostic.combine s.recorded with
        | some d => .error d
        | none => .ok ⟨typed, p.span⟩) := by
  rw [check, inScope_apply (statements_confined rules .accumulate p.statements _), h]
  dsimp only [State.recorded_popped]
  cases Diagnostic.combine s.recorded <;> rfl

/-- The problems of a program are those that have been recorded. -/
theorem finds_recorded {p : Program} (hwf : p.WellFormed) {typed : List Typed.Stmt} {s : State}
    (h : statements rules .accumulate p.statements (State.pushed {}) = .ok typed s) :
    Finds (check rules .accumulate p).result (leavesList s.recorded) := by
  have hresult := check_of_statements rules h
  cases hd : Diagnostic.combine s.recorded with
  | none =>
    rw [hd] at hresult
    rw [hresult, combine_eq_none hd]
    exact .accepted _
  | some d =>
    rw [hd] at hresult
    rw [hresult, ← leaves_combine hd]
    -- a diagnostic has a first problem, the one that the other mode stops at
    refine .refused fun hnone => ?_
    rw [check_eq_direct] at hresult
    rcases Direct.check_compared rules hwf with ⟨_, -, ha⟩ | ⟨q, _, -, ha, hbegins⟩
    · cases hresult.symm.trans ha
    · cases hresult.symm.trans ha
      have hfirst := hbegins.first
      rw [leavesList, hnone] at hfirst
      cases hfirst

/-- **Failures are independent.** Take any statement of a program, at any depth, except for a `let`
whose value is checked without a failure. If it is deleted, the problems that are recorded when it
is checked are gone, and all others stay as they are. -/
theorem check_delete {st : Stmt} {c : Place} {span : Span}
    (hwf : (Program.mk (c.fill [st]) span).WellFormed)
    (hno : ¬ Succeeds rules (reached rules (State.pushed {}) c) st) :
    let r := reached rules (State.pushed {}) c
    ∃ own after : List Problem,
      leavesList (stateOf (statements rules .accumulate [st] r)).recorded =
        leavesList r.recorded ++ own ∧
      Finds (check rules .accumulate ⟨c.fill [st], span⟩).result
        (leavesList r.recorded ++ own ++ after) ∧
      Finds (check rules .accumulate ⟨c.fill [], span⟩).result
        (leavesList r.recorded ++ after) := by
  intro r
  obtain ⟨_, t, _, t', before, own, after, ht, ht', hdel⟩ :=
    statements_delete rules hwf .start .start hno
  have hwf' : (Program.mk (c.fill []) span).WellFormed := (Place.allWellFormed_fill.mp hwf).1
  have hkept := finds_recorded rules hwf ht
  have hdeleted := finds_recorded rules hwf' ht'
  -- nothing is recorded at the start
  have hbefore : r.recorded = before := hdel.earlier
  rw [hdel.kept, ← hbefore] at hkept
  rw [hdel.deleted, ← hbefore] at hdeleted
  refine ⟨leavesList own, leavesList after, ?_, ?_, ?_⟩
  · rw [hdel.turn, leavesList_append]
  · rw [← leavesList_append, ← leavesList_append]
    exact hkept
  · rw [← leavesList_append]
    exact hdeleted

/-- In a block, after another failure: a `let` that fails, before a use of its name. -/
theorem check_delete_failing_let :
    let x : Expr := .var ⟨"x", {}⟩ {}
    let y : Expr := .var ⟨"y", {}⟩ {}
    let st : Stmt := .bind ⟨"x", {}⟩ (.prefixed ⟨"+", {}⟩ (.literal ⟨0⟩ {}) {}) {}
    let c : Place := .inside [.expr y {}] (.here [] [.print x {}]) {} [.expr x {}]
    (Program.mk (c.fill [st]) {}).WellFormed ∧
      ¬ Succeeds .standard (reached .standard (State.pushed {}) c) st ∧
      Finds (check .standard .accumulate ⟨c.fill [st], {}⟩).result
        [.undefinedVariable "y" {}, .custom {} "Unknown prefix operator '+'",
          .undefinedVariable "x" {}, .undefinedVariable "x" {}] ∧
      Finds (check .standard .accumulate ⟨c.fill [], {}⟩).result
        [.undefinedVariable "y" {}, .undefinedVariable "x" {}, .undefinedVariable "x" {}] := by
  intro x y st c
  have hwf : (Program.mk (c.fill [st]) {}).WellFormed :=
    ⟨trivial, ⟨trivial, trivial, trivial⟩, trivial, trivial⟩
  have hno : ¬ Succeeds .standard (reached .standard (State.pushed {}) c) st := by
    rintro ⟨_, value, _, t, s, hst, h⟩
    obtain ⟨-, rfl, -⟩ := Stmt.bind.inj hst
    cases h
  obtain ⟨own, after, hturn, hkept, hdeleted⟩ := check_delete .standard hwf hno
  have hown : own = [.custom {} "Unknown prefix operator '+'"] := (List.cons.inj hturn).2.symm
  subst hown
  have hafter : after = [.undefinedVariable "x" {}, .undefinedVariable "x" {}] := by
    have hleaves := Finds.eq_leaves hkept
    exact (List.cons.inj (List.cons.inj hleaves).2).2
  subst hafter
  exact ⟨hwf, hno, hkept, hdeleted⟩

end Check

end NumCheck
