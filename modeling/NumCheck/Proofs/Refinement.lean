import NumCheck.Check.Direct
import NumCheck.Proofs.Confinement
import NumCheck.Proofs.Snapshots

/-!
# The check with slots refines the check with an environment

The check keeps the types of names in slots, which it reaches through the scopes and through
chains of links. `Check.Direct` keeps them in an environment that is passed along. This module
relates the two step by step: a state *agrees* with an environment if each name leads to a slot
of the type that the environment has for it. From states and environments that agree, every
form of expression and of statement gives the same result on both sides, and leaves a state
behind that agrees again.

## What is proved

* `expr_eq_direct`: expressions have the same result.
* `stmt_simulated`, `statements_simulated`: statements have the same result, and record the
  diagnostics that the check with an environment gives.
* `check_eq_direct`: programs have the same result, also those with stray nodes.
* `check_refines_direct`: for a program without stray nodes this is a typed program or a
  diagnostic.
-/

namespace NumCheck

/-! ### Trees without stray nodes -/

/-- No part of the expression is stray. -/
def Expr.WellFormed : Expr → Prop
  | .var .. | .literal .. => True
  | .prefixed _ operand _ => operand.WellFormed
  | .binary _ lhs rhs _ => lhs.WellFormed ∧ rhs.WellFormed
  | .stray _ => False

mutual
/-- No part of the statement is stray. -/
def Stmt.WellFormed : Stmt → Prop
  | .expr e _ | .bind _ e _ | .print e _ => e.WellFormed
  | .block statements _ => Stmt.AllWellFormed statements
  | .stray _ => False
/-- No part of the statements is stray. -/
def Stmt.AllWellFormed : List Stmt → Prop
  | [] => True
  | s :: rest => s.WellFormed ∧ Stmt.AllWellFormed rest
end

/-- No part of the program is stray. -/
def Program.WellFormed (p : Program) : Prop := Stmt.AllWellFormed p.statements

/-! ### Slots -/

theorem Arena.get?_of_prefix {a b : Arena} (h : a.slots.toList <+: b.slots.toList) (id : SlotId)
    (s : Slot) (hs : a.get? id = some s) : b.get? id = some s := by
  obtain ⟨new, hnew⟩ := h
  have hb : b.slots = a.slots ++ new.toArray := by
    rw [← Array.toList_inj, ← hnew]
    simp
  rw [Arena.get?] at hs ⊢
  split at hs
  · next h0 =>
    rw [if_pos h0, hb]
    exact Array.getElem?_append_left (Array.getElem?_eq_some_iff.mp hs).1 ▸ hs
  · cases hs

namespace Check

variable (rules : Rules) (mode : Mode)

/-- A new link resolves to the type of the slot before it. -/
theorem State.resolve_growLink (s : State) (t : Typed.Expr) (span : Span) :
    (s.growLink t.slot span).arena.resolve (s.arena.size + 1 + 1 : Int) = .ok t.ty := by
  have harena : (s.growLink t.slot span).arena =
      ((s.grow t.slot).grow ⟨.link (s.arena.size + 1), span⟩).arena := rfl
  have htarget := State.get?_grow_grow s t.slot ⟨.link (s.arena.size + 1), span⟩
  have hlink := State.get?_grow_new (s.grow t.slot) ⟨.link (s.arena.size + 1), span⟩
  rw [State.size_grow] at hlink
  rw [harena]
  exact Arena.resolve_eq_ok_iff.mpr
    ⟨_, t.slot, .link hlink rfl (.root htarget fun _ => Content.noConfusion), htarget, rfl⟩

/-! ### Agreement -/

/-- Every name has the type in the state that it has in the environment, and some scope can
take new names. -/
structure State.Agrees (s : State) (env : Direct.Env) : Prop where
  /-- A scope is open. -/
  nested : s.bindings.frames ≠ []
  /-- The names lead to slots of their types. -/
  names : ∀ name, (s.bindings.get? name).join.map s.arena.resolve = (env.lookup name).map .ok

namespace State.Agrees

variable {s s' : State} {env : Direct.Env}

/-- More slots do not change the types of the names. -/
theorem mono (h : s.Agrees env) (hb : s'.bindings = s.bindings)
    (hs : s.arena.slots.toList <+: s'.arena.slots.toList) : s'.Agrees env := by
  refine ⟨hb ▸ h.nested, fun name => ?_⟩
  have hn := h.names name
  rw [hb]
  cases hid : (s.bindings.get? name).join with
  | none =>
    rw [hid] at hn
    exact hn
  | some id =>
    rw [hid] at hn
    cases ht : env.lookup name with
    | none =>
      rw [ht] at hn
      cases hn
    | some ty =>
      rw [ht, Option.map_some, Option.map_some, Option.some.injEq] at hn
      rw [Option.map_some, Option.map_some,
        Arena.resolve_mono (Arena.get?_of_prefix hs) hn]

theorem growAll (h : s.Agrees env) (new : List Slot) : (s.growAll new).Agrees env :=
  h.mono (s.bindings_growAll new) ⟨new, (s.slots_growAll new).symm⟩

/-- A new scope hides nothing. -/
theorem pushed (h : s.Agrees env) : s.pushed.Agrees env :=
  ⟨List.cons_ne_nil _ _, h.names⟩

/-- At the end of a scope the names are those before it. -/
theorem popped (h : s.Agrees env) (hs : Confined s.pushed s') :
    (s'.popped s.bindings.frames).Agrees env :=
  h.mono rfl hs.slots

/-- A name that is bound to a new link has the type of the slot that it leads to. -/
theorem bound (h : s.Agrees env) (t : Typed.Expr) (span : Span) (name : String)
    {bindings : Scopes String (Option SlotId)}
    (hi : s.bindings.insert name (some (s.arena.size + 1 + 1)) = .ok bindings) :
    ((s.growLink t.slot span).bound name (s.arena.size + 1 + 1) bindings).Agrees
      ((name, t.ty) :: env) := by
  have hc := (Confined.growLink s t.slot span).trans (Confined.bound hi)
  refine ⟨?_, fun name' => ?_⟩
  · intro hnil
    have hd : bindings.frames.length = s.bindings.frames.length := hc.depth
    rw [show bindings.frames = [] from hnil] at hd
    exact h.nested (List.length_eq_zero_iff.mp hd.symm)
  · have hget : bindings.get? name' = _ := Scopes.get?_insert hi name'
    rw [show ((s.growLink t.slot span).bound name (s.arena.size + 1 + 1) bindings).bindings =
      bindings from rfl, hget, lookup_cons_ite]
    by_cases hn : name' = name
    · rw [if_pos hn, if_pos hn]
      exact congrArg some (s.resolve_growLink t span)
    · rw [if_neg hn, if_neg hn]
      have hg : (s.growLink t.slot span).Agrees env :=
        h.mono rfl (Confined.growLink s t.slot span).slots
      exact hg.names name'

end State.Agrees

/-! ### Expressions -/

/-- The value or the failure of a result. -/
def valueOf {α : Type} : EStateM.Result Failure State α → Except Failure α
  | .ok v _ => .ok v
  | .error e _ => .error e

theorem valueOf_operands (x y : CheckM Typed.Expr) (s : State) :
    valueOf (operands mode x y s) =
      Direct.both mode (valueOf (x s)) (valueOf (y (stateOf (x s)))) := by
  rw [operands_apply]
  rcases hx : x s with ⟨l, s₁⟩ | ⟨d | f, s₁⟩
  · simp only [stateOf]
    rcases y s₁ with ⟨r, s₂⟩ | ⟨e, s₂⟩ <;> cases mode <;> rfl
  · simp only [stateOf]
    rcases y s₁ with ⟨r, s₂⟩ | ⟨e | g, s₂⟩ <;> cases mode <;> rfl
  · simp only [stateOf]
    rcases y s₁ with ⟨r, s₂⟩ | ⟨e | g, s₂⟩ <;> cases mode <;> rfl

/-- An expression has the same result with slots as with an environment. -/
theorem expr_eq_direct (e : Expr) {s : State} {env : Direct.Env} (h : s.Agrees env) :
    valueOf (expr rules mode e s) = Direct.expr rules mode env e := by
  induction e generalizing s with
  | var name span =>
    rw [expr_var, Direct.expr]
    have hn := h.names name.name
    cases hid : (s.bindings.get? name.name).join with
    | none =>
      rw [hid] at hn
      rw [Option.map_eq_none_iff.mp hn.symm]
      rfl
    | some id =>
      rw [hid, Option.map_some] at hn
      obtain ⟨ty, ht, hr⟩ := Option.map_eq_some_iff.mp hn.symm
      simp only [ht, ← hr]
      rfl
  | literal value span => rfl
  | prefixed op operand span ih =>
    rw [expr_prefixed, Direct.expr, ← ih h]
    cases UnaryOp.ofSymbol? op.symbol with
    | none => rfl
    | some lowered =>
      cases expr rules mode operand s with
      | error f s' => rfl
      | ok t s' =>
        simp only [valueOf]
        cases rules.unary lowered t.ty <;> rfl
  | binary op lhs rhs span ihl ihr =>
    have hs : (stateOf (expr rules mode lhs s)).Agrees env := by
      rcases expr_state rules mode lhs s with ⟨t, ht⟩ | ⟨f, new, ht⟩ <;> rw [ht]
      · exact h.growAll t.slots
      · exact h.growAll new
    rw [expr_binary, Direct.expr, ← ihl h, ← ihr hs, ← valueOf_operands]
    cases BinaryOp.ofSymbol? op.symbol with
    | none => rfl
    | some lowered =>
      cases operands mode (expr rules mode lhs) (expr rules mode rhs) s with
      | error f s' => rfl
      | ok lr s' =>
        simp only [valueOf]
        cases (if lr.1.ty = lr.2.ty then rules.binary lr.1.ty lr.2.ty else none) <;> rfl
  | stray kind => rfl

/-- An expression in a state ends as it does with an environment, and leaves a state behind that
still agrees with it. -/
theorem expr_simulated (e : Expr) {s : State} {env : Direct.Env} (h : s.Agrees env) :
    (∃ t, expr rules mode e s = .ok t (s.growAll t.slots) ∧
        Direct.expr rules mode env e = .ok t) ∨
      ∃ f new, expr rules mode e s = .error f (s.growAll new) ∧
        Direct.expr rules mode env e = .error f := by
  rw [← expr_eq_direct rules mode e h]
  rcases expr_state rules mode e s with ⟨t, ht⟩ | ⟨f, new, ht⟩
  · exact .inl ⟨t, ht, by rw [ht]; rfl⟩
  · exact .inr ⟨f, new, ht, by rw [ht]; rfl⟩

/-! ### Statements -/

/-- The result of a step from state `s` is that of the check with an environment, whose
diagnostics have been recorded. `P` is what holds of a typed tree and of the state after it, and
`R` of the state after a diagnostic. -/
inductive Simulated {α : Type} (s : State) (P : α → State → Prop) (R : State → Prop) :
    EStateM.Result Failure State α → Except Failure (α × List Diagnostic) → Prop where
  /-- A typed tree. -/
  | ok {v : α} {ds : List Diagnostic} {s' : State} (recorded : s'.recorded = s.recorded ++ ds)
      (kept : P v s') : Simulated s P R (.ok v s') (.ok (v, ds))
  /-- A diagnostic. -/
  | rejected {d : Diagnostic} {s' : State} (kept : R s') :
      Simulated s P R (.error (.rejected d) s') (.error (.rejected d))
  /-- A fault. -/
  | fault {f : Fault} {s' : State} : Simulated s P R (.error (.fault f) s') (.error (.fault f))

/-- A statement is simulated: the state agrees with the environment after it. So does that after
a diagnostic, if the check goes on there. -/
abbrev StmtSimulated (s : State) (env : Direct.Env) :
    EStateM.Result Failure State Typed.Stmt →
      Except Failure (Typed.Stmt × List Diagnostic) → Prop :=
  Simulated s (fun typed s' => s'.Agrees (env.after typed))
    (fun s' => mode = .accumulate → s'.recorded = s.recorded ∧ s'.Agrees env)

/-- A list of statements is simulated. Only in `failFast` mode does it end with a diagnostic. -/
abbrev StatementsSimulated (s : State) :
    EStateM.Result Failure State (List Typed.Stmt) →
      Except Failure (List Typed.Stmt × List Diagnostic) → Prop :=
  Simulated s (fun _ _ => True) (fun _ => mode = .failFast)

/-- A failure of an expression is one of its statement. -/
theorem StmtSimulated.error {s : State} {env : Direct.Env} (h : s.Agrees env) (f : Failure)
    (new : List Slot) : StmtSimulated mode s env (.error f (s.growAll new)) (.error f) := by
  cases f with
  | rejected d => exact .rejected fun _ => ⟨s.recorded_growAll new, h.growAll new⟩
  | fault f => exact .fault

theorem stmt_expr_simulated (e : Expr) {s : State} {env : Direct.Env} (h : s.Agrees env)
    (build : Typed.Expr → Typed.Stmt) (hb : ∀ t, env.after (build t) = env) :
    StmtSimulated mode s env (mapOk build (expr rules mode e s))
      ((Direct.expr rules mode env e).map fun t => (build t, [])) := by
  rcases expr_simulated rules mode e h with ⟨t, ht, hd⟩ | ⟨f, new, ht, hd⟩
  · rw [ht, hd]
    refine .ok (by rw [State.recorded_growAll, List.append_nil]) ?_
    rw [hb]
    exact h.growAll t.slots
  · rw [ht, hd]
    exact .error mode h f new

theorem binding_simulated (name : Ident) (value : Expr) (span : Span) {s : State}
    {env : Direct.Env} (h : s.Agrees env) :
    StmtSimulated mode s env (binding rules mode name value span s)
      ((Direct.expr rules mode env value).map fun t => (.bind name t span, [])) := by
  rw [binding_apply]
  rcases expr_simulated rules mode value h with ⟨t, ht, hd⟩ | ⟨f, new, ht, hd⟩
  · rw [ht, hd]
    have hg := h.growAll t.slots
    obtain ⟨bindings, hi⟩ := Scopes.exists_insert hg.nested name.name
      (some ((s.growAll t.slots).arena.size + 1 + 1))
    dsimp only
    rw [hi]
    refine .ok ?_ (hg.bound t name.span name.name hi)
    rw [List.append_nil]
    exact s.recorded_growAll t.slots
  · rw [ht, hd]
    exact .error mode h f new

/-! ### Results of the check with an environment -/

theorem map_eq_ok {α β : Type} {x : Except Failure α} {f : α → β} {b : β} (h : x.map f = .ok b) :
    ∃ a, x = .ok a ∧ f a = b := by
  cases x with
  | error e => cases h
  | ok a => exact ⟨a, rfl, Except.ok.inj h⟩

theorem Direct.both_eq_ok {x y : Except Failure Typed.Expr} {l r : Typed.Expr}
    (h : Direct.both mode x y = .ok (l, r)) : x = .ok l ∧ y = .ok r := by
  rw [Direct.both.eq_def] at h
  split at h <;> cases h
  exact ⟨rfl, rfl⟩

/-- With an environment, a list of statements is checked in order, and goes on after a diagnostic
only in `accumulate` mode. -/
theorem Direct.statements_cons (env : Direct.Env) (st : Stmt) (rest : List Stmt) :
    Direct.statements rules mode env (st :: rest) =
      match Direct.stmt rules mode env st with
      | .ok (typed, ds) =>
        (Direct.statements rules mode (env.after typed) rest).map
          fun (more, es) => (typed :: more, ds ++ es)
      | .error e =>
        match mode, e with
        | .accumulate, .rejected d =>
          (Direct.statements rules mode env rest).map fun (more, es) => (more, d :: es)
        | _, _ => .error e := by
  rw [Direct.statements.eq_def]
  dsimp only
  rcases Direct.stmt rules mode env st with (d | f) | r <;> cases mode <;> rfl

/-! ### Simulation -/

mutual
/-- A statement is checked with slots as it is with an environment. -/
theorem stmt_simulated : ∀ (st : Stmt) {s : State} {env : Direct.Env}, s.Agrees env →
    StmtSimulated mode s env (stmt rules mode st s) (Direct.stmt rules mode env st)
  | .expr e span, s, env, h => by
    rw [stmt_expr, Direct.stmt]
    exact stmt_expr_simulated rules mode e h (.expr · span) fun _ => rfl
  | .block body span, s, env, h => by
    have hc := statements_confined rules mode body s.pushed
    have hb := statements_simulated body h.pushed
    rw [stmt_block, Direct.stmt, inScope_apply hc]
    cases ht : statements rules mode body s.pushed with
    | ok typed s' =>
      rw [ht] at hb hc
      cases hd : Direct.statements rules mode env body with
      | error f =>
        rw [hd] at hb
        cases hb
      | ok r =>
        rw [hd] at hb
        cases hb with
        | ok recorded _ => exact .ok recorded (h.popped hc)
    | error f s' =>
      rw [ht] at hb
      cases hd : Direct.statements rules mode env body with
      | ok r =>
        rw [hd] at hb
        cases hb
      | error g =>
        rw [hd] at hb
        cases hb with
        | rejected hm => exact .rejected fun ha => Mode.noConfusion (hm.symm.trans ha)
        | fault => exact .fault
  | .bind name value span, s, env, h => by
    rw [stmt_bind, Direct.stmt]
    exact binding_simulated rules mode name value span h
  | .print e span, s, env, h => by
    rw [stmt_print, Direct.stmt]
    exact stmt_expr_simulated rules mode e h (.print · span) fun _ => rfl
  | .stray kind, s, env, h => by
    rw [stmt, Direct.stmt]
    exact .fault
/-- A list of statements is checked with slots as it is with an environment. -/
theorem statements_simulated : ∀ (l : List Stmt) {s : State} {env : Direct.Env}, s.Agrees env →
    StatementsSimulated mode s (statements rules mode l s) (Direct.statements rules mode env l)
  | [], s, env, h => by
    rw [statements, Direct.statements]
    exact .ok (by rw [List.append_nil]) trivial
  | st :: rest, s, env, h => by
    have hst := stmt_simulated st h
    have hrest {s' : State} {env' : Direct.Env} := @statements_simulated rest s' env'
    rw [statements_cons, Direct.statements_cons]
    generalize stmt rules mode st s = r at hst
    generalize Direct.stmt rules mode env st = d at hst
    cases hst with
    | @ok typed ds s' recorded kept =>
      -- the rest goes on with the environment after the statement
      have hr := hrest kept
      dsimp only
      generalize statements rules mode rest s' = r at hr
      generalize Direct.statements rules mode (env.after typed) rest = d at hr
      cases hr with
      | ok recorded' _ => exact .ok (by rw [recorded', recorded, List.append_assoc]) trivial
      | rejected hm => exact .rejected hm
      | fault => exact .fault
    | @rejected d s' kept =>
      cases hm : mode with
      | failFast => exact .rejected rfl
      | accumulate =>
        subst hm
        -- the rest goes on with the environment before the statement
        obtain ⟨recorded, ha⟩ := kept rfl
        have ha' : State.Agrees { s' with recorded := s'.recorded ++ [d] } env :=
          ha.mono rfl List.prefix_rfl
        have hr := hrest ha'
        dsimp only
        generalize statements rules .accumulate rest { s' with recorded := s'.recorded ++ [d] } = r
          at hr
        generalize Direct.statements rules .accumulate env rest = d at hr
        cases hr with
        | ok recorded' _ =>
          refine .ok ?_ trivial
          rw [recorded', recorded, List.append_assoc, List.singleton_append]
        | rejected hm => exact .rejected hm
        | fault => exact .fault
    | fault => cases mode <;> exact .fault
end

/-! ### Programs -/

/-- At the start of a program no name is bound. -/
theorem State.Agrees.start : State.Agrees (State.pushed {}) [] :=
  ⟨List.cons_ne_nil _ _, fun _ => rfl⟩

/-- A program has the same result with slots as with an environment. -/
theorem check_eq_direct (p : Program) :
    (check rules mode p).result = Direct.check rules mode p := by
  have hs := statements_simulated rules mode p.statements .start
  rw [check, Direct.check, inScope_apply (statements_confined rules mode p.statements _)]
  generalize statements rules mode p.statements (State.pushed {}) = r at hs
  generalize Direct.statements rules mode [] p.statements = d at hs
  cases hs with
  | @ok typed ds s' recorded _ =>
    have hr : (s'.popped []).recorded = ds := recorded
    simp only [hr]
    cases Diagnostic.combine ds <;> rfl
  | rejected hm => rfl
  | fault => rfl

/-! ### No faults without stray nodes -/

/-- A result that is no fault. -/
def NoFault {α : Type} (x : Except Failure α) : Prop := ∀ f, x ≠ .error (.fault f)

theorem NoFault.map {α β : Type} {x : Except Failure α} (h : NoFault x) (g : α → β) :
    NoFault (x.map g) := by
  intro f hf
  cases x with
  | ok v => cases hf
  | error e =>
    cases hf
    exact h f rfl

namespace Direct

theorem both_noFault {x y : Except Failure Typed.Expr} (hx : NoFault x) (hy : NoFault y) :
    NoFault (both mode x y) := by
  intro f hf
  rcases x with (d | g) | l
  · rcases y with (e | g) | r
    · cases mode <;> cases hf
    · exact hy g rfl
    · cases mode <;> cases hf
  · exact hx g rfl
  · rcases y with (e | g) | r
    · cases mode <;> cases hf
    · exact hy g rfl
    · cases mode <;> cases hf

theorem expr_noFault (env : Env) {e : Expr} (h : e.WellFormed) :
    NoFault (expr rules mode env e) := by
  induction e with
  | var name span =>
    intro f
    rw [expr]
    split <;> nofun
  | literal value span => nofun
  | prefixed op operand span ih =>
    intro f
    have hs := ih h f
    rw [expr]
    split
    · nofun
    · split
      · next hf =>
        intro hg
        cases hg
        exact hs hf
      · split <;> nofun
  | binary op lhs rhs span ihl ihr =>
    intro f
    have hs := both_noFault mode (ihl h.1) (ihr h.2) f
    rw [expr]
    split
    · nofun
    · split
      · next hf =>
        intro hg
        cases hg
        exact hs hf
      · split <;> nofun
  | stray kind => exact h.elim

mutual
theorem stmt_noFault : ∀ (st : Stmt) (env : Env), st.WellFormed →
    NoFault (stmt rules mode env st)
  | .expr e span, env, h => by
    rw [stmt]
    exact (expr_noFault rules mode env h).map _
  | .block body span, env, h => by
    rw [stmt]
    exact (statements_noFault body env h).map _
  | .bind name value span, env, h => by
    rw [stmt]
    exact (expr_noFault rules mode env h).map _
  | .print e span, env, h => by
    rw [stmt]
    exact (expr_noFault rules mode env h).map _
  | .stray kind, env, h => h.elim
theorem statements_noFault : ∀ (l : List Stmt) (env : Env), Stmt.AllWellFormed l →
    NoFault (statements rules mode env l)
  | [], env, _ => by
    rw [statements]
    nofun
  | st :: rest, env, h => by
    have hst := stmt_noFault st env h.1
    have hrest := fun env' => statements_noFault rest env' h.2
    rw [Direct.statements_cons]
    split
    · exact (hrest _).map _
    · next e he =>
      split
      · exact (hrest env).map _
      · intro f hf
        cases hf
        exact hst f he
end

/-- Without stray nodes the check with an environment gives a typed program or a diagnostic. -/
theorem check_noFault {p : Program} (h : p.WellFormed) : ∃ r, check rules mode p = .ok r := by
  have hs := statements_noFault rules mode p.statements [] h
  rw [check]
  split
  · split
    · exact ⟨_, rfl⟩
    · exact ⟨_, rfl⟩
  · exact ⟨_, rfl⟩
  · next f hf => exact absurd hf (hs f)

end Direct

/-- **The check with slots refines the check with an environment**: whatever the rules and the
mode, both give the same typed program or the same diagnostic. -/
theorem check_refines_direct {p : Program} (h : p.WellFormed) :
    ∃ r, (check rules mode p).result = .ok r ∧ Direct.check rules mode p = .ok r := by
  obtain ⟨r, hr⟩ := Direct.check_noFault rules mode h
  exact ⟨r, (check_eq_direct rules mode p).trans hr, hr⟩

/-- After a block that hides a name, two operands that are wrong. -/
theorem check_refines_direct_shadowed :
    let x : Expr := .var ⟨"x", {}⟩ {}
    let p : Program := ⟨[.bind ⟨"x", {}⟩ (.literal ⟨0⟩ {}) {},
      .block [.bind ⟨"x", {}⟩ (.prefixed ⟨"-", {}⟩ x {}) {}] {},
      .print (.binary ⟨"+", {}⟩ (.prefixed ⟨"+", {}⟩ x {}) (.var ⟨"y", {}⟩ {}) {}) {}], {}⟩
    p.WellFormed ∧ (check .standard .accumulate p).result = .ok (.error (.many
      [.one (.custom {} "Unknown prefix operator '+'"), .one (.undefinedVariable "y" {})])) := by
  intro x p
  have hp : p.WellFormed := ⟨trivial, ⟨trivial, trivial⟩, ⟨trivial, trivial⟩, trivial⟩
  obtain ⟨r, hr, hd⟩ := check_refines_direct .standard .accumulate hp
  rw [show Direct.check .standard .accumulate p = .ok (.error (.many
    [.one (.custom {} "Unknown prefix operator '+'"), .one (.undefinedVariable "y" {})])) from rfl,
    Except.ok.injEq] at hd
  exact ⟨hp, hr.trans (congrArg Except.ok hd.symm)⟩

end Check

end NumCheck
