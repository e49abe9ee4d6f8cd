import NumCheck.Proofs.Modes
import NumCheck.Proofs.Slices

/-!
# Every failure has a reason in the tree

A check works with an arena and with scopes, both of which can fault: a slot may be missing, links
may run in a circle, contents may not go together, a scope may not be open. None of this ever comes
out of a check, whatever the tree, the rules and the mode. What comes out is about the tree. A fault
names a stray node of it, and each problem is found at one of its expressions.

That the arena and the scopes answer is part of the refinement by the check with an environment,
which has neither. So it is enough to follow the failures of that check back to their nodes.

Where in the arena something would have gone wrong is not said, because nothing does. Running out of
stack is no fault here.
-/

namespace NumCheck.Check

open Diagnostic (leavesList)

variable (rules : Rules) (mode : Mode)

/-! ### Reasons -/

/-- What can be wrong with an expression, apart from its operands. -/
inductive FoundAt : Expr → Problem → Prop where
  /-- The name is not bound. -/
  | unbound (name : Ident) (span : Span) :
      FoundAt (.var name span) (.undefinedVariable name.name span)
  /-- The symbol before the operand is no operator. -/
  | unarySymbol {op : Operator} (operand : Expr) (span : Span) :
      UnaryOp.ofSymbol? op.symbol = none →
        FoundAt (.prefixed op operand span)
          (.custom op.span s!"Unknown prefix operator '{op.symbol}'")
  /-- The symbol between the operands is no operator. -/
  | binarySymbol {op : Operator} (lhs rhs : Expr) (span : Span) :
      BinaryOp.ofSymbol? op.symbol = none →
        FoundAt (.binary op lhs rhs span)
          (.custom op.span s!"Unknown binary operator '{op.symbol}'")
  /-- There is no rule for the type of the operand. -/
  | unaryRule {op : Operator} {lowered : UnaryOp} {ty : Ty} (operand : Expr) (span : Span) :
      UnaryOp.ofSymbol? op.symbol = some lowered → rules.unary lowered ty = none →
        FoundAt (.prefixed op operand span) (.cannotApplyUnary op.span (.unary lowered) ty)
  /-- The types of the operands differ, or there is no rule for them. -/
  | binaryRule {op : Operator} {lowered : BinaryOp} {ty₁ ty₂ : Ty} (lhs rhs : Expr) (span : Span) :
      BinaryOp.ofSymbol? op.symbol = some lowered → (ty₁ = ty₂ → rules.binary ty₁ ty₂ = none) →
        FoundAt (.binary op lhs rhs span) (.cannotApplyBinary op.span (.binary lowered) ty₁ ty₂)

/-- The problem is found at one of the expressions. -/
def FoundIn (es : List Expr) (q : Problem) : Prop := ∃ e ∈ es, FoundAt rules e q

/-- The failure is about the statements `ss` or the expressions `es`. -/
def Failure.ReasonIn (ss : List Stmt) (es : List Expr) : Failure → Prop
  | .rejected d => ∀ q ∈ d.leaves, FoundIn rules es q
  | .fault (.strayStmt kind) => .stray kind ∈ ss
  | .fault (.strayExpr kind) => .stray kind ∈ es
  | .fault _ => False

variable {rules} {ss ss' : List Stmt} {es es' : List Expr}

theorem FoundIn.mono (hes : es ⊆ es') {q : Problem} (h : FoundIn rules es q) :
    FoundIn rules es' q := by
  obtain ⟨e, he, hq⟩ := h
  exact ⟨e, hes he, hq⟩

theorem Failure.ReasonIn.mono (hss : ss ⊆ ss') (hes : es ⊆ es') {f : Failure}
    (h : f.ReasonIn rules ss es) : f.ReasonIn rules ss' es' := by
  cases f with
  | rejected d => exact fun q hq => (h q hq).mono hes
  | fault f =>
    cases f with
    | strayStmt kind => exact hss h
    | strayExpr kind => exact hes h
    | arena f => exact h.elim
    | scopes e => exact h.elim

theorem Failure.reasonIn_problem {q : Problem} (h : FoundIn rules es q) :
    (Failure.problem q).ReasonIn rules ss es := by
  intro q' hq
  rw [List.mem_singleton.mp hq]
  exact h

namespace Direct

/-! ### Expressions -/

theorem both_reason {x y : Except Failure Typed.Expr}
    (hx : ∀ f, x = .error f → f.ReasonIn rules ss es)
    (hy : ∀ f, y = .error f → f.ReasonIn rules ss es) {f : Failure}
    (h : both mode x y = .error f) : f.ReasonIn rules ss es := by
  rcases x with (d | g) | l
  · rcases y with (e | g) | r
    · cases mode with
      | failFast =>
        cases h
        exact hx _ rfl
      | accumulate =>
        cases h
        intro q hq
        simp only [Diagnostic.leaves, leavesList, List.append_nil, List.mem_append] at hq
        rcases hq with hq | hq
        · exact hx _ rfl q hq
        · exact hy _ rfl q hq
    · cases mode with
      | failFast =>
        cases h
        exact hx _ rfl
      | accumulate =>
        cases h
        exact hy _ rfl
    · cases mode <;> cases h <;> exact hx _ rfl
  · cases mode <;> cases h <;> exact hx _ rfl
  · rcases y with e | r
    · cases mode <;> cases h <;> exact hy _ rfl
    · cases mode <;> cases h

/-- An expression fails for one of its own nodes. -/
theorem expr_reason (env : Env) {e : Expr} {f : Failure} (h : expr rules mode env e = .error f) :
    f.ReasonIn rules [] e.nodes := by
  induction e generalizing f with
  | var name span =>
    rw [expr] at h
    split at h
    · cases h
    · cases h
      exact Failure.reasonIn_problem ⟨_, List.mem_cons_self, .unbound name span⟩
  | literal value span => cases h
  | prefixed op operand span ih =>
    rw [expr] at h
    split at h
    · next hop =>
      cases h
      exact Failure.reasonIn_problem ⟨_, List.mem_cons_self, .unarySymbol operand span hop⟩
    · next lowered hop =>
      split at h
      · next hf =>
        cases h
        exact (ih hf).mono (List.Subset.refl _) (List.subset_cons_self _ _)
      · split at h
        · cases h
        · next hrule =>
          cases h
          exact Failure.reasonIn_problem
            ⟨_, List.mem_cons_self, .unaryRule operand span hop hrule⟩
  | binary op lhs rhs span ihl ihr =>
    rw [expr] at h
    split at h
    · next hop =>
      cases h
      exact Failure.reasonIn_problem ⟨_, List.mem_cons_self, .binarySymbol lhs rhs span hop⟩
    · next lowered hop =>
      split at h
      · next hf =>
        cases h
        refine both_reason mode (fun g hg => ?_) (fun g hg => ?_) hf
        · exact (ihl hg).mono (List.Subset.refl _)
            (List.Subset.trans (List.subset_append_left _ _) (List.subset_cons_self _ _))
        · exact (ihr hg).mono (List.Subset.refl _)
            (List.Subset.trans (List.subset_append_right _ _) (List.subset_cons_self _ _))
      · next l r _ =>
        split at h
        · cases h
        · next hrule =>
          cases h
          refine Failure.reasonIn_problem
            ⟨_, List.mem_cons_self, .binaryRule lhs rhs span hop fun hty => ?_⟩
          rwa [if_pos hty] at hrule
  | stray kind =>
    cases h
    exact List.mem_cons_self

/-! ### Statements -/

/-- The failure of a result, or else what has been recorded, is about the statements `ss` or the
expressions `es`. -/
def Reasoned (rules : Rules) {α : Type} (ss : List Stmt) (es : List Expr) :
    Except Failure (α × List Diagnostic) → Prop
  | .ok (_, ds) => ∀ q ∈ leavesList ds, FoundIn rules es q
  | .error f => f.ReasonIn rules ss es

theorem Reasoned.mono {α : Type} (hss : ss ⊆ ss') (hes : es ⊆ es')
    {x : Except Failure (α × List Diagnostic)} (h : Reasoned rules ss es x) :
    Reasoned rules ss' es' x := by
  cases x with
  | ok r => exact fun q hq => (h q hq).mono hes
  | error f => exact Failure.ReasonIn.mono hss hes h

/-- More diagnostics with reasons may come before those of a result. -/
theorem Reasoned.map {α β : Type} {x : Except Failure (α × List Diagnostic)}
    (h : Reasoned rules ss es x) (g : α → β) (ds : List Diagnostic)
    (hds : ∀ q ∈ leavesList ds, FoundIn rules es q) :
    Reasoned rules ss es (x.map fun (v, es) => (g v, ds ++ es)) := by
  cases x with
  | ok r =>
    intro q hq
    rw [Diagnostic.leavesList_append] at hq
    rcases List.mem_append.mp hq with hq | hq
    · exact hds q hq
    · exact h q hq
  | error f => exact h

/-- A statement with an expression of its own. -/
theorem exprStmt_reasoned (env : Env) (e : Expr) (build : Typed.Expr → Typed.Stmt) :
    Reasoned rules ss e.nodes ((expr rules mode env e).map fun t => (build t, [])) := by
  cases he : expr rules mode env e with
  | ok t => exact fun q hq => absurd hq List.not_mem_nil
  | error f => exact (expr_reason mode env he).mono (List.nil_subset _) (List.Subset.refl _)

mutual
/-- A statement fails for one of its own nodes, and so does what is recorded in it. -/
theorem stmt_reason : ∀ (st : Stmt) (env : Env),
    Reasoned rules st.nodes st.exprNodes (stmt rules mode env st)
  | .expr e span, env => by
    rw [stmt]
    exact exprStmt_reasoned mode env e (.expr · span)
  | .block body span, env => by
    have hbody := (statements_reason body env).mono
      (List.subset_cons_self (.block body span) _) (List.Subset.refl _)
    rw [stmt]
    exact hbody.map (Typed.Stmt.block · span) [] nofun
  | .bind name value span, env => by
    rw [stmt]
    exact exprStmt_reasoned mode env value (.bind name · span)
  | .print e span, env => by
    rw [stmt]
    exact exprStmt_reasoned mode env e (.print · span)
  | .stray kind, env => by
    rw [stmt]
    exact List.mem_cons_self
/-- Statements fail for one of their own nodes, and so does what is recorded in them. -/
theorem statements_reason : ∀ (l : List Stmt) (env : Env),
    Reasoned rules (Stmt.nodesList l) (Stmt.exprNodesList l) (statements rules mode env l)
  | [], env => by
    rw [statements]
    nofun
  | st :: rest, env => by
    have hst := (stmt_reason st env).mono
      (List.subset_append_left _ (Stmt.nodesList rest))
      (List.subset_append_left _ (Stmt.exprNodesList rest))
    have hrest (env' : Env) := (statements_reason rest env').mono
      (List.subset_append_right st.nodes _) (List.subset_append_right st.exprNodes _)
    rw [Direct.statements_cons]
    generalize stmt rules mode env st = r at hst
    cases r with
    | ok r => exact (hrest _).map (r.1 :: ·) r.2 hst
    | error f =>
      dsimp only
      split
      · next d =>
        refine (hrest env).map id [d] fun q hq => hst q ?_
        simpa [leavesList] using hq
      · exact hst
end

variable (rules) in
/-- A program is checked without a fault, or the fault names a stray node; and all problems are
found at its expressions. -/
theorem check_reason (p : Program) :
    match check rules mode p with
    | .error f => (Failure.fault f).ReasonIn rules p.stmtNodes p.exprNodes
    | .ok (.error d) => ∀ q ∈ d.leaves, FoundIn rules p.exprNodes q
    | .ok (.ok _) => True := by
  have hs : Reasoned rules p.stmtNodes p.exprNodes (statements rules mode [] p.statements) :=
    statements_reason mode p.statements []
  rw [check]
  generalize statements rules mode [] p.statements = r at hs
  rcases r with (d | f) | ⟨typed, ds⟩
  · exact hs
  · exact hs
  · cases hc : Diagnostic.combine ds with
    | none => simp only [hc]
    | some d =>
      simp only [hc]
      rw [leaves_combine hc]
      exact hs

end Direct

/-! ### Programs -/

variable (rules)

/-- No scope is open after a check, however it ends. -/
theorem check_depth (p : Program) : (check rules mode p).final.bindings.depth = 0 := by
  rw [check, inScope_apply (statements_confined rules mode p.statements _)]
  rcases statements rules mode p.statements (State.pushed {}) with ⟨typed, s⟩ | ⟨d | f, s⟩
  · dsimp only
    cases Diagnostic.combine (s.popped []).recorded <;> rfl
  · rfl
  · rfl

/-- **A check never trips over its own machinery.** For every tree it gives a typed program or a
diagnostic, unless a stray node is in the way; without stray nodes it always does. All problems in
the diagnostic are found at expressions of the tree. No scope is left open. -/
theorem check_reasons (p : Program) :
    (∀ f, (check rules mode p).result = .error f →
      (∃ kind, f = .strayStmt kind ∧ .stray kind ∈ p.stmtNodes) ∨
        ∃ kind, f = .strayExpr kind ∧ .stray kind ∈ p.exprNodes) ∧
    (p.WellFormed → ∃ r, (check rules mode p).result = .ok r) ∧
    (∀ d, (check rules mode p).result = .ok (.error d) →
      ∀ q ∈ d.leaves, ∃ e ∈ p.exprNodes, FoundAt rules e q) ∧
    (check rules mode p).final.bindings.depth = 0 := by
  have hreason := Direct.check_reason rules mode p
  simp only [check_eq_direct]
  refine ⟨fun f hf => ?_, Direct.check_noFault rules mode, fun d hd => ?_, check_depth rules mode p⟩
  · rw [hf] at hreason
    cases f with
    | strayStmt kind => exact .inl ⟨kind, rfl, hreason⟩
    | strayExpr kind => exact .inr ⟨kind, rfl, hreason⟩
    | arena f => exact hreason.elim
    | scopes e => exact hreason.elim
  · rw [hd] at hreason
    exact hreason

end NumCheck.Check
