import NumCheck.Proofs.Refinement

/-!
# The two modes of a check

In `failFast` mode a check ends at the first problem; in `accumulate` mode it goes on and puts
the problems together. The two modes accept the same programs and then leave the same arena
behind. A program that they refuse is refused by both for the same first problem.

The modes part at the first problem, and after it their states have little in common. So they
are compared without states, with the environment, in which both still agree up to that point;
what accumulates afterwards is only known to be well grouped. The slots of an accepted program
can be read off its typed tree, so nothing is left to compare there.

Trees with stray nodes are left out: on these a check ends in a fault, and in `accumulate` mode it
may record problems before it comes to one. Nothing is compared of the arenas and the logs that a
refused program leaves behind.
-/

namespace NumCheck

/-! ### Groups -/

namespace Diagnostic

mutual
/-- Every group in the diagnostic, at any depth, has at least two members. -/
def Grouped : Diagnostic → Prop
  | .one _ => True
  | .many members => 2 ≤ members.length ∧ AllGrouped members
/-- Every group in the diagnostics has at least two members. -/
def AllGrouped : List Diagnostic → Prop
  | [] => True
  | d :: rest => d.Grouped ∧ AllGrouped rest
end

theorem leavesList_append (ds es : List Diagnostic) :
    leavesList (ds ++ es) = leavesList ds ++ leavesList es := by
  induction ds with
  | nil => rfl
  | cons d ds ih => rw [List.cons_append, leavesList, ih, leavesList, List.append_assoc]

theorem AllGrouped.append {ds es : List Diagnostic} (hd : AllGrouped ds) (he : AllGrouped es) :
    AllGrouped (ds ++ es) := by
  induction ds with
  | nil => exact he
  | cons d ds ih => exact ⟨hd.1, ih hd.2⟩

/-- Diagnostics whose first problem is `p`, and which are well grouped. -/
structure Begins (p : Problem) (ds : List Diagnostic) : Prop where
  /-- The first problem. -/
  first : (leavesList ds).head? = some p
  /-- No group is too small. -/
  grouped : AllGrouped ds

namespace Begins

variable {p : Problem} {ds es : List Diagnostic}

theorem one (p : Problem) : Begins p [.one p] := ⟨rfl, trivial, trivial⟩

/-- What comes later does not matter. -/
theorem append (hd : Begins p ds) (he : AllGrouped es) : Begins p (ds ++ es) := by
  refine ⟨?_, hd.grouped.append he⟩
  rw [leavesList_append, List.head?_append, hd.first, Option.some_or]

/-- At least two diagnostics make a group. -/
theorem many (h : Begins p ds) (hl : 2 ≤ ds.length) : Begins p [.many ds] := by
  refine ⟨?_, ⟨hl, h.grouped⟩, trivial⟩
  rw [leavesList, leaves, leavesList, List.append_nil]
  exact h.first

/-- Diagnostics with a first problem are combined into one that has it. -/
theorem combine (h : Begins p ds) : ∃ d, Diagnostic.combine ds = some d ∧ Begins p [d] := by
  match ds, h with
  | [], h => nomatch h.first
  | [d], h => exact ⟨d, rfl, h⟩
  | d :: e :: rest, h =>
    exact ⟨.many (d :: e :: rest), rfl, h.many (by rw [List.length_cons, List.length_cons]; omega)⟩

end Begins

end Diagnostic

namespace Check

open Diagnostic (Begins AllGrouped)

variable (rules : Rules)

/-! ### Expressions -/

/-- What `failFast` mode and `accumulate` mode make of one tree. -/
inductive Compared {α : Type} : Except Failure α → Except Failure α → Prop where
  /-- The same value. -/
  | ok (v : α) : Compared (.ok v) (.ok v)
  /-- A problem, and a diagnostic that begins with it. -/
  | rejected {p : Problem} {d : Diagnostic} (h : Begins p [d]) :
      Compared (.error (.problem p)) (.error (.rejected d))

/-- The same problem. -/
theorem Compared.problem {α : Type} (p : Problem) :
    Compared (α := α) (.error (.problem p)) (.error (.problem p)) :=
  .rejected (.one p)

namespace Direct

theorem both_compared {x x' y y' : Except Failure Typed.Expr} (hx : Compared x x')
    (hy : Compared y y') : Compared (both .failFast x y) (both .accumulate x' y') := by
  cases hx with
  | ok l =>
    cases hy with
    | ok r => exact .ok (l, r)
    | rejected he => exact .rejected he
  | @rejected p d hd =>
    cases hy with
    | ok r => exact .rejected hd
    | @rejected q e he =>
      have hde : Begins p [d, e] := hd.append he.grouped
      exact .rejected (hde.many (Nat.le_refl 2))

theorem expr_compared (env : Env) {e : Expr} (h : e.WellFormed) :
    Compared (expr rules .failFast env e) (expr rules .accumulate env e) := by
  induction e with
  | var name span =>
    rw [expr, expr]
    split
    · exact .ok _
    · exact .problem _
  | literal value span => exact .ok _
  | prefixed op operand span ih =>
    have hs := ih h
    rw [expr, expr]
    split
    · exact .problem _
    · generalize expr rules .failFast env operand = x at hs
      generalize expr rules .accumulate env operand = x' at hs
      cases hs with
      | ok t =>
        dsimp only
        split
        · exact .ok _
        · exact .problem _
      | rejected hd => exact .rejected hd
  | binary op lhs rhs span ihl ihr =>
    have hs := both_compared (ihl h.1) (ihr h.2)
    rw [expr, expr]
    split
    · exact .problem _
    · generalize both .failFast _ _ = x at hs
      generalize both .accumulate _ _ = x' at hs
      cases hs with
      | ok lr =>
        dsimp only
        split
        · exact .ok _
        · exact .problem _
      | rejected hd => exact .rejected hd
  | stray kind => exact h.elim

/-! ### Statements -/

/-- What the two modes make of a list of statements. In `accumulate` mode it always comes to its
end. -/
inductive ListCompared {α : Type} :
    Except Failure (α × List Diagnostic) → Except Failure (α × List Diagnostic) → Prop where
  /-- The same trees, and nothing to record. -/
  | clean (v : α) : ListCompared (.ok (v, [])) (.ok (v, []))
  /-- A problem, and recorded diagnostics that begin with it. -/
  | recorded {p : Problem} {v : α} {ds : List Diagnostic} (h : Begins p ds) :
      ListCompared (.error (.problem p)) (.ok (v, ds))

theorem ListCompared.exists_ok {α : Type} {x y : Except Failure (α × List Diagnostic)}
    (h : ListCompared x y) : ∃ v ds, y = .ok (v, ds) ∧ AllGrouped ds := by
  cases h with
  | clean v => exact ⟨v, [], rfl, trivial⟩
  | recorded h => exact ⟨_, _, rfl, h.grouped⟩

theorem ListCompared.map {α β : Type} {x y : Except Failure (α × List Diagnostic)}
    (h : ListCompared x y) (g : α → β) :
    ListCompared (x.map fun (v, ds) => (g v, ds)) (y.map fun (v, ds) => (g v, ds)) := by
  cases h with
  | clean v => exact .clean (g v)
  | recorded h => exact .recorded h

/-- What the two modes make of a statement: what they make of a list, for a block, or a diagnostic
that has not been recorded yet. -/
inductive StmtCompared :
    Except Failure (Typed.Stmt × List Diagnostic) →
      Except Failure (Typed.Stmt × List Diagnostic) → Prop where
  /-- It comes to its end in `accumulate` mode. -/
  | ended {x y : Except Failure (Typed.Stmt × List Diagnostic)} (h : ListCompared x y) :
      StmtCompared x y
  /-- It has a diagnostic. -/
  | rejected {p : Problem} {d : Diagnostic} (h : Begins p [d]) :
      StmtCompared (.error (.problem p)) (.error (.rejected d))

theorem StmtCompared.ofExpr {x y : Except Failure Typed.Expr} (h : Compared x y)
    (build : Typed.Expr → Typed.Stmt) :
    StmtCompared (x.map fun t => (build t, [])) (y.map fun t => (build t, [])) := by
  cases h with
  | ok v => exact .ended (.clean (build v))
  | rejected hd => exact .rejected hd

mutual
theorem stmt_compared : ∀ (st : Stmt) (env : Env), st.WellFormed →
    StmtCompared (stmt rules .failFast env st) (stmt rules .accumulate env st)
  | .expr e span, env, h => by
    rw [stmt, stmt]
    exact .ofExpr (expr_compared rules env h) (.expr · span)
  | .block body span, env, h => by
    rw [stmt, stmt]
    exact .ended ((statements_compared body env h).map (Typed.Stmt.block · span))
  | .bind name value span, env, h => by
    rw [stmt, stmt]
    exact .ofExpr (expr_compared rules env h) (.bind name · span)
  | .print e span, env, h => by
    rw [stmt, stmt]
    exact .ofExpr (expr_compared rules env h) (.print · span)
  | .stray kind, env, h => h.elim
theorem statements_compared : ∀ (l : List Stmt) (env : Env), Stmt.AllWellFormed l →
    ListCompared (statements rules .failFast env l) (statements rules .accumulate env l)
  | [], env, _ => by
    rw [statements, statements]
    exact .clean []
  | st :: rest, env, h => by
    have hst := stmt_compared st env h.1
    have hrest := fun env' => statements_compared rest env' h.2
    rw [statements_cons, statements_cons]
    generalize stmt rules .failFast env st = x at hst
    generalize stmt rules .accumulate env st = y at hst
    cases hst with
    | ended hc =>
      cases hc with
      | clean typed =>
        -- so far the modes agree, and the rest is up to the induction
        exact (hrest (env.after typed)).map (typed :: ·)
      | @recorded p typed ds hd =>
        obtain ⟨more, es, hr, he⟩ := (hrest (env.after typed)).exists_ok
        dsimp only
        rw [hr]
        exact .recorded (hd.append he)
    | @rejected p d hd =>
      obtain ⟨more, es, hr, he⟩ := (hrest env).exists_ok
      dsimp only
      rw [hr]
      exact .recorded (hd.append he)
end

/-- Both modes accept the program, or they refuse it for the same first problem. -/
theorem check_compared {p : Program} (h : p.WellFormed) :
    (∃ typed, check rules .failFast p = .ok (.ok typed) ∧
        check rules .accumulate p = .ok (.ok typed)) ∨
      ∃ q d, check rules .failFast p = .ok (.error (.one q)) ∧
        check rules .accumulate p = .ok (.error d) ∧ Begins q [d] := by
  have hs := statements_compared rules p.statements [] h
  rw [check, check]
  generalize statements rules .failFast [] p.statements = x at hs
  generalize statements rules .accumulate [] p.statements = y at hs
  cases hs with
  | clean typed => exact .inl ⟨⟨typed, p.span⟩, rfl, rfl⟩
  | @recorded q typed ds hd =>
    obtain ⟨d, hc, hb⟩ := hd.combine
    refine .inr ⟨q, d, rfl, ?_, hb⟩
    dsimp only
    rw [hc]

end Direct

/-! ### Programs -/

theorem combine_eq_none {ds : List Diagnostic} (h : Diagnostic.combine ds = none) : ds = [] := by
  match ds, h with
  | [], _ => rfl
  | [_], h => cases h
  | _ :: _ :: _, h => cases h

theorem leaves_combine {ds : List Diagnostic} {d : Diagnostic}
    (h : Diagnostic.combine ds = some d) : d.leaves = Diagnostic.leavesList ds := by
  match ds, h with
  | [_], rfl => exact (List.append_nil _).symm
  | _ :: _ :: _, rfl => rfl

/-- The slots that an accepted program leaves in the arena are those of its typed tree. -/
theorem check_slots (mode : Mode) {p : Program} {typed : Typed.Program}
    (h : (check rules mode p).result = .ok (.ok typed)) :
    (check rules mode p).final.arena.slots.toList = Typed.Stmt.slotsList 0 typed.statements := by
  rw [check, inScope_apply (statements_confined rules mode p.statements _)] at h ⊢
  cases ht : statements rules mode p.statements (State.pushed {}) with
  | error f s' =>
    rw [ht] at h
    cases f with
    | rejected d => cases h
    | fault f => cases h
  | ok ts s' =>
    rw [ht] at h
    dsimp only at h ⊢
    cases hc : Diagnostic.combine (s'.popped []).recorded with
    | some d =>
      rw [hc] at h
      cases h
    | none =>
      rw [hc] at h
      cases h
      exact statements_slots rules mode p.statements ht (combine_eq_none hc)

/-- **The two modes agree.** They accept the same programs, with the same typed program and the
same arena. If they refuse a program, then `failFast` mode for a single problem, which is the
first of those in `accumulate` mode, and there no group has less than two members. -/
theorem check_modes_agree {p : Program} (h : p.WellFormed) :
    ((∃ typed, (check rules .accumulate p).result = .ok (.ok typed)) ↔
      ∃ typed, (check rules .failFast p).result = .ok (.ok typed)) ∧
    (∀ typed, (check rules .failFast p).result = .ok (.ok typed) →
      (check rules .accumulate p).result = .ok (.ok typed) ∧
        (check rules .accumulate p).final.arena = (check rules .failFast p).final.arena) ∧
    ((¬ ∃ typed, (check rules .failFast p).result = .ok (.ok typed)) →
      ∃ q d, (check rules .failFast p).result = .ok (.error (.one q)) ∧
        (check rules .accumulate p).result = .ok (.error d) ∧
        d.leaves.head? = some q ∧ 1 ≤ d.leaves.length ∧ d.Grouped) := by
  have hc := Direct.check_compared rules h
  rw [← check_eq_direct, ← check_eq_direct] at hc
  rcases hc with ⟨typed, hf, ha⟩ | ⟨q, d, hf, ha, hd⟩
  · refine ⟨⟨fun _ => ⟨typed, hf⟩, fun _ => ⟨typed, ha⟩⟩, fun typed' ht => ?_, fun hn => ?_⟩
    · cases hf.symm.trans ht
      refine ⟨ha, ?_⟩
      have hslots := (check_slots rules .accumulate ha).trans (check_slots rules .failFast hf).symm
      exact congrArg Arena.mk (Array.toList_inj.mp hslots)
    · exact absurd ⟨typed, hf⟩ hn
  · have hleaves : d.leaves.head? = some q := by
      have hfirst := hd.first
      rwa [Diagnostic.leavesList, Diagnostic.leavesList, List.append_nil] at hfirst
    refine ⟨⟨?_, ?_⟩, ?_, fun _ => ⟨q, d, hf, ha, hleaves, ?_, hd.grouped.1⟩⟩
    · rintro ⟨typed, ht⟩
      cases ha.symm.trans ht
    · rintro ⟨typed, ht⟩
      cases hf.symm.trans ht
    · intro typed ht
      cases hf.symm.trans ht
    · exact List.length_pos_iff.mpr (List.ne_nil_of_mem (List.mem_of_mem_head? hleaves))

/-- A `let` with two wrong operands, and a use of the name that it does not bind. -/
theorem check_modes_agree_refused :
    let p : Program := ⟨[.bind ⟨"x", {}⟩ (.binary ⟨"+", {}⟩ (.var ⟨"y", {}⟩ {})
      (.prefixed ⟨"+", {}⟩ (.literal ⟨0⟩ {}) {}) {}) {}, .print (.var ⟨"x", {}⟩ {}) {}], {}⟩
    let q : Problem := .undefinedVariable "y" {}
    p.WellFormed ∧ (check .standard .failFast p).result = .ok (.error (.one q)) ∧
      ∃ d, (check .standard .accumulate p).result = .ok (.error d) ∧
        d.leaves.head? = some q ∧ d.leaves.length = 3 ∧ d.Grouped := by
  intro p q
  have hp : p.WellFormed := ⟨⟨trivial, trivial⟩, trivial, trivial⟩
  have hf : (check .standard .failFast p).result = .ok (.error (.one q)) := rfl
  have hn : ¬ ∃ typed, (check .standard .failFast p).result = .ok (.ok typed) := by
    rintro ⟨typed, ht⟩
    cases hf.symm.trans ht
  obtain ⟨q', d, hq, ha, hd, -, hg⟩ := (check_modes_agree .standard hp).2.2 hn
  cases hf.symm.trans hq
  refine ⟨hp, hf, d, ha, hd, ?_, hg⟩
  have ha' : (check .standard .accumulate p).result = .ok (.error (.many [.many [.one q,
      .one (.custom {} "Unknown prefix operator '+'")], .one (.undefinedVariable "x" {})])) := rfl
  cases ha'.symm.trans ha
  rfl

end Check

end NumCheck
