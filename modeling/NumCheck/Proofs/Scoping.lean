import Mathlib.Data.List.Pairwise
import NumCheck.Proofs.Modes
import NumCheck.Proofs.Parsing
import NumCheck.Proofs.Scanning
import NumCheck.Typed.Nodes

/-!
# The check decides lexical scoping

With the rules of the language, all that can be wrong with a parsed program is that a variable is
used where no `let` for it is visible. Which uses these are is said here by where statements stand,
without environments. A *path* leads to a statement: the positions of the statements around it,
each in its own list, and at last its own. A `let` is visible in the later statements of its list,
however deep inside of them. It counts only if none of the uses in its own value is reported, so
uses that are reported and statements that fail are defined by each other.

The environment of the check holds at each statement the names with a visible `let` that has not
failed. This is kept from each statement to the next and into blocks.

Other rules are left out, with which operators may be refused as well, and so are trees that do not
come from a source. The mode is `accumulate`; the other one stops at the first of these problems.
-/

namespace NumCheck

/-! ### Variables and the statements that they stand in -/

/-- The variables in an expression, with their places. -/
def Expr.variables : Expr → List (String × Span)
  | .var name span => [(name.name, span)]
  | .literal .. | .stray _ => []
  | .prefixed _ operand _ => operand.variables
  | .binary _ lhs rhs _ => lhs.variables ++ rhs.variables

/-- The variables in the expression of a statement. Those inside of a block belong to the statements
there. -/
def Stmt.variables : Stmt → List (String × Span)
  | .expr e _ | .bind _ e _ | .print e _ => e.variables
  | .block .. | .stray _ => []

mutual
/-- The statement at `path` and those inside of it, with their paths. -/
def Stmt.placed (path : List Nat) : Stmt → List (List Nat × Stmt)
  | .block statements span =>
    (path, .block statements span) :: Stmt.placedList path 0 statements
  | s => [(path, s)]
/-- The statements of the list at `path`, from position `i` on, and those inside of them. -/
def Stmt.placedList (path : List Nat) (i : Nat) : List Stmt → List (List Nat × Stmt)
  | [] => []
  | s :: rest => s.placed (path ++ [i]) ++ Stmt.placedList path (i + 1) rest
end

/-- The statements of a program with their paths, in order. -/
def Program.placed (p : Program) : List (List Nat × Stmt) := Stmt.placedList [] 0 p.statements

/-- A variable in a program. -/
structure Use where
  /-- The statement that it stands in. -/
  path : List Nat
  /-- The name. -/
  name : String
  /-- Where it stands in the source. -/
  span : Span

/-- The variables in the expressions of statements. -/
def usesIn (placed : List (List Nat × Stmt)) : List Use :=
  placed.flatMap fun (path, s) => s.variables.map fun (name, span) => ⟨path, name, span⟩

/-- The variables of a program, in order. -/
def Program.uses (p : Program) : List Use := usesIn p.placed

/-- At `path` stands a `let` for `name`. -/
def Program.Binds (p : Program) (path : List Nat) (name : String) : Prop :=
  ∃ x value span, (path, .bind x value span) ∈ p.placed ∧ x.name = name

/-- The statement at `path'` is, or is inside of, a later statement of the list in which the
statement at `path` stands. -/
def Visible (path path' : List Nat) : Prop :=
  ∃ list i j inner, path = list ++ [i] ∧ path' = list ++ j :: inner ∧ i < j

mutual
/-- No `let` that is visible at the use has succeeded. -/
inductive Program.Reported (p : Program) : Use → Prop where
  /-- All that are visible have failed. -/
  | intro {u : Use} : u ∈ p.uses →
      (∀ path, p.Binds path u.name → Visible path u.path → p.Failed path) → p.Reported u
/-- A use in the statement is reported. -/
inductive Program.Failed (p : Program) : List Nat → Prop where
  /-- It is this one. -/
  | intro {u : Use} : p.Reported u → p.Failed u.path
end

open Classical in
/-- Those of the uses that are reported. -/
noncomputable def Program.reportedIn (p : Program) (us : List Use) : List Use :=
  us.filter fun u => p.Reported u

/-- The uses that are reported, in order. -/
noncomputable def Program.reported (p : Program) : List Use := p.reportedIn p.uses

/-- What is reported of a use. -/
def Use.problem (u : Use) : Problem := .undefinedVariable u.name u.span

theorem Program.failed_iff {p : Program} {path : List Nat} :
    p.Failed path ↔ ∃ u, p.Reported u ∧ u.path = path := by
  constructor
  · rintro ⟨hu⟩
    exact ⟨_, hu, rfl⟩
  · rintro ⟨u, hu, rfl⟩
    exact .intro hu

/-- A use is reported if there is no `let` of its name that is visible and has no reported use in
its own value. -/
theorem Program.reported_iff {p : Program} {u : Use} :
    p.Reported u ↔ u ∈ p.uses ∧ ¬ ∃ path, p.Binds path u.name ∧ Visible path u.path ∧
      ∀ v, p.Reported v → v.path ≠ path := by
  constructor
  · rintro ⟨hu, hall⟩
    refine ⟨hu, fun ⟨path, hb, hv, hno⟩ => ?_⟩
    obtain ⟨v, hr, hpath⟩ := failed_iff.mp (hall path hb hv)
    exact hno v hr hpath
  · rintro ⟨hu, hno⟩
    refine .intro hu fun path hb hv => failed_iff.mpr ?_
    by_contra hnone
    exact hno ⟨path, hb, hv, fun v hr hpath => hnone ⟨v, hr, hpath⟩⟩

theorem Program.reportedIn_append (p : Program) (us vs : List Use) :
    p.reportedIn (us ++ vs) = p.reportedIn us ++ p.reportedIn vs :=
  List.filter_append us vs

theorem usesIn_append (l m : List (List Nat × Stmt)) : usesIn (l ++ m) = usesIn l ++ usesIn m :=
  List.flatMap_append

theorem usesIn_singleton (path : List Nat) (s : Stmt) :
    usesIn [(path, s)] = s.variables.map fun (name, span) => ⟨path, name, span⟩ :=
  List.append_nil _

/-- The uses in a statement that is no block come before those in the later ones. -/
theorem spans_usesIn_cons {s : Stmt} {path : List Nat} {i : Nat} {rest : List Stmt}
    (hs : s.placed (path ++ [i]) = [(path ++ [i], s)]) :
    (usesIn (Stmt.placedList path i (s :: rest))).map Use.span =
      s.variables.map Prod.snd ++ (usesIn (Stmt.placedList path (i + 1) rest)).map Use.span := by
  rw [Stmt.placedList, hs, usesIn_append, usesIn_singleton, List.map_append, List.map_map]
  rfl

theorem mem_usesIn {u : Use} {placed : List (List Nat × Stmt)} :
    u ∈ usesIn placed ↔ ∃ s, (u.path, s) ∈ placed ∧ (u.name, u.span) ∈ s.variables := by
  obtain ⟨path, name, span⟩ := u
  simp [usesIn]

/-! ### Paths -/

/-- What is visible at a statement is before it in its own list, or visible around this list. -/
theorem visible_concat {path list : List Nat} {i : Nat} :
    Visible path (list ++ [i]) ↔ (∃ j < i, path = list ++ [j]) ∨ Visible path list := by
  constructor
  · rintro ⟨outer, j, k, inner, rfl, hpath, hjk⟩
    rcases List.eq_nil_or_concat inner with rfl | ⟨inner, m, rfl⟩
    · obtain ⟨rfl, hi⟩ := List.append_inj' hpath rfl
      cases hi
      exact .inl ⟨j, hjk, rfl⟩
    · rw [List.concat_eq_append, ← List.cons_append, ← List.append_assoc] at hpath
      obtain ⟨rfl, -⟩ := List.append_inj' hpath rfl
      exact .inr ⟨outer, j, k, inner, rfl, rfl, hjk⟩
  · rintro (⟨j, hj, rfl⟩ | ⟨outer, j, k, inner, rfl, rfl, hjk⟩)
    · exact ⟨list, j, i, [], rfl, rfl, hj⟩
    · exact ⟨outer, j, k, inner ++ [i], rfl, by simp, hjk⟩

theorem not_visible_nil (path : List Nat) : ¬ Visible path [] := by
  rintro ⟨list, i, j, inner, -, h, -⟩
  simp at h

/-- What is visible at the next statement. -/
theorem visible_succ {path list : List Nat} {i : Nat} :
    Visible path (list ++ [i + 1]) ↔ Visible path (list ++ [i]) ∨ path = list ++ [i] := by
  rw [visible_concat, visible_concat]
  constructor
  · rintro (⟨j, hj, rfl⟩ | h)
    · rcases Nat.lt_succ_iff_lt_or_eq.mp hj with hj | rfl
      · exact .inl (.inl ⟨j, hj, rfl⟩)
      · exact .inr rfl
    · exact .inl (.inr h)
  · rintro ((⟨j, hj, rfl⟩ | h) | rfl)
    · exact .inl ⟨j, Nat.lt_succ_of_lt hj, rfl⟩
    · exact .inr h
    · exact .inl ⟨i, Nat.lt_succ_self i, rfl⟩

/-- What is visible at the first statement of a block. -/
theorem visible_zero {path list : List Nat} : Visible path (list ++ [0]) ↔ Visible path list := by
  rw [visible_concat]
  simp

mutual
/-- The paths in a statement begin with its own and are different. -/
theorem Stmt.placed_paths (path : List Nat) : ∀ s : Stmt,
    (∀ x ∈ s.placed path, ∃ inner, x.1 = path ++ inner) ∧
      (s.placed path).Pairwise fun x y => x.1 ≠ y.1
  | .block statements span => by
    obtain ⟨hpaths, hpairs⟩ := Stmt.placedList_paths path 0 statements
    refine ⟨fun x hx => ?_, List.pairwise_cons.mpr ⟨fun x hx => ?_, hpairs⟩⟩
    · rcases List.mem_cons.mp hx with rfl | hx
      · exact ⟨[], (List.append_nil path).symm⟩
      · obtain ⟨j, inner, -, hx⟩ := hpaths x hx
        exact ⟨_, hx⟩
    · obtain ⟨j, inner, -, hx⟩ := hpaths x hx
      simp [hx]
  | .expr .. | .bind .. | .print .. | .stray _ => by
    simp [Stmt.placed]
/-- The paths in a list of statements begin with its own, go on with a position, and are
different. -/
theorem Stmt.placedList_paths (path : List Nat) (i : Nat) : ∀ l : List Stmt,
    (∀ x ∈ Stmt.placedList path i l, ∃ j inner, i ≤ j ∧ x.1 = path ++ j :: inner) ∧
      (Stmt.placedList path i l).Pairwise fun x y => x.1 ≠ y.1
  | [] => ⟨nofun, .nil⟩
  | s :: rest => by
    obtain ⟨hpaths, hpairs⟩ := Stmt.placed_paths (path ++ [i]) s
    obtain ⟨hpaths', hpairs'⟩ := Stmt.placedList_paths path (i + 1) rest
    constructor
    · intro x hx
      rcases List.mem_append.mp hx with hx | hx
      · obtain ⟨inner, hx⟩ := hpaths x hx
        exact ⟨i, inner, Nat.le_refl i, by simp [hx]⟩
      · obtain ⟨j, inner, hj, hx⟩ := hpaths' x hx
        exact ⟨j, inner, by omega, hx⟩
    · refine List.pairwise_append.mpr ⟨hpairs, hpairs', fun x hx y hy => ?_⟩
      obtain ⟨inner, hx⟩ := hpaths x hx
      obtain ⟨j, inner', hj, hy⟩ := hpaths' y hy
      rw [hx, hy, List.append_assoc]
      intro heq
      have hi := (List.cons.inj (List.append_cancel_left heq)).1
      omega
end

/-- A path leads to one statement. -/
theorem Program.placed_unique {p : Program} {path : List Nat} {s s' : Stmt}
    (h : (path, s) ∈ p.placed) (h' : (path, s') ∈ p.placed) : s = s' := by
  by_contra hne
  have hsymm : Std.Symm fun x y : List Nat × Stmt => x.1 ≠ y.1 := ⟨fun _ _ hxy => hxy.symm⟩
  have hpairs := (Stmt.placedList_paths [] 0 p.statements).2
  exact hpairs.forall h h' (fun heq => hne (Prod.mk.inj heq).2) rfl

/-! ### Operators of the language -/

/-- No part of the expression is stray, and its operators are those of the language. -/
def Expr.IsPlain : Expr → Prop
  | .var .. | .literal .. => True
  | .prefixed op operand _ => op.symbol = "-" ∧ operand.IsPlain
  | .binary op lhs rhs _ =>
    (∃ lowered : BinaryOp, op.symbol = lowered.symbol) ∧ lhs.IsPlain ∧ rhs.IsPlain
  | .stray _ => False

mutual
/-- No part of the statement is stray, and its operators are those of the language. -/
def Stmt.IsPlain : Stmt → Prop
  | .expr e _ | .bind _ e _ | .print e _ => e.IsPlain
  | .block statements _ => Stmt.ArePlain statements
  | .stray _ => False
/-- No part of the statements is stray, and their operators are those of the language. -/
def Stmt.ArePlain : List Stmt → Prop
  | [] => True
  | s :: rest => s.IsPlain ∧ Stmt.ArePlain rest
end

namespace Parser

theorem Reads.isPlain {level : Level} {ts : List Token} {x : Operand} (h : Reads level ts x) :
    x.expr.IsPlain := by
  induction h with
  | number | name => trivial
  | parens _ _ _ ih | atom _ ih | unary _ ih | product _ ih => exact ih
  | neg s _ ih => exact ⟨rfl, ih⟩
  | times op s _ _ ihx ihy =>
    refine ⟨?_, ihx, ihy⟩
    cases op with
    | star => exact ⟨.mul, rfl⟩
    | slash => exact ⟨.div, rfl⟩
  | plus op s _ _ ihx ihy =>
    refine ⟨?_, ihx, ihy⟩
    cases op with
    | plus => exact ⟨.add, rfl⟩
    | minus => exact ⟨.sub, rfl⟩

/-- What is parsed is plain. -/
theorem ListReads.arePlain {ts : List Token} {l : List Stmt} (h : ListReads ts l) :
    Stmt.ArePlain l := by
  induction h with
  | nil => trivial
  | bind name a b c d hx _ ih => exact ⟨hx.isPlain, ih⟩
  | print a d hx _ ih => exact ⟨hx.isPlain, ih⟩
  | block a d _ _ ihb ih => exact ⟨ihb, ih⟩
  | bare d hx _ _ ih => exact ⟨hx.isPlain, ih⟩

/-! ### The order of uses -/

/-- The variables of an expression are some of its tokens. -/
theorem Reads.variables_sublist {level : Level} {ts : List Token} {x : Operand}
    (h : Reads level ts x) : (x.expr.variables.map Prod.snd).Sublist (ts.map Token.span) := by
  induction h with
  | number text s => simp [Expr.variables]
  | name text s => exact .refl _
  | parens a b _ ih =>
    rw [List.map_cons, List.map_append]
    exact (ih.trans (List.sublist_append_left _ _)).cons _
  | atom _ ih | unary _ ih | product _ ih => exact ih
  | neg s _ ih => exact ih.cons _
  | times op s _ _ ihx ihy | plus op s _ _ ihx ihy =>
    rw [List.map_append, List.map_cons]
    change ((_ ++ _ : List (String × Span)).map Prod.snd).Sublist _
    rw [List.map_append]
    exact ihx.append (ihy.cons _)

/-- The uses in statements are some of their tokens. -/
theorem ListReads.uses_sublist {ts : List Token} {l : List Stmt} (h : ListReads ts l)
    (path : List Nat) (i : Nat) :
    ((usesIn (Stmt.placedList path i l)).map Use.span).Sublist (ts.map Token.span) := by
  induction h generalizing path i with
  | nil => exact .refl _
  | bind name a b c d hx _ ih =>
    have hrest := hx.variables_sublist.append ((ih path (i + 1)).cons d)
    rw [spans_usesIn_cons rfl]
    simp only [List.map_append, List.map_cons]
    exact ((hrest.cons _).cons _).cons _
  | print a d hx _ ih =>
    have hrest := hx.variables_sublist.append ((ih path (i + 1)).cons d)
    rw [spans_usesIn_cons rfl]
    simp only [List.map_append, List.map_cons]
    exact hrest.cons _
  | block a d _ _ ihb ih =>
    have hrest := (ihb (path ++ [i]) 0).append ((ih path (i + 1)).cons d)
    simp only [Stmt.placedList, Stmt.placed, usesIn_append, List.map_append, List.map_cons]
    exact hrest.cons _
  | bare d hx _ _ ih =>
    have hrest := hx.variables_sublist.append ((ih path (i + 1)).cons d)
    rw [spans_usesIn_cons rfl]
    simp only [List.map_append, List.map_cons]
    exact hrest

end Parser

/-- The uses of a program are in the order of the source. -/
theorem Program.uses_pairwise {source : String} {p : Program} (h : Program.read source = .ok p) :
    p.uses.Pairwise fun u v => u.span.stop ≤ v.span.start := by
  have hsub := (Grammar.listReads_of_read h).uses_sublist [] 0
  have hpairs : ((Token.scan source).map Token.span).Pairwise fun a b => a.stop ≤ b.start :=
    List.pairwise_map.mpr (Grammar.scanFrom_pairwise 0 source.toList)
  exact List.pairwise_map.mp (hpairs.sublist hsub)

/-! ### Types -/

/-- All of the expressions are numbers. -/
def AllNum (es : List Typed.Expr) : Prop := ∀ e ∈ es, e.ty = .num

theorem Typed.Expr.self_mem_nodes (e : Typed.Expr) : e ∈ e.nodes := by
  cases e <;> simp [nodes]

namespace Check

open Direct (Env)

/-! ### Expressions -/

/-- The problem of a variable that is not bound. -/
def unbound (v : String × Span) : Problem := .undefinedVariable v.1 v.2

/-- What is said of the variables `missing`: nothing if there are none, or a diagnostic with them
all. -/
inductive Tells (missing : List (String × Span)) : Except Failure Typed.Expr → Prop where
  /-- There are none. -/
  | ok {e : Typed.Expr} : missing = [] → AllNum e.nodes → Tells missing (.ok e)
  /-- There are some. -/
  | rejected {d : Diagnostic} : missing ≠ [] → d.leaves = missing.map unbound →
      Tells missing (.error (.rejected d))

/-- The variables that are not in the environment. -/
def missing (env : Env) (vs : List (String × Span)) : List (String × Span) :=
  vs.filter fun v => (env.lookup v.1).isNone

/-- The operands of an operator are rejected for what is missing in both. -/
theorem Tells.both {ms ns : List (String × Span)} {x y : Except Failure Typed.Expr}
    (hx : Tells ms x) (hy : Tells ns y) :
    (ms ++ ns = [] ∧ ∃ l r, Direct.both .accumulate x y = .ok (l, r) ∧ AllNum l.nodes ∧
      AllNum r.nodes) ∨
    (ms ++ ns ≠ [] ∧ ∃ d, Direct.both .accumulate x y = .error (.rejected d) ∧
      d.leaves = (ms ++ ns).map unbound) := by
  cases hx with
  | ok hms hl =>
    subst hms
    cases hy with
    | ok hns hr => exact .inl ⟨hns, _, _, rfl, hl, hr⟩
    | rejected hns he => exact .inr ⟨hns, _, rfl, he⟩
  | rejected hms hd =>
    have hne : ms ++ ns ≠ [] := by simp [hms]
    cases hy with
    | ok hns hr =>
      subst hns
      exact .inr ⟨hne, _, rfl, by rw [hd, List.append_nil]⟩
    | rejected hns he =>
      refine .inr ⟨hne, _, rfl, ?_⟩
      rw [Diagnostic.leaves, Diagnostic.leavesList, Diagnostic.leavesList, Diagnostic.leavesList,
        List.append_nil, hd, he, List.map_append]

/-- An expression is rejected for the variables that are not in the environment. -/
theorem Direct.expr_tells {env : Env} (henv : ∀ x ty, env.lookup x = some ty → ty = .num) {e : Expr}
    (h : e.IsPlain) :
    Tells (missing env e.variables) (Direct.expr .standard .accumulate env e) := by
  induction e with
  | var name span =>
    rw [Direct.expr, Expr.variables]
    cases hl : env.lookup name.name with
    | none =>
      exact .rejected (by simp [missing, hl]) (by simp [missing, hl, Diagnostic.leaves, unbound])
    | some ty =>
      refine .ok (by simp [missing, hl]) ?_
      simpa [AllNum, Typed.Expr.nodes, Typed.Expr.ty] using henv _ _ hl
  | literal value span => exact .ok rfl (by simp [AllNum, Typed.Expr.nodes, Typed.Expr.ty])
  | prefixed op operand span ih =>
    obtain ⟨hop, hoperand⟩ := h
    have hlower : UnaryOp.ofSymbol? op.symbol = some .neg := by rw [hop]; rfl
    have ih := ih hoperand
    rw [Direct.expr, hlower]
    change Tells (missing env operand.variables) _
    generalize Direct.expr .standard .accumulate env operand = r at ih
    cases ih with
    | rejected hne hd => exact .rejected hne hd
    | @ok t hnil hnum =>
      have hrule : Rules.standard.unary .neg t.ty = some .num := by
        simp [Rules.standard, hnum t t.self_mem_nodes]
      dsimp only
      rw [hrule]
      exact .ok hnil (List.forall_mem_cons.mpr ⟨rfl, hnum⟩)
  | binary op lhs rhs span ihl ihr =>
    obtain ⟨⟨lowered, hop⟩, hlhs, hrhs⟩ := h
    have hlower : BinaryOp.ofSymbol? op.symbol = some lowered := by
      rw [hop]
      cases lowered <;> rfl
    rw [Direct.expr, hlower, Expr.variables, missing, List.filter_append]
    dsimp only
    rcases (ihl hlhs).both (ihr hrhs) with ⟨hnil, l, r, hboth, hl, hr⟩ | ⟨hne, d, hboth, hd⟩
    · have hrule : (if l.ty = r.ty then Rules.standard.binary l.ty r.ty else none) = some .num := by
        simp [Rules.standard, hl l l.self_mem_nodes, hr r r.self_mem_nodes]
      rw [hboth]
      dsimp only
      rw [hrule]
      refine .ok hnil (List.forall_mem_cons.mpr ⟨rfl, ?_⟩)
      exact List.forall_mem_append.mpr ⟨hl, hr⟩
    · rw [hboth]
      exact .rejected hne hd
  | stray kind => exact h.elim

/-! ### Environments -/

/-- The environment holds the names that are bound at the statement at `path`. -/
structure EnvAt (p : Program) (env : Env) (path : List Nat) : Prop where
  /-- All of them are numbers. -/
  num : ∀ x ty, env.lookup x = some ty → ty = .num
  /-- They have a `let` that is visible and has not failed. -/
  bound : ∀ x, (env.lookup x).isSome ↔
    ∃ path', p.Binds path' x ∧ Visible path' path ∧ ¬ p.Failed path'

section Statements

variable {p : Program} {env : Env} {path list : List Nat} {i : Nat}

/-- A use is reported if its name is not in the environment. -/
theorem EnvAt.reported_iff (h : EnvAt p env path) {u : Use} (hu : u ∈ p.uses)
    (hpath : u.path = path) : p.Reported u ↔ (env.lookup u.name).isNone := by
  rw [← Bool.not_eq_false, Option.isNone_eq_false_iff, h.bound u.name, ← hpath]
  constructor
  · rintro ⟨_, hall⟩ ⟨path', hb, hv, hnot⟩
    exact hnot (hall path' hb hv)
  · intro hno
    refine .intro hu fun path' hb hv => ?_
    by_contra hnot
    exact hno ⟨path', hb, hv, hnot⟩

/-- The uses in the expression of a statement. -/
theorem mem_uses_iff {s : Stmt} (hs : (path, s) ∈ p.placed) {name : String} {span : Span} :
    (⟨path, name, span⟩ : Use) ∈ p.uses ↔ (name, span) ∈ s.variables := by
  rw [Program.uses, mem_usesIn]
  constructor
  · rintro ⟨s', hs', hv⟩
    rwa [p.placed_unique hs hs']
  · exact fun hv => ⟨s, hs, hv⟩

/-- The uses in a statement that are reported are those whose names are missing. -/
theorem EnvAt.reportedIn_eq (h : EnvAt p env path) {s : Stmt} (hs : (path, s) ∈ p.placed) :
    (p.reportedIn (usesIn [(path, s)])).map Use.problem =
      (missing env s.variables).map unbound := by
  rw [usesIn_singleton, Program.reportedIn, missing, List.filter_map, List.map_map]
  refine congrArg (List.map unbound) (List.filter_congr fun ⟨name, span⟩ hv => ?_)
  have hiff := h.reported_iff ((mem_uses_iff hs).mpr hv) rfl
  exact Bool.eq_iff_iff.mpr ((@decide_eq_true_iff _ (_)).trans hiff)

/-- A statement fails if a name is missing. -/
theorem EnvAt.failed_iff (h : EnvAt p env path) {s : Stmt} (hs : (path, s) ∈ p.placed) :
    p.Failed path ↔ missing env s.variables ≠ [] := by
  rw [Program.failed_iff]
  constructor
  · rintro ⟨u, hu, rfl⟩
    have hmem := (Program.reported_iff.mp hu).1
    exact List.ne_nil_of_mem
      (List.mem_filter.mpr ⟨(mem_uses_iff hs).mp hmem, (h.reported_iff hmem rfl).mp hu⟩)
  · intro hne
    obtain ⟨⟨name, span⟩, hv⟩ := List.exists_mem_of_ne_nil _ hne
    obtain ⟨hv, hnone⟩ := List.mem_filter.mp hv
    have hmem := (mem_uses_iff hs).mpr hv
    exact ⟨_, (h.reported_iff hmem rfl).mpr hnone, rfl⟩

/-- The environment after a statement. -/
theorem EnvAt.next {env' : Env} (h : EnvAt p env (list ++ [i]))
    (hnum : ∀ x ty, env'.lookup x = some ty → ty = .num)
    (hbound : ∀ x, (env'.lookup x).isSome ↔ (env.lookup x).isSome ∨
      (p.Binds (list ++ [i]) x ∧ ¬ p.Failed (list ++ [i]))) :
    EnvAt p env' (list ++ [i + 1]) := by
  refine ⟨hnum, fun x => ?_⟩
  rw [hbound, h.bound]
  constructor
  · rintro (⟨path, hb, hv, hnot⟩ | ⟨hb, hnot⟩)
    · exact ⟨path, hb, visible_succ.mpr (.inl hv), hnot⟩
    · exact ⟨_, hb, visible_succ.mpr (.inr rfl), hnot⟩
  · rintro ⟨path, hb, hv, hnot⟩
    rcases visible_succ.mp hv with hv | rfl
    · exact .inl ⟨path, hb, hv, hnot⟩
    · exact .inr ⟨hb, hnot⟩

/-- A statement that is no `let`, or that has failed, changes nothing. -/
theorem EnvAt.skip (h : EnvAt p env (list ++ [i]))
    (hskip : ∀ x, p.Binds (list ++ [i]) x → p.Failed (list ++ [i])) :
    EnvAt p env (list ++ [i + 1]) := by
  refine h.next h.num fun x => ?_
  rw [iff_self_or]
  exact fun ⟨hb, hnot⟩ => absurd (hskip x hb) hnot

/-- A `let` that has not failed binds its name. -/
theorem EnvAt.bind (h : EnvAt p env (list ++ [i])) {x : Ident} {value : Expr} {span : Span}
    (hs : (list ++ [i], .bind x value span) ∈ p.placed) (hnot : ¬ p.Failed (list ++ [i])) :
    EnvAt p ((x.name, .num) :: env) (list ++ [i + 1]) := by
  have hbinds (y : String) : p.Binds (list ++ [i]) y ↔ y = x.name := by
    constructor
    · rintro ⟨x', value', span', hs', rfl⟩
      cases p.placed_unique hs hs'
      rfl
    · rintro rfl
      exact ⟨x, value, span, hs, rfl⟩
  refine h.next (fun y ty hy => ?_) fun y => ?_
  · rw [List.lookup_cons] at hy
    split at hy
    · exact (Option.some.inj hy).symm
    · exact h.num y ty hy
  · rw [hbinds, List.lookup_cons]
    by_cases hy : y = x.name
    · simp [hy, hnot]
    · rw [show (y == x.name) = false by simpa using hy]
      simp only [hy, false_and, or_false]

/-- At the start of a block nothing has changed. -/
theorem EnvAt.enter (h : EnvAt p env path) : EnvAt p env (path ++ [0]) :=
  ⟨h.num, fun x => by simp only [h.bound, visible_zero]⟩

/-! ### Statements -/

/-- The diagnostics have the uses that are reported, and none of them is empty. -/
structure TellsUses (p : Program) (ds : List Diagnostic) (us : List Use) : Prop where
  /-- All of the uses. -/
  leaves : Diagnostic.leavesList ds = (p.reportedIn us).map Use.problem
  /-- Each says something. -/
  nonempty : ∀ d ∈ ds, d.leaves ≠ []

theorem TellsUses.append {ds es : List Diagnostic} {us vs : List Use} (h : TellsUses p ds us)
    (h' : TellsUses p es vs) : TellsUses p (ds ++ es) (us ++ vs) := by
  refine ⟨?_, List.forall_mem_append.mpr ⟨h.nonempty, h'.nonempty⟩⟩
  rw [Diagnostic.leavesList_append, h.leaves, h'.leaves, Program.reportedIn_append,
    List.map_append]

/-- What is found in the expression of a statement. -/
theorem EnvAt.tellsUses (h : EnvAt p env path) {s : Stmt} (hs : (path, s) ∈ p.placed)
    {d : Diagnostic} (hne : missing env s.variables ≠ [])
    (hd : d.leaves = (missing env s.variables).map unbound) :
    TellsUses p [d] (usesIn [(path, s)]) := by
  have hleaves : Diagnostic.leavesList [d] = d.leaves := List.append_nil _
  refine ⟨?_, List.forall_mem_singleton.mpr ?_⟩
  · rw [hleaves, hd, h.reportedIn_eq hs]
  · rw [hd]
    simpa using hne

theorem EnvAt.tellsUses_nil (h : EnvAt p env path) {s : Stmt} (hs : (path, s) ∈ p.placed)
    (hnil : missing env s.variables = []) : TellsUses p [] (usesIn [(path, s)]) := by
  refine ⟨?_, nofun⟩
  rw [h.reportedIn_eq hs, hnil]
  rfl

/-- What a statement comes to: it is rejected for its own uses, or it goes on with what has been
found inside of it. -/
inductive StmtTells (p : Program) (env : Env) (list : List Nat) (i : Nat) (us : List Use) :
    Except Failure (Typed.Stmt × List Diagnostic) → Prop where
  /-- It is rejected. -/
  | rejected {d : Diagnostic} : TellsUses p [d] us → EnvAt p env (list ++ [i + 1]) →
      StmtTells p env list i us (.error (.rejected d))
  /-- It is not. -/
  | ok {typed : Typed.Stmt} {ds : List Diagnostic} : TellsUses p ds us → AllNum typed.exprNodes →
      EnvAt p (env.after typed) (list ++ [i + 1]) → StmtTells p env list i us (.ok (typed, ds))

/-- A statement with an expression of its own, other than a `let`. -/
theorem EnvAt.exprStmt (h : EnvAt p env (list ++ [i])) {s : Stmt} {e : Expr}
    (hs : (list ++ [i], s) ∈ p.placed) (hv : s.variables = e.variables) (he : e.IsPlain)
    (hno : ∀ x value span, s ≠ .bind x value span) {f : Typed.Expr → Typed.Stmt}
    (hf : ∀ t, (f t).exprNodes = t.nodes ∧ env.after (f t) = env) :
    StmtTells p env list i (usesIn [(list ++ [i], s)])
      ((Direct.expr .standard .accumulate env e).map fun t => (f t, [])) := by
  have htells := Direct.expr_tells h.num he
  rw [← hv] at htells
  have hskip : EnvAt p env (list ++ [i + 1]) := by
    refine h.skip ?_
    rintro x ⟨x', value, span, hb, -⟩
    exact absurd (p.placed_unique hs hb) (hno x' value span)
  generalize Direct.expr .standard .accumulate env e = r at htells
  cases htells with
  | @ok t hnil hnum =>
    refine .ok (h.tellsUses_nil hs hnil) ?_ ?_
    · rw [(hf t).1]
      exact hnum
    · rw [(hf t).2]
      exact hskip
  | rejected hne hd => exact .rejected (h.tellsUses hs hne hd) hskip

mutual
/-- A statement is rejected for the uses that are reported. -/
theorem Direct.stmt_tells : ∀ (s : Stmt) {env : Env} {list : List Nat} {i : Nat}, s.IsPlain →
    (∀ x ∈ s.placed (list ++ [i]), x ∈ p.placed) → EnvAt p env (list ++ [i]) →
      StmtTells p env list i (usesIn (s.placed (list ++ [i])))
        (Direct.stmt .standard .accumulate env s)
  | .expr e span, env, list, i, hp, hs, henv => by
    have hself := hs _ List.mem_cons_self
    rw [Direct.stmt]
    exact henv.exprStmt hself rfl hp nofun fun t => ⟨rfl, rfl⟩
  | .print e span, env, list, i, hp, hs, henv => by
    have hself := hs _ List.mem_cons_self
    rw [Direct.stmt]
    exact henv.exprStmt hself rfl hp nofun fun t => ⟨rfl, rfl⟩
  | .bind x value span, env, list, i, hp, hs, henv => by
    have hself := hs _ List.mem_cons_self
    have htells := Direct.expr_tells henv.num hp
    have hfailed := henv.failed_iff hself
    rw [Direct.stmt]
    generalize Direct.expr .standard .accumulate env value = r at htells
    cases htells with
    | @ok t hnil hnum =>
      have hafter := henv.bind hself fun hf => hfailed.mp hf hnil
      rw [← hnum t t.self_mem_nodes] at hafter
      exact .ok (henv.tellsUses_nil hself hnil) hnum hafter
    | rejected hne hd =>
      exact .rejected (henv.tellsUses hself hne hd) (henv.skip fun _ _ => hfailed.mpr hne)
  | .block statements span, env, list, i, hp, hs, henv => by
    obtain ⟨hself, hinner⟩ := List.forall_mem_cons.mp hs
    obtain ⟨typed, ds, hstatements, htells, hnum⟩ :=
      Direct.statements_tell statements hp hinner henv.enter
    rw [Direct.stmt, hstatements]
    refine .ok htells hnum (henv.skip ?_)
    rintro x ⟨x', value, span', hb, -⟩
    cases p.placed_unique hself hb
/-- Statements are checked to their end, and told are the uses that are reported. -/
theorem Direct.statements_tell : ∀ (l : List Stmt) {env : Env} {list : List Nat} {i : Nat},
    Stmt.ArePlain l → (∀ x ∈ Stmt.placedList list i l, x ∈ p.placed) →
      EnvAt p env (list ++ [i]) →
        ∃ typed ds, Direct.statements .standard .accumulate env l = .ok (typed, ds) ∧
          TellsUses p ds (usesIn (Stmt.placedList list i l)) ∧
          AllNum (Typed.Stmt.exprNodesList typed)
  | [], env, list, i, _, _, _ => ⟨[], [], by rw [Direct.statements], ⟨rfl, nofun⟩, nofun⟩
  | s :: rest, env, list, i, hp, hs, henv => by
    obtain ⟨hfirst, hrest⟩ := List.forall_mem_append.mp hs
    have hstmt := Direct.stmt_tells s hp.1 hfirst henv
    rw [Stmt.placedList, usesIn_append, Direct.statements_cons]
    generalize Direct.stmt .standard .accumulate env s = r at hstmt
    cases hstmt with
    | @ok typed ds htells hnum henv' =>
      obtain ⟨more, es, hmore, htells', hnum'⟩ := Direct.statements_tell rest hp.2 hrest henv'
      dsimp only
      rw [hmore]
      exact ⟨typed :: more, ds ++ es, rfl, htells.append htells',
        List.forall_mem_append.mpr ⟨hnum, hnum'⟩⟩
    | @rejected d htells henv' =>
      obtain ⟨more, es, hmore, htells', hnum'⟩ := Direct.statements_tell rest hp.2 hrest henv'
      dsimp only
      rw [hmore]
      exact ⟨more, d :: es, rfl, htells.append htells', hnum'⟩
end

end Statements

/-! ### Programs -/

/-- The check of a plain program succeeds, or it is rejected for the uses that are reported. -/
theorem Direct.check_tells {p : Program} (h : Stmt.ArePlain p.statements) :
    (∃ typed, Direct.check .standard .accumulate p = .ok (.ok typed) ∧ p.reported = [] ∧
      AllNum typed.exprNodes) ∨
    ∃ d, Direct.check .standard .accumulate p = .ok (.error d) ∧ p.reported ≠ [] ∧
      d.leaves = p.reported.map Use.problem := by
  have hstart : EnvAt p [] ([] ++ [0]) := by
    refine ⟨fun _ _ hty => (by cases hty), fun x => iff_of_false (by intro hx; cases hx) ?_⟩
    rintro ⟨path, -, hv, -⟩
    exact not_visible_nil path (visible_zero.mp hv)
  obtain ⟨typed, ds, hstatements, htells, hnum⟩ :=
    Direct.statements_tell p.statements h (fun _ hx => hx) hstart
  rw [Direct.check, hstatements]
  dsimp only
  have hleaves : Diagnostic.leavesList ds = p.reported.map Use.problem := htells.leaves
  cases hc : Diagnostic.combine ds with
  | none =>
    rw [combine_eq_none hc] at hleaves
    exact .inl ⟨_, rfl, List.map_eq_nil_iff.mp hleaves.symm, hnum⟩
  | some d =>
    refine .inr ⟨d, rfl, ?_, (leaves_combine hc).trans hleaves⟩
    intro hnil
    rw [hnil] at hleaves
    cases ds with
    | nil => cases hc
    | cons d₀ es =>
      exact htells.nonempty d₀ List.mem_cons_self (List.append_eq_nil_iff.mp hleaves).1

/-- **The check decides lexical scoping.** In `accumulate` mode and with the rules of the language,
a parsed program is rejected exactly for the uses without a `let` that is visible and has no
such use in its own value, in the order of the source; without such uses, all is a number. -/
theorem check_decides_scoping {source : String} {p : Program} (h : Program.parse source = .ok p) :
    p.uses.Pairwise (fun u v => u.span.stop ≤ v.span.start) ∧
    (∀ u, p.Reported u ↔ u ∈ p.uses ∧ ¬ ∃ path, p.Binds path u.name ∧ Visible path u.path ∧
      ∀ v, p.Reported v → v.path ≠ path) ∧
    ((∃ typed, (check .standard .accumulate p).result = .ok (.ok typed) ∧ p.reported = [] ∧
        ∀ e ∈ typed.exprNodes, e.ty = .num) ∨
      ∃ d, (check .standard .accumulate p).result = .ok (.error d) ∧ p.reported ≠ [] ∧
        d.leaves = p.reported.map Use.problem) := by
  have hread := (Grammar.parse_eq_ok_iff.mp h).1
  have hplain := (Grammar.listReads_of_read hread).arePlain
  refine ⟨Program.uses_pairwise hread, fun u => Program.reported_iff, ?_⟩
  rw [check_eq_direct]
  exact Direct.check_tells hplain

/-- A `let` that has failed neither binds its name nor hides an older one. -/
theorem check_decides_scoping_failed :
    let source := "let x = 1; let x = y; \x7bx;\x7d"
    let p : Program := ⟨[
      .bind ⟨"x", ⟨4, 5⟩⟩ (.literal (Binary64.ofNumeral ['1']) ⟨8, 9⟩) ⟨0, 10⟩,
      .bind ⟨"x", ⟨15, 16⟩⟩ (.var ⟨"y", ⟨19, 20⟩⟩ ⟨19, 20⟩) ⟨11, 21⟩,
      .block [.expr (.var ⟨"x", ⟨23, 24⟩⟩ ⟨23, 24⟩) ⟨23, 25⟩] ⟨22, 26⟩], ⟨0, 26⟩⟩
    let problem : Problem := .undefinedVariable "y" ⟨19, 20⟩
    Program.parse source = .ok p ∧
      (check .standard .accumulate p).result = .ok (.error (.one problem)) ∧
      p.reported.map Use.problem = [problem] := by
  intro source p problem
  have hparse : Program.parse source = .ok p := by
    refine Grammar.parse_eq_ok_iff.mpr ⟨?_, by decide⟩
    subst source p
    rfl
  have hcheck : (check .standard .accumulate p).result = .ok (.error (.one problem)) := by
    rw [check_eq_direct]
    rfl
  refine ⟨hparse, hcheck, ?_⟩
  rcases (check_decides_scoping hparse).2.2 with ⟨typed, hok, -⟩ | ⟨d, herror, -, hleaves⟩
  · cases hcheck.symm.trans hok
  · cases hcheck.symm.trans herror
    exact hleaves.symm

end Check

end NumCheck
