import Mathlib.Data.List.Forall2
import NumCheck.Proofs.Scoping

/-!
# Problems sit on tokens, in the order of the source

A check of a parsed program can only complain about a variable or about an operator, and each of
these is a token of its own. The *sites* of a tree are its variables and operators with their
places, from left to right: the operator of a binary expression stands between the sites of its
operands. They are what the parser and the check have in common. The parser takes them from tokens,
one by one and in order; the check reports problems at some of them, in order as well, since an
operator is complained about only if nothing is wrong with its operands.

Which of the sites are complained about is not said here; for the rules of the language it is said in
`Scoping`. Trees that do not come from a source have no tokens to sit on.
-/

namespace NumCheck

/-! ### Sites -/

/-- A variable or an operator as it is written, and where it stands. -/
abbrev Site := String × Span

/-- The variables and operators of an expression, from left to right. -/
def Expr.sites : Expr → List Site
  | .var name span => [(name.name, span)]
  | .literal .. | .stray _ => []
  | .prefixed op operand _ => (op.symbol, op.span) :: operand.sites
  | .binary op lhs rhs _ => lhs.sites ++ (op.symbol, op.span) :: rhs.sites

mutual
/-- The variables and operators in the expressions of a statement. The name that a `let` binds is
none of them. -/
def Stmt.sites : Stmt → List Site
  | .expr e _ | .bind _ e _ | .print e _ => e.sites
  | .block statements _ => Stmt.sitesList statements
  | .stray _ => []
/-- The variables and operators in the expressions of statements. -/
def Stmt.sitesList : List Stmt → List Site
  | [] => []
  | s :: rest => s.sites ++ Stmt.sitesList rest
end

/-- A token as a site. -/
def Token.site (tok : Token) : Site := (tok.lexeme.text, tok.span)

namespace Parser

open Grammar (AddOp MulOp)

theorem site_addOp (op : AddOp) (s : Span) :
    Token.site ⟨.symbol op.symbol, s⟩ = (op.text, s) := by
  rw [Token.site, op.text_symbol]

theorem site_mulOp (op : MulOp) (s : Span) :
    Token.site ⟨.symbol op.symbol, s⟩ = (op.text, s) := by
  rw [Token.site, op.text_symbol]

/-- The sites of an expression are some of its tokens. -/
theorem Reads.sites_sublist {level : Level} {ts : List Token} {x : Operand}
    (h : Reads level ts x) : x.expr.sites.Sublist (ts.map Token.site) := by
  induction h with
  | number text s => simp [Expr.sites]
  | name text s => exact .refl _
  | parens a b _ ih =>
    rw [List.map_cons, List.map_append]
    exact (ih.trans (List.sublist_append_left _ _)).cons _
  | atom _ ih | unary _ ih | product _ ih => exact ih
  | neg s _ ih => exact ih.cons_cons _
  | times op s _ _ ihx ihy =>
    rw [List.map_append, List.map_cons, site_mulOp]
    exact ihx.append (ihy.cons_cons _)
  | plus op s _ _ ihx ihy =>
    rw [List.map_append, List.map_cons, site_addOp]
    exact ihx.append (ihy.cons_cons _)

/-- The sites of statements are some of their tokens. -/
theorem ListReads.sites_sublist {ts : List Token} {l : List Stmt} (h : ListReads ts l) :
    (Stmt.sitesList l).Sublist (ts.map Token.site) := by
  induction h with
  | nil => exact .refl _
  | bind name a b c d hx _ ih =>
    have hrest := hx.sites_sublist.append (ih.cons (Token.site ⟨.symbol .semicolon, d⟩))
    simp only [List.map_append, List.map_cons]
    exact ((hrest.cons _).cons _).cons _
  | print a d hx _ ih =>
    have hrest := hx.sites_sublist.append (ih.cons (Token.site ⟨.symbol .semicolon, d⟩))
    simp only [List.map_append, List.map_cons]
    exact hrest.cons _
  | block a d _ _ ihb ih =>
    have hrest := ihb.append (ih.cons (Token.site ⟨.symbol .rbrace, d⟩))
    simp only [List.map_append, List.map_cons]
    exact hrest.cons _
  | bare d hx _ _ ih =>
    have hrest := hx.sites_sublist.append (ih.cons (Token.site ⟨.symbol .semicolon, d⟩))
    simp only [List.map_append, List.map_cons]
    exact hrest

end Parser

namespace Check

open Diagnostic (leavesList)

/-! ### Problems at sites -/

/-- What can be wrong at a site: a variable is not bound, or an operator cannot be applied. -/
inductive ProblemAt : Problem → Site → Prop where
  /-- The variable is not bound. -/
  | unbound (name : String) (span : Span) :
      ProblemAt (.undefinedVariable name span) (name, span)
  /-- The operator cannot be applied to its operand. -/
  | unary (span : Span) (op : Operation) (ty : Ty) :
      ProblemAt (.cannotApplyUnary span op ty) (op.symbol, span)
  /-- The operator cannot be applied to its operands. -/
  | binary (span : Span) (op : Operation) (ty₁ ty₂ : Ty) :
      ProblemAt (.cannotApplyBinary span op ty₁ ty₂) (op.symbol, span)

/-- Each of the problems has a site of its own among the given ones, in the same order. -/
def ReportedAt (qs : List Problem) (sites : List Site) : Prop :=
  ∃ own : List Site, own.Sublist sites ∧ List.Forall₂ ProblemAt qs own

variable {qs qs' : List Problem} {sites sites' : List Site}

theorem ReportedAt.nil (sites : List Site) : ReportedAt [] sites :=
  ⟨[], List.nil_sublist _, .nil⟩

theorem ReportedAt.one {q : Problem} {site : Site} (h : ProblemAt q site) (hs : site ∈ sites) :
    ReportedAt [q] sites :=
  ⟨[site], List.singleton_sublist.mpr hs, .cons h .nil⟩

theorem ReportedAt.mono (h : ReportedAt qs sites) (hs : sites.Sublist sites') :
    ReportedAt qs sites' := by
  obtain ⟨own, hown, hat⟩ := h
  exact ⟨own, hown.trans hs, hat⟩

theorem ReportedAt.append (h : ReportedAt qs sites) (h' : ReportedAt qs' sites') :
    ReportedAt (qs ++ qs') (sites ++ sites') := by
  obtain ⟨own, hown, hat⟩ := h
  obtain ⟨own', hown', hat'⟩ := h'
  exact ⟨own ++ own', hown.append hown', List.rel_append hat hat'⟩

/-- The diagnostic of a failure is reported at the given sites. Faults say nothing about them. -/
def Failure.ReportedAt (sites : List Site) : Failure → Prop
  | .rejected d => Check.ReportedAt d.leaves sites
  | .fault _ => True

theorem Failure.ReportedAt.mono {f : Failure} (h : f.ReportedAt sites)
    (hs : sites.Sublist sites') : f.ReportedAt sites' := by
  cases f with
  | rejected d => exact Check.ReportedAt.mono h hs
  | fault f => trivial

namespace Direct

variable (rules : Rules) (mode : Mode)

/-! ### Expressions -/

/-- The operands of an operator are reported from left to right. -/
theorem both_reported {x y : Except Failure Typed.Expr}
    (hx : ∀ f, x = .error f → f.ReportedAt sites) (hy : ∀ f, y = .error f → f.ReportedAt sites')
    {f : Failure} (h : both mode x y = .error f) : f.ReportedAt (sites ++ sites') := by
  have hleft {g : Failure} (hg : x = .error g) : g.ReportedAt (sites ++ sites') :=
    (hx g hg).mono (List.sublist_append_left _ _)
  have hright {g : Failure} (hg : y = .error g) : g.ReportedAt (sites ++ sites') :=
    (hy g hg).mono (List.sublist_append_right _ _)
  rcases x with (d | g) | l
  · rcases y with (e | g) | r
    · cases mode with
      | failFast =>
        cases h
        exact hleft rfl
      | accumulate =>
        cases h
        have hboth : ReportedAt (d.leaves ++ e.leaves) (sites ++ sites') :=
          (hx _ rfl).append (hy _ rfl)
        simpa [Failure.ReportedAt, Diagnostic.leaves, leavesList] using hboth
    · cases mode with
      | failFast =>
        cases h
        exact hleft rfl
      | accumulate =>
        cases h
        trivial
    · cases mode <;> cases h <;> exact hleft rfl
  · cases mode <;> cases h <;> trivial
  · rcases y with e | r
    · cases mode <;> cases h <;> exact hright rfl
    · cases mode <;> cases h

/-- The operator between two operands is reported only if both of them are right. -/
theorem expr_reported (env : Env) {e : Expr} (hp : e.IsPlain) {f : Failure}
    (h : expr rules mode env e = .error f) : f.ReportedAt e.sites := by
  induction e generalizing f with
  | var name span =>
    rw [expr] at h
    split at h
    · cases h
    · cases h
      exact .one (.unbound name.name span) List.mem_cons_self
  | literal value span => cases h
  | prefixed op operand span ih =>
    obtain ⟨hop, hoperand⟩ := hp
    have hlower : UnaryOp.ofSymbol? op.symbol = some .neg := by
      rw [hop]
      rfl
    rw [expr, hlower] at h
    dsimp only at h
    split at h
    · next hf =>
      cases h
      exact (ih hoperand hf).mono (List.sublist_cons_self _ _)
    · split at h
      · cases h
      · cases h
        rw [Expr.sites, hop]
        exact .one (.unary op.span (.unary .neg) _) List.mem_cons_self
  | binary op lhs rhs span ihl ihr =>
    obtain ⟨⟨lowered, hop⟩, hlhs, hrhs⟩ := hp
    have hlower : BinaryOp.ofSymbol? op.symbol = some lowered := by
      rw [hop]
      cases lowered <;> rfl
    rw [expr, hlower] at h
    dsimp only at h
    split at h
    · next hf =>
      cases h
      have hboth := both_reported mode (fun g => ihl hlhs) (fun g => ihr hrhs) hf
      exact hboth.mono ((List.Sublist.refl lhs.sites).append (List.sublist_cons_self _ _))
    · split at h
      · cases h
      · cases h
        rw [Expr.sites, hop]
        exact .one (.binary op.span (.binary lowered) _ _)
          (List.mem_append_right lhs.sites List.mem_cons_self)
  | stray kind => exact hp.elim

/-! ### Statements -/

/-- The failure of a result, or else what has been recorded, is reported at the given sites. -/
def Reported {α : Type} (sites : List Site) : Except Failure (α × List Diagnostic) → Prop
  | .ok (_, ds) => ReportedAt (leavesList ds) sites
  | .error f => f.ReportedAt sites

/-- What comes after reported diagnostics is reported after them. -/
theorem Reported.map {α β : Type} {x : Except Failure (α × List Diagnostic)}
    (h : Reported sites' x) (g : α → β) {ds : List Diagnostic}
    (hds : ReportedAt (leavesList ds) sites) :
    Reported (sites ++ sites') (x.map fun (v, es) => (g v, ds ++ es)) := by
  cases x with
  | ok r =>
    have hall := hds.append h
    rw [← Diagnostic.leavesList_append] at hall
    exact hall
  | error f => exact Failure.ReportedAt.mono h (List.sublist_append_right _ _)

/-- A statement with an expression of its own. -/
theorem exprStmt_reported (env : Env) {e : Expr} (hp : e.IsPlain)
    (build : Typed.Expr → Typed.Stmt) :
    Reported e.sites ((expr rules mode env e).map fun t => (build t, [])) := by
  cases he : expr rules mode env e with
  | ok t => exact .nil _
  | error f => exact expr_reported rules mode env hp he

mutual
/-- A statement is reported at its own sites. -/
theorem stmt_reported : ∀ (st : Stmt) (env : Env), st.IsPlain →
    Reported st.sites (stmt rules mode env st)
  | .expr e span, env, hp => by
    rw [stmt, Stmt.sites]
    exact exprStmt_reported rules mode env hp (.expr · span)
  | .block body span, env, hp => by
    have hbody := statements_reported body env hp
    have hnone : ReportedAt (leavesList []) [] := .nil []
    rw [stmt, Stmt.sites]
    exact hbody.map (Typed.Stmt.block · span) hnone
  | .bind name value span, env, hp => by
    rw [stmt, Stmt.sites]
    exact exprStmt_reported rules mode env hp (.bind name · span)
  | .print e span, env, hp => by
    rw [stmt, Stmt.sites]
    exact exprStmt_reported rules mode env hp (.print · span)
  | .stray kind, env, hp => hp.elim
/-- Statements are reported at their own sites, one after the other. -/
theorem statements_reported : ∀ (l : List Stmt) (env : Env), Stmt.ArePlain l →
    Reported (Stmt.sitesList l) (statements rules mode env l)
  | [], env, _ => by
    rw [statements]
    exact .nil _
  | st :: rest, env, hp => by
    have hst := stmt_reported st env hp.1
    have hrest (env' : Env) := statements_reported rest env' hp.2
    rw [statements_cons, Stmt.sitesList]
    generalize stmt rules mode env st = r at hst
    cases r with
    | ok r => exact (hrest _).map (r.1 :: ·) hst
    | error f =>
      dsimp only
      split
      · next d =>
        have hd : ReportedAt (leavesList [d]) st.sites := by
          rw [leavesList, leavesList, List.append_nil]
          exact hst
        exact (hrest env).map id hd
      · exact Failure.ReportedAt.mono hst (List.sublist_append_left _ _)
end

/-- The problems of a plain program are reported at its sites. -/
theorem check_reported {p : Program} (hp : Stmt.ArePlain p.statements) {d : Diagnostic}
    (h : check rules mode p = .ok (.error d)) :
    ReportedAt d.leaves (Stmt.sitesList p.statements) := by
  have hs := statements_reported rules mode p.statements [] hp
  rw [check] at h
  generalize statements rules mode [] p.statements = r at hs h
  rcases r with (d' | f) | ⟨typed, ds⟩
  · cases h
    exact hs
  · cases h
  · dsimp only at h
    split at h
    · next hc =>
      cases h
      rw [leaves_combine hc]
      exact hs
    · cases h

end Direct

/-! ### Programs -/

/-- **Problems sit on tokens of their own, in the order of the source.** Whatever the rules, each
problem of a parsed program is an unbound variable or an operator that cannot be applied, at a
token with this text. The tokens of different problems are different ones, in order, and they take
parts of the source that are not empty and do not overlap. -/
theorem check_on_tokens (rules : Rules) (mode : Mode) {source : String} {p : Program}
    (h : Program.parse source = .ok p) {d : Diagnostic}
    (hd : (check rules mode p).result = .ok (.error d)) :
    ∃ toks : List Token, toks.Sublist (Token.scan source) ∧
      List.Forall₂ (fun q tok => ProblemAt q tok.site) d.leaves toks ∧
      toks.Pairwise (fun a b => a.span.stop ≤ b.span.start) ∧
      ∀ tok ∈ toks, tok.span.start < tok.span.stop ∧ tok.span.stop ≤ source.length ∧
        tok.span.text source = tok.lexeme.text := by
  have hreads := Grammar.listReads_of_read (Grammar.parse_eq_ok_iff.mp h).1
  rw [check_eq_direct] at hd
  obtain ⟨own, hown, hat⟩ := Direct.check_reported rules mode hreads.arePlain hd
  obtain ⟨toks, hsub, rfl⟩ := List.sublist_map_iff.mp (hown.trans hreads.sites_sublist)
  refine ⟨toks, hsub, List.forall₂_map_right_iff.mp hat,
    (Grammar.scanFrom_pairwise 0 source.toList).sublist hsub, fun tok htok => ?_⟩
  have hmem := hsub.subset htok
  obtain ⟨-, hlt, hle⟩ := Grammar.scanFrom_bounds hmem
  rw [Nat.zero_add, String.length_toList] at hle
  exact ⟨hlt, hle, Grammar.span_text hmem⟩

/-- Rules without negation: an operand of a sum and a sign inside of parentheses are reported, and
neither the sum nor the sign before the other variable. -/
theorem check_on_tokens_nested :
    let rules : Rules := ⟨fun _ _ => none, fun _ _ => some .num⟩
    let source := "print x + (-1); -y;"
    let x : Token := ⟨.word "x", ⟨6, 7⟩⟩
    let sign : Token := ⟨.symbol .minus, ⟨11, 12⟩⟩
    let y : Token := ⟨.word "y", ⟨17, 18⟩⟩
    ∃ p d, Program.parse source = .ok p ∧ (check rules .accumulate p).result = .ok (.error d) ∧
      d.leaves = [.undefinedVariable "x" x.span, .cannotApplyUnary sign.span (.unary .neg) .num,
        .undefinedVariable "y" y.span] ∧
      ∃ toks : List Token, toks.Sublist (Token.scan source) ∧
        List.Forall₂ (fun q tok => ProblemAt q tok.site) d.leaves toks ∧
        toks.Pairwise (fun a b => a.span.stop ≤ b.span.start) ∧
        ∀ tok ∈ toks, tok.span.start < tok.span.stop ∧ tok.span.stop ≤ source.length ∧
          tok.span.text source = tok.lexeme.text := by
  intro rules source x sign y
  let p : Program := ⟨[
    .print (.binary ⟨"+", ⟨8, 9⟩⟩ (.var ⟨"x", ⟨6, 7⟩⟩ ⟨6, 7⟩)
      (.prefixed ⟨"-", ⟨11, 12⟩⟩ (.literal (Binary64.ofNumeral ['1']) ⟨12, 13⟩) ⟨11, 13⟩) ⟨6, 14⟩)
      ⟨0, 15⟩,
    .expr (.prefixed ⟨"-", ⟨16, 17⟩⟩ (.var ⟨"y", ⟨17, 18⟩⟩ ⟨17, 18⟩) ⟨16, 18⟩) ⟨16, 19⟩], ⟨0, 19⟩⟩
  have hparse : Program.parse source = .ok p := by
    refine Grammar.parse_eq_ok_iff.mpr ⟨?_, by decide⟩
    subst source p
    rfl
  have hcheck : (check rules .accumulate p).result = .ok (.error (.many [
      .many [.one (.undefinedVariable "x" ⟨6, 7⟩),
        .one (.cannotApplyUnary ⟨11, 12⟩ (.unary .neg) .num)],
      .one (.undefinedVariable "y" ⟨17, 18⟩)])) := by
    rw [check_eq_direct]
    rfl
  exact ⟨p, _, hparse, hcheck, rfl, check_on_tokens rules .accumulate hparse hcheck⟩

end Check

end NumCheck
