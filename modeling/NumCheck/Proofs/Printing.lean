import NumCheck.Proofs.Parsing
import NumCheck.Proofs.Scanning
import NumCheck.Syntax.Bare

/-!
# Written trees are read back

A bare tree is written with as few parentheses as possible, so whether an operand stands between
them depends on its level and on the level that the grammar wants there. An expression that is
written without parentheses can stand at its own level and at all looser ones; with them, it can
stand everywhere. Since this is all that the printer looks at, one lemma on parentheses
(`reads_parenthesize`) carries the induction over trees.

The printer puts one blank between lexemes, and nothing is said of other ways to write a tree. Names
and numerals have to be those of the language, and the tree must not be deeper than the parser allows.
-/

namespace NumCheck.Bare

open NumCheck.Grammar (Spelt Spells operandOf spelt_symbol)
open NumCheck.Parser (Level Reads ListReads NoKeyword)

/-- A lexeme as a token that stands nowhere. -/
def placeless (l : Lexeme) : Token := ⟨l, {}⟩

/-! ### Expressions -/

/-- If an expression can stand at its own level, then with the parentheses that a level needs it
can stand at that level. -/
theorem reads_parenthesize {e : Expr}
    (h : ∀ level : Level, level.rank ≤ e.level →
      Reads level (e.lexemes.map placeless) (operandOf e.toExpr)) (level : Level) :
    Reads level ((parenthesize (e.level < level.rank) e.lexemes).map placeless)
      (operandOf e.toExpr) := by
  by_cases hl : e.level < level.rank
  · have hatom := Reads.parens {} {} (h .sum (Nat.zero_le _))
    have hrank : level.rank ≤ Level.atom.rank := by cases level <;> decide
    rw [parenthesize, if_pos (decide_eq_true hl), List.cons_append, List.map_cons, List.map_append]
    exact hatom.loosen hrank
  · rw [parenthesize, if_neg (by simpa using hl)]
    exact h level (Nat.le_of_not_lt hl)

/-- What is written makes the tree again, at all levels that are not too tight. -/
theorem Expr.reads (e : Expr) (level : Level) (hl : level.rank ≤ e.level) :
    Reads level (e.lexemes.map placeless) (operandOf e.toExpr) := by
  induction e generalizing level with
  | var name => exact (Reads.name name {}).loosen hl
  | numeral digits => exact (Reads.number digits {}).loosen hl
  | neg operand ih => exact (Reads.neg {} (reads_parenthesize ih .unary)).loosen hl
  | binary op lhs rhs ihl ihr =>
    -- on the right, an operand of the same level is too loose
    have hright : decide (rhs.level ≤ operatorLevel op) =
        decide (rhs.level < operatorLevel op + 1) :=
      decide_eq_decide.mpr Nat.lt_succ_iff.symm
    rw [Expr.lexemes, List.map_append, List.map_cons, hright]
    cases op with
    | add =>
      have hsum := Reads.plus .plus {} (reads_parenthesize ihl .sum)
        (reads_parenthesize ihr .product)
      exact hsum.loosen hl
    | sub =>
      have hsum := Reads.plus .minus {} (reads_parenthesize ihl .sum)
        (reads_parenthesize ihr .product)
      exact hsum.loosen hl
    | mul =>
      have hproduct := Reads.times .star {} (reads_parenthesize ihl .product)
        (reads_parenthesize ihr .unary)
      exact hproduct.loosen hl
    | div =>
      have hproduct := Reads.times .slash {} (reads_parenthesize ihl .product)
        (reads_parenthesize ihr .unary)
      exact hproduct.loosen hl

/-! ### Statements -/

/-- An expression as a statement makes its tree, and does not start with a keyword. -/
theorem Expr.reads_bare (e : Expr) :
    let written := parenthesize (startsWithKeyword e.lexemes) e.lexemes
    Reads .sum (written.map placeless) (operandOf e.toExpr) ∧
      NoKeyword (written.map placeless) := by
  have he := e.reads .sum (Nat.zero_le _)
  intro written
  cases hs : startsWithKeyword e.lexemes with
  | true =>
    have hw : written = .symbol .lpar :: (e.lexemes ++ [.symbol .rpar]) := by
      rw [show written = parenthesize _ _ from rfl, hs]
      rfl
    rw [hw, List.map_cons, List.map_append]
    refine ⟨(Reads.parens {} {} he).loosen (Nat.zero_le _), ?_⟩
    rintro tok ⟨⟩
    exact ⟨nofun, nofun⟩
  | false =>
    have hw : written = e.lexemes := by
      rw [show written = parenthesize _ _ from rfl, hs]
      rfl
    rw [hw]
    refine ⟨he, fun tok htok => ?_⟩
    rw [List.head?_map] at htok
    obtain ⟨l, hl, rfl⟩ := Option.map_eq_some_iff.mp htok
    simp only [startsWithKeyword, hl, Option.some.injEq, Bool.or_eq_false_iff,
      decide_eq_false_iff_not] at hs
    exact hs

mutual
theorem Stmt.reads : ∀ (s : Stmt) {rest : List Token} {l : List NumCheck.Stmt}, ListReads rest l →
    ListReads (s.lexemes.map placeless ++ rest) (s.toStmt :: l)
  | .expr e, rest, l, hl => by
    have hr := ListReads.bare {} e.reads_bare.1 e.reads_bare.2 hl
    rw [Stmt.lexemes, List.map_append, List.append_assoc, Stmt.toStmt]
    exact hr
  | .block statements, rest, l, hl => by
    have hr := ListReads.block {} {} (Stmt.listReads statements) hl
    rw [Stmt.lexemes, List.cons_append, List.map_cons, List.map_append, List.cons_append,
      List.append_assoc, Stmt.toStmt]
    exact hr
  | .bind name value, rest, l, hl => by
    have hr := ListReads.bind name {} {} {} {} (value.reads .sum (Nat.zero_le _)) hl
    simpa [Stmt.lexemes, Stmt.toStmt, operandOf, placeless] using hr
  | .print e, rest, l, hl => by
    have hr := ListReads.print {} {} (e.reads .sum (Nat.zero_le _)) hl
    rw [Stmt.lexemes, List.cons_append, List.map_cons, List.map_append, List.cons_append,
      List.append_assoc, Stmt.toStmt]
    exact hr
/-- What is written makes the statements again. -/
theorem Stmt.listReads : ∀ l : List Stmt,
    ListReads ((Stmt.lexemesList l).map placeless) (Stmt.toStmts l)
  | [] => .nil
  | s :: rest => by
    rw [Stmt.lexemesList, List.map_append, Stmt.toStmts]
    exact Stmt.reads s (Stmt.listReads rest)
end

/-! ### What is written can be spelt -/

theorem exists_of_isName {s : String} (h : isName s = true) :
    ∃ c rest, s.toList = c :: rest ∧ isWordStart c = true ∧ ∀ x ∈ rest, isWordPart x = true := by
  unfold isName at h
  cases hs : s.toList with
  | nil =>
    rw [hs] at h
    cases h
  | cons c rest =>
    rw [hs, Bool.and_eq_true, List.all_eq_true] at h
    exact ⟨c, rest, rfl, h⟩

theorem spells_of_isName {s : String} (h : isName s = true) : Spells (.name s) s.toList := by
  obtain ⟨c, rest, hs, hc, hrest⟩ := exists_of_isName h
  have hname := Spells.name (Grammar.letter_iff.mpr hc) fun x hx =>
    Grammar.wordPart_iff.mpr (hrest x hx)
  rwa [← hs, String.ofList_toList] at hname

theorem numeral_of_isNumeral {s : String} (h : isNumeral s = true) : Grammar.Numeral s.toList := by
  have hdigits {cs : List Char} (hall : cs.all Char.isDigit = true) : ∀ c ∈ cs, Grammar.Digit c :=
    fun c hc => Grammar.digit_iff.mpr (List.all_eq_true.mp hall c hc)
  have hwhole := hdigits (List.all_takeWhile (p := Char.isDigit) (l := s.toList))
  rw [isNumeral, Bool.and_eq_true, Bool.not_eq_true', List.isEmpty_eq_false_iff] at h
  obtain ⟨hne, hrest⟩ := h
  rw [← List.takeWhile_append_dropWhile (p := Char.isDigit) (l := s.toList)]
  cases hd : s.toList.dropWhile Char.isDigit with
  | nil =>
    rw [List.append_nil]
    exact .inl ⟨hne, hwhole⟩
  | cons c fraction =>
    simp only [hd, Bool.and_eq_true, beq_iff_eq, Bool.not_eq_true',
      List.isEmpty_eq_false_iff] at hrest
    obtain ⟨⟨rfl, hfne⟩, hfraction⟩ := hrest
    exact .fraction hne hwhole hfne (hdigits hfraction)

theorem spelt_word {name : String} (h : isName name = true) : Spelt (.word name) :=
  ⟨.name name, spells_of_isName h, rfl⟩

theorem spelt_numeral {digits : String} (h : isNumeral digits = true) :
    Spelt (.numeral digits) := by
  have hn := Spells.number (numeral_of_isNumeral h)
  rw [String.ofList_toList] at hn
  exact ⟨.number digits, hn, rfl⟩

/-- Parentheses can be spelt, so they may be put around what can. -/
theorem spelt_parenthesize {ls : List Lexeme} (h : ∀ l ∈ ls, Spelt l) (needed : Bool) :
    ∀ l ∈ parenthesize needed ls, Spelt l := by
  cases needed with
  | false => exact h
  | true => simpa [parenthesize, spelt_symbol, or_imp, forall_and] using h

theorem Expr.spelt_lexemes {e : Expr} (h : e.IsWritable) : ∀ l ∈ e.lexemes, Spelt l := by
  induction e with
  | var name => simpa [Expr.lexemes] using spelt_word h
  | numeral digits => simpa [Expr.lexemes] using spelt_numeral h
  | neg operand ih =>
    rw [Expr.lexemes, List.forall_mem_cons]
    exact ⟨spelt_symbol _, spelt_parenthesize (ih h) _⟩
  | binary op lhs rhs ihl ihr =>
    rw [Expr.lexemes, List.forall_mem_append, List.forall_mem_cons]
    exact ⟨spelt_parenthesize (ihl h.1) _, spelt_symbol _, spelt_parenthesize (ihr h.2) _⟩

mutual
theorem Stmt.spelt_lexemes : ∀ {s : Stmt}, s.IsWritable → ∀ l ∈ s.lexemes, Spelt l
  | .expr e, h => by
    rw [Stmt.lexemes, List.forall_mem_append, List.forall_mem_singleton]
    exact ⟨spelt_parenthesize (Expr.spelt_lexemes h) _, spelt_symbol _⟩
  | .block statements, h => by
    rw [Stmt.lexemes, List.cons_append, List.forall_mem_cons, List.forall_mem_append,
      List.forall_mem_singleton]
    exact ⟨spelt_symbol _, Stmt.spelt_lexemesList h, spelt_symbol _⟩
  | .bind name value, h => by
    rw [Stmt.lexemes, List.forall_mem_append, List.forall_mem_cons, List.forall_mem_cons,
      List.forall_mem_cons, List.forall_mem_singleton]
    exact ⟨⟨spelt_word rfl, spelt_word h.1, spelt_symbol _, Expr.spelt_lexemes h.2⟩,
      spelt_symbol _⟩
  | .print e, h => by
    rw [Stmt.lexemes, List.forall_mem_append, List.forall_mem_cons, List.forall_mem_singleton]
    exact ⟨⟨spelt_word rfl, Expr.spelt_lexemes h⟩, spelt_symbol _⟩
theorem Stmt.spelt_lexemesList : ∀ {p : List Stmt}, Stmt.AreWritable p →
    ∀ l ∈ Stmt.lexemesList p, Spelt l
  | [], _ => nofun
  | s :: rest, h => by
    rw [Stmt.lexemesList, List.forall_mem_append]
    exact ⟨Stmt.spelt_lexemes h.1, Stmt.spelt_lexemesList h.2⟩
end

/-! ### Parsing what is written -/

/-- **Parsing undoes printing.** What is written is accepted, and the tree comes back with nothing
but its places added. -/
theorem parse_render {p : List Stmt} (hw : Stmt.AreWritable p)
    (hd : Stmt.depthList (Stmt.toStmts p) ≤ nestingLimit) :
    ∃ q, Program.parse (render p) = .ok q ∧ q.mapSpans (fun _ => {}) = ⟨Stmt.toStmts p, {}⟩ := by
  have hlexemes : Grammar.lexemes (render p).toList = Stmt.lexemesList p :=
    Grammar.lexemes_intercalate (Stmt.spelt_lexemesList hw)
  have hreads := Stmt.listReads p
  rw [← hlexemes] at hreads
  obtain ⟨l, hl, hplaces⟩ := Grammar.listReads_of_lexemes hreads
  rw [← hplaces, Stmt.depthList_mapSpans] at hd
  exact ⟨_, Grammar.parse_of_listReads hl hd, congrArg (Program.mk · {}) hplaces⟩

/-- A right operand of the same level, the operand of a sign and a statement that starts with a
keyword get parentheses; left operands need none. -/
theorem parse_render_nested :
    let x : Expr := .var "print"
    let p : List Stmt :=
      [.bind "let" (.binary .sub x (.binary .add x (.neg (.binary .mul x (.numeral "1.50"))))),
        .block [.expr (.binary .div (.binary .div (.var "let") x) x)]]
    render p =
      "let let = print - ( print + - ( print * 1.50 ) ) ; \x7b ( let / print / print ) ; \x7d" ∧
    Stmt.AreWritable p ∧ Stmt.depthList (Stmt.toStmts p) ≤ nestingLimit ∧
    ∃ q, Program.parse (render p) = .ok q ∧ q.mapSpans (fun _ => {}) = ⟨Stmt.toStmts p, {}⟩ := by
  intro x p
  have hw : Stmt.AreWritable p :=
    ⟨⟨rfl, rfl, rfl, rfl, rfl⟩, ⟨⟨⟨rfl, rfl⟩, rfl⟩, trivial⟩, trivial⟩
  have hd : Stmt.depthList (Stmt.toStmts p) ≤ nestingLimit := by decide
  exact ⟨by cbv, hw, hd, parse_render hw hd⟩

end NumCheck.Bare
