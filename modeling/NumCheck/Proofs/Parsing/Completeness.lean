import NumCheck.Proofs.Lexing
import NumCheck.Proofs.Parsing.Reading

/-!
# Derivations are read

The pieces of a derivation, as tokens that stand nowhere, make the tree of the derivation. So
the parser, which follows tokens that make a tree, follows derivations.

The phase of the parser decides which words are keywords. A statement without a keyword has to
start with another word, and this is what the grammar's pieces say if they fit.
-/

namespace NumCheck.Grammar

open NumCheck.Parser (Operand Reads ListReads NoKeyword)

/-- The piece as a token that stands nowhere. -/
def Piece.token (t : Piece) : Token := ⟨t.lexeme, {}⟩

/-- An expression without a place, as an operand. -/
def operandOf (e : Expr) : Operand := ⟨e, {}⟩

/-! ### Expressions -/

mutual
theorem Atom.reads : ∀ a : Atom, Reads .atom (a.yield.map Piece.token) (operandOf a.expr)
  | .number text => .number text {}
  | .name text => .name text {}
  | .parens e => by
    rw [Atom.yield, Atom.expr, List.map_cons, List.map_append]
    exact .parens {} {} (Sum.reads e)
theorem Unary.reads : ∀ u : Unary, Reads .unary (u.yield.map Piece.token) (operandOf u.expr)
  | .atom a => by
    rw [Unary.yield, Unary.expr]
    exact .atom (Atom.reads a)
  | .neg operand => by
    rw [Unary.yield, Unary.expr, List.map_cons]
    exact .neg {} (Unary.reads operand)
theorem Product.reads : ∀ p : Product,
    Reads .product (p.yield.map Piece.token) (operandOf p.expr)
  | .unary u => by
    rw [Product.yield, Product.expr]
    exact .unary (Unary.reads u)
  | .times lhs op rhs => by
    rw [Product.yield, Product.expr, List.map_append, List.map_cons]
    exact .times op {} (Product.reads lhs) (Unary.reads rhs)
/-- The pieces of an expression make its tree. -/
theorem Sum.reads : ∀ e : Sum, Reads .sum (e.yield.map Piece.token) (operandOf e.expr)
  | .product p => by
    rw [Sum.yield, Sum.expr]
    exact .product (Product.reads p)
  | .plus lhs op rhs => by
    rw [Sum.yield, Sum.expr, List.map_append, List.map_cons]
    exact .plus op {} (Sum.reads lhs) (Product.reads rhs)
end

/-! ### Statements -/

/-- The piece before what follows `ts`, which itself stands after `prev`. -/
def lastPiece (prev : Option Piece) (ts : List Piece) : Option Piece :=
  ts.foldl (fun _ t => some t) prev

theorem lastPiece_concat (prev : Option Piece) (ts : List Piece) (t : Piece) :
    lastPiece prev (ts ++ [t]) = some t := by
  rw [lastPiece, List.foldl_append]
  rfl

theorem keyed_append {prev : Option Piece} {ts us : List Piece} :
    Keyed prev (ts ++ us) ↔ Keyed prev ts ∧ Keyed (lastPiece prev ts) us := by
  induction ts generalizing prev with
  | nil => exact ⟨fun h => ⟨trivial, h⟩, fun h => h.2⟩
  | cons t ts ih => rw [List.cons_append, Keyed, Keyed, ih, and_assoc]; rfl

/-- After a statement another one can start. -/
theorem Statement.starts_after (s : Statement) (prev : Option Piece) :
    StatementStarts (lastPiece prev s.yield) := by
  cases s with
  | bind name value => exact .inr (.inl (lastPiece_concat _ _ _))
  | print e => exact .inr (.inl (lastPiece_concat _ _ _))
  | block body => exact .inr (.inr (.inr (lastPiece_concat _ _ _)))
  | bare e => exact .inr (.inl (lastPiece_concat _ _ _))

/-- An expression that starts a statement does not start with a keyword. -/
theorem Sum.noKeyword {e : Sum} {prev : Option Piece} (hprev : StatementStarts prev)
    (hk : Keyed prev e.yield) : NoKeyword (e.yield.map Piece.token) := by
  obtain ⟨t, rest, he, ht⟩ := e.yield_head
  rw [he] at hk ⊢
  rintro tok ⟨⟩
  cases t with
  | letWord => exact ht.elim
  | printWord => exact ht.elim
  | name text =>
    exact ⟨fun hw => hk.1 (.inl (Lexeme.word.inj hw)) hprev,
      fun hw => hk.1 (.inr (Lexeme.word.inj hw)) hprev⟩
  | number text => exact ⟨nofun, nofun⟩
  | symbol s => exact ⟨nofun, nofun⟩

mutual
theorem Statement.reads : ∀ (s : Statement) {prev : Option Piece} {rest : List Token}
    {l : List Stmt}, StatementStarts prev → Keyed prev s.yield → ListReads rest l →
    ListReads (s.yield.map Piece.token ++ rest) (s.stmt :: l)
  | .bind name value, prev, rest, l, _, _, hl => by
    have hr := ListReads.bind name {} {} {} {} value.reads hl
    simpa [Statement.yield, Statement.stmt, operandOf, Piece.token, Piece.lexeme] using hr
  | .print e, prev, rest, l, _, _, hl => by
    have hr := ListReads.print {} {} e.reads hl
    simpa [Statement.yield, Statement.stmt, operandOf, Piece.token, Piece.lexeme] using hr
  | .block body, prev, rest, l, _, hk, hl => by
    rw [Statement.yield] at hk
    have hbody := Statement.listReads body (.inr (.inr (.inl rfl))) (keyed_append.mp hk.2).1
    have hr := ListReads.block {} {} hbody hl
    simpa [Statement.yield, Statement.stmt, operandOf, Piece.token, Piece.lexeme] using hr
  | .bare e, prev, rest, l, hprev, hk, hl => by
    rw [Statement.yield, keyed_append] at hk
    have hr := ListReads.bare {} e.reads (Sum.noKeyword hprev hk.1) hl
    simpa [Statement.yield, Statement.stmt, operandOf, Piece.token, Piece.lexeme] using hr
/-- The pieces of statements make their trees, where their words are keywords as they should be. -/
theorem Statement.listReads : ∀ (ds : List Statement) {prev : Option Piece},
    StatementStarts prev → Keyed prev (Statement.yieldAll ds) →
    ListReads ((Statement.yieldAll ds).map Piece.token) (Statement.stmts ds)
  | [], prev, _, _ => .nil
  | s :: rest, prev, hprev, hk => by
    rw [Statement.yieldAll, keyed_append] at hk
    have hrest := Statement.listReads rest (s.starts_after prev) hk.2
    rw [Statement.yieldAll, Statement.stmts, List.map_append]
    exact Statement.reads s hprev hk.1 hrest
end

end NumCheck.Grammar
