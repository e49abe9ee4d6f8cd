import NumCheck.Proofs.Grammar
import NumCheck.Proofs.Relocation

/-!
# Trees and the tokens that they are read from

Which tokens make which tree is said here without the states of the parser, and with the places of
tokens and nodes: `Reads` for the four levels of expressions, `ListReads` for lists of statements.
The relations follow the grammar. A node has the span from its first to its last token, so a
tree is related to exactly the tokens that it takes, and its parts to tokens that stand together
among these.

The parser is followed along such tokens from any state in which they can stand, whatever is open
around them. Nothing has to be known of the stacks for this.

## What is proved

* `Reads.runs`: the tokens of an expression lead from the state in which an operand is needed to
  the state after it.
* `ListReads.run`: the tokens of statements put these on top of what has been read.
* `Reads.unmove`, `ListReads.unmove`: if tokens can be read after they have been moved, then they
  can be read where they stand, and the tree has moved with them.
-/

namespace NumCheck.Parser

open Grammar (AddOp MulOp)

/-! ### Expressions -/

/-- The levels of expressions, the tightest first. -/
inductive Level where
  /-- A number, a name, or an expression in parentheses. -/
  | atom
  /-- An atom with signs. -/
  | unary
  /-- Unary expressions, multiplied and divided. -/
  | product
  /-- Products, added and subtracted. -/
  | sum

/-- The tokens of an expression of a level, and the operand that they make. -/
inductive Reads : Level → List Token → Operand → Prop where
  /-- A number. -/
  | number (text : String) (s : Span) :
      Reads .atom [⟨.numeral text, s⟩] ⟨.literal (Binary64.ofNumeral text.toList) s, s⟩
  /-- A name. -/
  | name (text : String) (s : Span) : Reads .atom [⟨.word text, s⟩] ⟨.var ⟨text, s⟩ s, s⟩
  /-- Parentheses, which count for the text but not for the node. -/
  | parens {ts : List Token} {x : Operand} (a b : Span) : Reads .sum ts x →
      Reads .atom (⟨.symbol .lpar, a⟩ :: (ts ++ [⟨.symbol .rpar, b⟩]))
        ⟨x.expr, ⟨a.start, b.stop⟩⟩
  /-- An atom without signs. -/
  | atom {ts : List Token} {x : Operand} : Reads .atom ts x → Reads .unary ts x
  /-- A sign. -/
  | neg {ts : List Token} {x : Operand} (s : Span) : Reads .unary ts x →
      Reads .unary (⟨.symbol .minus, s⟩ :: ts) (x.signed ⟨"-", s⟩)
  /-- A single factor. -/
  | unary {ts : List Token} {x : Operand} : Reads .unary ts x → Reads .product ts x
  /-- One more factor. -/
  | times {ts us : List Token} {x y : Operand} (op : MulOp) (s : Span) :
      Reads .product ts x → Reads .unary us y →
        Reads .product (ts ++ ⟨.symbol op.symbol, s⟩ :: us) (y.joinTo (some ⟨x, ⟨op.text, s⟩⟩))
  /-- A single term. -/
  | product {ts : List Token} {x : Operand} : Reads .product ts x → Reads .sum ts x
  /-- One more term. -/
  | plus {ts us : List Token} {x y : Operand} (op : AddOp) (s : Span) :
      Reads .sum ts x → Reads .product us y →
        Reads .sum (ts ++ ⟨.symbol op.symbol, s⟩ :: us) (y.joinTo (some ⟨x, ⟨op.text, s⟩⟩))

/-- How tight a level is. -/
def Level.rank : Level → Nat
  | .sum => 0
  | .product => 1
  | .unary => 2
  | .atom => 3

/-- What can stand at a tight level can stand at a looser one. -/
theorem Reads.loosen {level : Level} {ts : List Token} {x : Operand} (h : Reads level ts x)
    {looser : Level} (hl : looser.rank ≤ level.rank) : Reads looser ts x := by
  cases looser with
  | sum =>
    cases level with
    | sum => exact h
    | product => exact .product h
    | unary => exact .product (.unary h)
    | atom => exact .product (.unary (.atom h))
  | product =>
    cases level with
    | sum => cases hl
    | product => exact h
    | unary => exact .unary h
    | atom => exact .unary (.atom h)
  | unary =>
    cases level with
    | sum => cases hl
    | product => exact absurd hl (by decide)
    | unary => exact h
    | atom => exact .atom h
  | atom =>
    cases level with
    | sum => cases hl
    | product => exact absurd hl (by decide)
    | unary => exact absurd hl (by decide)
    | atom => exact h

theorem State.next?_addOp (head : Head) (parens : List Paren) (chain : Chain) (last : Operand)
    (done : List Stmt) (blocks : List OpenBlock) (op : AddOp) (s : Span) :
    State.next? ⟨.operator head parens chain last, done, blocks⟩ ⟨.symbol op.symbol, s⟩ =
      some ⟨.operand head parens ⟨some ⟨chain.sumWith last, ⟨op.text, s⟩⟩, none⟩ [], done,
        blocks⟩ := by
  cases op <;> rfl

theorem State.next?_mulOp (head : Head) (parens : List Paren) (chain : Chain) (last : Operand)
    (done : List Stmt) (blocks : List OpenBlock) (op : MulOp) (s : Span) :
    State.next? ⟨.operator head parens chain last, done, blocks⟩ ⟨.symbol op.symbol, s⟩ =
      some ⟨.operand head parens ⟨chain.sum, some ⟨chain.productWith last, ⟨op.text, s⟩⟩⟩ [], done,
        blocks⟩ := by
  cases op <;> rfl

section Runs

variable (head : Head) (done : List Stmt) (blocks : List OpenBlock)

/-- Where tokens lead that make the operand `x` of a level. An atom and a unary expression get
the signs before them. After a product or a sum the parser still waits for more of it, so there
is a last factor, with which what waits is the whole. -/
def Level.Runs (ts : List Token) (x : Operand) : Level → Prop
  | .atom | .unary => ∀ (parens : List Paren) (chain : Chain) (signs : List Operator),
      State.run? ⟨.operand head parens chain signs, done, blocks⟩ ts =
        some ⟨.operator head parens chain (signs.foldl Operand.signed x), done, blocks⟩
  | .product => ∀ (parens : List Paren) (sum : Option Waiting), ∃ product last,
      State.run? ⟨.operand head parens ⟨sum, none⟩ [], done, blocks⟩ ts =
        some ⟨.operator head parens ⟨sum, product⟩ last, done, blocks⟩ ∧
      Chain.productWith ⟨sum, product⟩ last = x
  | .sum => ∀ (parens : List Paren), ∃ chain last,
      State.run? ⟨.operand head parens {} [], done, blocks⟩ ts =
        some ⟨.operator head parens chain last, done, blocks⟩ ∧
      chain.sumWith last = x

/-- An expression is read from any state in which an operand is needed. -/
theorem Reads.runs {level : Level} {ts : List Token} {x : Operand} (h : Reads level ts x) :
    level.Runs head done blocks ts x := by
  induction h with
  | number text s => exact fun parens chain signs => rfl
  | name text s => exact fun parens chain signs => rfl
  | @parens ts x a b _ ih =>
    intro parens chain signs
    obtain ⟨inner, last, hrun, hx⟩ := ih (⟨a.start, chain, signs⟩ :: parens)
    rw [State.run?_cons]
    change State.run? ⟨.operand head (⟨a.start, chain, signs⟩ :: parens) {} [], done, blocks⟩ _ = _
    rw [State.run?_append, hrun, ← hx]
    rfl
  | atom _ ih => exact ih
  | neg s _ ih =>
    intro parens chain signs
    rw [State.run?_cons]
    exact ih parens chain (⟨"-", s⟩ :: signs)
  | @unary ts x _ ih => exact fun parens sum => ⟨none, x, ih parens ⟨sum, none⟩ [], rfl⟩
  | @times ts us x y op s _ _ ihx ihy =>
    intro parens sum
    obtain ⟨product, last, hrun, hx⟩ := ihx parens sum
    refine ⟨some ⟨x, ⟨op.text, s⟩⟩, y, ?_, rfl⟩
    rw [State.run?_append, hrun, Option.bind_some, State.run?_cons, State.next?_mulOp, hx]
    exact ihy parens _ []
  | product _ ih =>
    intro parens
    obtain ⟨product, last, hrun, hx⟩ := ih parens none
    exact ⟨⟨none, product⟩, last, hrun, hx⟩
  | @plus ts us x y op s _ _ ihx ihy =>
    intro parens
    obtain ⟨chain, last, hrun, hx⟩ := ihx parens
    obtain ⟨product, last', hrun', hy⟩ := ihy parens (some ⟨x, ⟨op.text, s⟩⟩)
    refine ⟨⟨some ⟨x, ⟨op.text, s⟩⟩, product⟩, last', ?_, ?_⟩
    · rw [State.run?_append, hrun, Option.bind_some, State.run?_cons, State.next?_addOp, hx]
      exact hrun'
    · rw [Chain.sumWith, hy]

end Runs

/-! ### Statements -/

/-- The first of the tokens is no word that is a keyword where a statement starts. -/
def NoKeyword (ts : List Token) : Prop :=
  ∀ tok ∈ ts.head?, tok.lexeme ≠ .word "let" ∧ tok.lexeme ≠ .word "print"

/-- The tokens of a list of statements. -/
inductive ListReads : List Token → List Stmt → Prop where
  /-- There is none. -/
  | nil : ListReads [] []
  /-- `let name = e;` -/
  | bind {ts rest : List Token} {x : Operand} {l : List Stmt} (name : String) (a b c d : Span) :
      Reads .sum ts x → ListReads rest l →
        ListReads (⟨.word "let", a⟩ :: ⟨.word name, b⟩ :: ⟨.symbol .equal, c⟩ ::
            (ts ++ ⟨.symbol .semicolon, d⟩ :: rest))
          (.bind ⟨name, b⟩ x.expr ⟨a.start, d.stop⟩ :: l)
  /-- `print e;` -/
  | print {ts rest : List Token} {x : Operand} {l : List Stmt} (a d : Span) :
      Reads .sum ts x → ListReads rest l →
        ListReads (⟨.word "print", a⟩ :: (ts ++ ⟨.symbol .semicolon, d⟩ :: rest))
          (.print x.expr ⟨a.start, d.stop⟩ :: l)
  /-- Statements between braces. -/
  | block {ts rest : List Token} {body l : List Stmt} (a d : Span) :
      ListReads ts body → ListReads rest l →
        ListReads (⟨.symbol .lbrace, a⟩ :: (ts ++ ⟨.symbol .rbrace, d⟩ :: rest))
          (.block body ⟨a.start, d.stop⟩ :: l)
  /-- `e;` -/
  | bare {ts rest : List Token} {x : Operand} {l : List Stmt} (d : Span) :
      Reads .sum ts x → NoKeyword ts → ListReads rest l →
        ListReads (ts ++ ⟨.symbol .semicolon, d⟩ :: rest)
          (.expr x.expr ⟨x.extent.start, d.stop⟩ :: l)

theorem Reads.ne_nil {level : Level} {ts : List Token} {x : Operand} (h : Reads level ts x) :
    ts ≠ [] := by
  induction h with
  | atom _ ih => exact ih
  | unary _ ih => exact ih
  | product _ ih => exact ih
  | _ => simp

/-- Where an expression starts a statement, its first token is read like any operand. -/
theorem NoKeyword.run? {ts : List Token} (h : NoKeyword ts) (hne : ts ≠ []) {done : List Stmt}
    {blocks : List OpenBlock} {st : State}
    (hr : State.run? ⟨.operand .bare [] {} [], done, blocks⟩ ts = some st) :
    State.run? ⟨.statement, done, blocks⟩ ts = some st := by
  obtain ⟨⟨lexeme, s⟩, ts, rfl⟩ := List.exists_cons_of_ne_nil hne
  obtain ⟨hlet, hprint⟩ := h _ rfl
  rw [State.run?_cons] at hr ⊢
  rw [← hr]
  congr 1
  cases lexeme with
  | word text => simp only [State.next?, statementStep, if_neg hlet, if_neg hprint]
  | numeral text => rfl
  | symbol sym =>
    cases sym with
    | minus => rfl
    | lpar => rfl
    | _ => cases hr
  | stray c => rfl

theorem NoKeyword.append {ts : List Token} (h : NoKeyword ts) (hne : ts ≠ []) (us : List Token) :
    NoKeyword (ts ++ us) := by
  intro tok htok
  rw [List.head?_append_of_ne_nil ts hne] at htok
  exact h tok htok

/-- The end of a statement puts it on top of those before it. -/
theorem Reads.run_semicolon {ts : List Token} {x : Operand} (h : Reads .sum ts x) (head : Head)
    (d : Span) (rest : List Token) (done : List Stmt) (blocks : List OpenBlock) :
    State.run? ⟨.operand head [] {} [], done, blocks⟩ (ts ++ ⟨.symbol .semicolon, d⟩ :: rest) =
      State.run? ⟨.statement, head.finish x d.stop :: done, blocks⟩ rest := by
  obtain ⟨chain, last, hrun, hx⟩ := h.runs head done blocks []
  rw [State.run?_append, hrun, ← hx]
  rfl

/-- Statements are read from any state in which one can start. -/
theorem ListReads.run {ts : List Token} {l : List Stmt} (h : ListReads ts l) (done : List Stmt)
    (blocks : List OpenBlock) :
    State.run? ⟨.statement, done, blocks⟩ ts = some ⟨.statement, l.reverse ++ done, blocks⟩ := by
  induction h generalizing done blocks with
  | nil => rfl
  | @bind ts rest x l name a b c d hx _ ih =>
    have hrun := hx.run_semicolon (.bind a.start ⟨name, b⟩) d rest done blocks
    rw [ih] at hrun
    rw [List.reverse_cons, List.append_assoc]
    exact hrun
  | @print ts rest x l a d hx _ ih =>
    have hrun := hx.run_semicolon (.print a.start) d rest done blocks
    rw [ih] at hrun
    rw [List.reverse_cons, List.append_assoc]
    exact hrun
  | @block ts rest body l a d _ _ ihb ih =>
    rw [List.reverse_cons, List.append_assoc, State.run?_cons]
    change State.run? ⟨.statement, [], ⟨a.start, done⟩ :: blocks⟩ _ = _
    rw [State.run?_append, ihb, List.append_nil]
    change State.run? ⟨.statement, .block body.reverse.reverse ⟨a.start, d.stop⟩ :: done, blocks⟩ _
      = _
    rw [List.reverse_reverse]
    exact ih _ blocks
  | @bare ts rest x l d hx hk _ ih =>
    have hrun := hx.run_semicolon .bare d rest done blocks
    rw [ih] at hrun
    rw [List.reverse_cons, List.append_assoc]
    have hne : ts ++ ⟨.symbol .semicolon, d⟩ :: rest ≠ [] := by simp
    exact (hk.append hx.ne_nil _).run? hne hrun

/-! ### Places can be put back -/

section Unmove

variable {m : Relocation}

/-- The first of the tokens, before it was moved. -/
theorem Token.cons_of_move {toks ts : List Token} {l : Lexeme} {s : Span}
    (h : toks.map (Token.move m) = ⟨l, s⟩ :: ts) :
    ∃ s' more, toks = ⟨l, s'⟩ :: more ∧ m.span s' = s ∧ more.map (Token.move m) = ts := by
  obtain ⟨⟨lexeme, s'⟩, more, rfl, hs, hm⟩ := List.map_eq_cons_iff.mp h
  cases hs
  exact ⟨s', more, rfl, rfl, hm⟩

/-- Tokens that can be read after a relocation can be read where they stand. -/
theorem Reads.unmove {level : Level} {ts : List Token} {x : Operand} (h : Reads level ts x)
    {toks : List Token} (ht : toks.map (Token.move m) = ts) :
    ∃ x', Reads level toks x' ∧ x'.move m = x := by
  induction h generalizing toks with
  | number text s =>
    obtain ⟨s', more, rfl, rfl, hm⟩ := Token.cons_of_move ht
    rw [List.map_eq_nil_iff.mp hm]
    exact ⟨_, .number text s', rfl⟩
  | name text s =>
    obtain ⟨s', more, rfl, rfl, hm⟩ := Token.cons_of_move ht
    rw [List.map_eq_nil_iff.mp hm]
    exact ⟨_, .name text s', rfl⟩
  | parens a b _ ih =>
    obtain ⟨a', more, rfl, rfl, hm⟩ := Token.cons_of_move ht
    obtain ⟨inner, last, rfl, hi, hl⟩ := List.map_eq_append_iff.mp hm
    obtain ⟨b', more, rfl, rfl, hn⟩ := Token.cons_of_move hl
    rw [List.map_eq_nil_iff.mp hn]
    obtain ⟨x', hx, rfl⟩ := ih hi
    exact ⟨_, .parens a' b' hx, rfl⟩
  | atom _ ih =>
    obtain ⟨x', hx, hm⟩ := ih ht
    exact ⟨x', .atom hx, hm⟩
  | neg s _ ih =>
    obtain ⟨s', more, rfl, rfl, hm⟩ := Token.cons_of_move ht
    obtain ⟨x', hx, rfl⟩ := ih hm
    exact ⟨_, .neg s' hx, rfl⟩
  | unary _ ih =>
    obtain ⟨x', hx, hm⟩ := ih ht
    exact ⟨x', .unary hx, hm⟩
  | times op s _ _ ihx ihy =>
    obtain ⟨lhs, more, rfl, hl, hm⟩ := List.map_eq_append_iff.mp ht
    obtain ⟨s', rhs, rfl, rfl, hr⟩ := Token.cons_of_move hm
    obtain ⟨x', hx, rfl⟩ := ihx hl
    obtain ⟨y', hy, rfl⟩ := ihy hr
    exact ⟨_, .times op s' hx hy, rfl⟩
  | product _ ih =>
    obtain ⟨x', hx, hm⟩ := ih ht
    exact ⟨x', .product hx, hm⟩
  | plus op s _ _ ihx ihy =>
    obtain ⟨lhs, more, rfl, hl, hm⟩ := List.map_eq_append_iff.mp ht
    obtain ⟨s', rhs, rfl, rfl, hr⟩ := Token.cons_of_move hm
    obtain ⟨x', hx, rfl⟩ := ihx hl
    obtain ⟨y', hy, rfl⟩ := ihy hr
    exact ⟨_, .plus op s' hx hy, rfl⟩

theorem NoKeyword.unmove {toks : List Token} (h : NoKeyword (toks.map (Token.move m))) :
    NoKeyword toks := by
  intro tok htok
  refine h (tok.move m) ?_
  rw [List.head?_map, Option.mem_def.mp htok]
  rfl

/-- An expression, its semicolon and what comes after them, before they were moved. -/
theorem Reads.unmove_semicolon {ts rest : List Token} {x : Operand} {d : Span}
    (h : Reads .sum ts x) {toks : List Token}
    (ht : toks.map (Token.move m) = ts ++ ⟨.symbol .semicolon, d⟩ :: rest) :
    ∃ us more x' d', toks = us ++ ⟨.symbol .semicolon, d'⟩ :: more ∧
      us.map (Token.move m) = ts ∧ more.map (Token.move m) = rest ∧ Reads .sum us x' ∧
      x'.move m = x ∧ m.span d' = d := by
  obtain ⟨us, more, rfl, hu, hm⟩ := List.map_eq_append_iff.mp ht
  obtain ⟨d', more, rfl, hd, hm⟩ := Token.cons_of_move hm
  obtain ⟨x', hx, hxm⟩ := h.unmove hu
  exact ⟨us, more, x', d', rfl, hu, hm, hx, hxm, hd⟩

/-- Statements that can be read after a relocation can be read where they stand. -/
theorem ListReads.unmove {ts : List Token} {l : List Stmt} (h : ListReads ts l)
    {toks : List Token} (ht : toks.map (Token.move m) = ts) :
    ∃ l', ListReads toks l' ∧ Stmt.mapSpansList m.span l' = l := by
  induction h generalizing toks with
  | nil =>
    rw [List.map_eq_nil_iff.mp ht]
    exact ⟨[], .nil, rfl⟩
  | bind name a b c d hx _ ih =>
    obtain ⟨a', more₁, rfl, rfl, hm₁⟩ := Token.cons_of_move ht
    obtain ⟨b', more₂, rfl, rfl, hm₂⟩ := Token.cons_of_move hm₁
    obtain ⟨c', more₃, rfl, rfl, hm₃⟩ := Token.cons_of_move hm₂
    obtain ⟨us, more, x', d', rfl, -, hr, hx', rfl, rfl⟩ := hx.unmove_semicolon hm₃
    obtain ⟨l', hl, rfl⟩ := ih hr
    exact ⟨_, .bind name a' b' c' d' hx' hl, rfl⟩
  | print a d hx _ ih =>
    obtain ⟨a', more₁, rfl, rfl, hm₁⟩ := Token.cons_of_move ht
    obtain ⟨us, more, x', d', rfl, -, hr, hx', rfl, rfl⟩ := hx.unmove_semicolon hm₁
    obtain ⟨l', hl, rfl⟩ := ih hr
    exact ⟨_, .print a' d' hx' hl, rfl⟩
  | block a d _ _ ihb ih =>
    obtain ⟨a', more₁, rfl, rfl, hm₁⟩ := Token.cons_of_move ht
    obtain ⟨us, more₂, rfl, hu, hm₂⟩ := List.map_eq_append_iff.mp hm₁
    obtain ⟨d', more, rfl, rfl, hr⟩ := Token.cons_of_move hm₂
    obtain ⟨body', hb, rfl⟩ := ihb hu
    obtain ⟨l', hl, rfl⟩ := ih hr
    exact ⟨_, .block a' d' hb hl, rfl⟩
  | bare d hx hk _ ih =>
    obtain ⟨us, more, x', d', rfl, rfl, hr, hx', rfl, rfl⟩ := hx.unmove_semicolon ht
    obtain ⟨l', hl, rfl⟩ := ih hr
    exact ⟨_, .bare d' hx' hk.unmove hl, rfl⟩

end Unmove

end NumCheck.Parser
