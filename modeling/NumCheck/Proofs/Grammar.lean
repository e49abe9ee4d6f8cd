import Mathlib.Data.List.Basic
import NumCheck.Number.Numeral
import NumCheck.Syntax.Basic
import NumCheck.Syntax.Token

/-!
# The grammar and its derivations

    program   := statement*
    statement := LET NAME "=" sum ";" | PRINT sum ";" | block of statements | sum ";"
    sum       := product | sum ("+" | "-") product
    product   := unary | product ("*" | "/") unary
    unary     := atom | "-" unary
    atom      := NUMBER | NAME | "(" sum ")"

A derivation is a tree with one constructor for each alternative of the grammar. It has a
*yield*, the pieces that it derives from left to right, and it stands for a syntax tree, in which
parentheses leave no node. Here syntax trees have no places: all their spans are empty.

## What is proved

The grammar is unambiguous: `yieldAll_injective`. Of two derivations that begin a list of pieces,
each is the other as soon as what comes after them cannot go on with an operator; the two levels
of operators are chains of links of the level below, and one lemma (`chain_determined`) does both.
-/

namespace NumCheck.Grammar

/-- A token as the grammar sees it: keywords and names are different. -/
inductive Piece where
  /-- The keyword `let`. -/
  | letWord
  /-- The keyword `print`. -/
  | printWord
  /-- A name. -/
  | name (text : String)
  /-- A number. -/
  | number (text : String)
  /-- A symbol. -/
  | symbol (s : Symbol)
  deriving DecidableEq, Repr

/-! ### Derivations -/

/-- The operators of a sum. -/
inductive AddOp where
  /-- `+` -/
  | plus
  /-- `-` -/
  | minus
  deriving DecidableEq, Repr

/-- The operators of a product. -/
inductive MulOp where
  /-- `*` -/
  | star
  /-- `/` -/
  | slash
  deriving DecidableEq, Repr

mutual
/-- Derivations of an atom. -/
inductive Atom where
  /-- `NUMBER` -/
  | number (text : String)
  /-- `NAME` -/
  | name (text : String)
  /-- `"(" sum ")"` -/
  | parens (e : Sum)
/-- Derivations of a unary expression. -/
inductive Unary where
  /-- `atom` -/
  | atom (a : Atom)
  /-- `"-" unary` -/
  | neg (operand : Unary)
/-- Derivations of a product. -/
inductive Product where
  /-- `unary` -/
  | unary (u : Unary)
  /-- `product ("*" | "/") unary` -/
  | times (lhs : Product) (op : MulOp) (rhs : Unary)
/-- Derivations of a sum. -/
inductive Sum where
  /-- `product` -/
  | product (p : Product)
  /-- `sum ("+" | "-") product` -/
  | plus (lhs : Sum) (op : AddOp) (rhs : Product)
end

/-- Derivations of a statement. A list of them is a derivation of a program. -/
inductive Statement where
  /-- `LET NAME "=" sum ";"` -/
  | bind (name : String) (value : Sum)
  /-- `PRINT sum ";"` -/
  | print (e : Sum)
  /-- Statements between braces. -/
  | block (body : List Statement)
  /-- `sum ";"` -/
  | bare (e : Sum)

/-! ### Yields -/

/-- The symbol of an operator. -/
def AddOp.symbol : AddOp → Symbol
  | .plus => .plus
  | .minus => .minus

/-- The symbol of an operator. -/
def MulOp.symbol : MulOp → Symbol
  | .star => .star
  | .slash => .slash

/-- The piece of an operator. -/
def AddOp.piece (op : AddOp) : Piece := .symbol op.symbol

/-- The piece of an operator. -/
def MulOp.piece (op : MulOp) : Piece := .symbol op.symbol

mutual
/-- The pieces of an atom. -/
def Atom.yield : Atom → List Piece
  | .number text => [.number text]
  | .name text => [.name text]
  | .parens e => .symbol .lpar :: (e.yield ++ [.symbol .rpar])
/-- The pieces of a unary expression. -/
def Unary.yield : Unary → List Piece
  | .atom a => a.yield
  | .neg operand => .symbol .minus :: operand.yield
/-- The pieces of a product. -/
def Product.yield : Product → List Piece
  | .unary u => u.yield
  | .times lhs op rhs => lhs.yield ++ op.piece :: rhs.yield
/-- The pieces of a sum. -/
def Sum.yield : Sum → List Piece
  | .product p => p.yield
  | .plus lhs op rhs => lhs.yield ++ op.piece :: rhs.yield
end

mutual
/-- The pieces of a statement. -/
def Statement.yield : Statement → List Piece
  | .bind name value =>
    .letWord :: .name name :: .symbol .equal :: (value.yield ++ [.symbol .semicolon])
  | .print e => .printWord :: (e.yield ++ [.symbol .semicolon])
  | .block body => .symbol .lbrace :: (Statement.yieldAll body ++ [.symbol .rbrace])
  | .bare e => e.yield ++ [.symbol .semicolon]
/-- The pieces of statements. -/
def Statement.yieldAll : List Statement → List Piece
  | [] => []
  | s :: rest => s.yield ++ Statement.yieldAll rest
end

/-! ### Syntax trees -/

/-- How an operator is written. -/
def AddOp.text : AddOp → String
  | .plus => "+"
  | .minus => "-"

/-- How an operator is written. -/
def MulOp.text : MulOp → String
  | .star => "*"
  | .slash => "/"

theorem AddOp.text_symbol (op : AddOp) : (Lexeme.symbol op.symbol).text = op.text := by
  cases op <;> rfl

theorem MulOp.text_symbol (op : MulOp) : (Lexeme.symbol op.symbol).text = op.text := by
  cases op <;> rfl

mutual
/-- The syntax tree of an atom. Parentheses leave no node. -/
def Atom.expr : Atom → Expr
  | .number text => .literal (Binary64.ofNumeral text.toList) {}
  | .name text => .var ⟨text, {}⟩ {}
  | .parens e => e.expr
/-- The syntax tree of a unary expression. -/
def Unary.expr : Unary → Expr
  | .atom a => a.expr
  | .neg operand => .prefixed ⟨"-", {}⟩ operand.expr {}
/-- The syntax tree of a product. -/
def Product.expr : Product → Expr
  | .unary u => u.expr
  | .times lhs op rhs => .binary ⟨op.text, {}⟩ lhs.expr rhs.expr {}
/-- The syntax tree of a sum. -/
def Sum.expr : Sum → Expr
  | .product p => p.expr
  | .plus lhs op rhs => .binary ⟨op.text, {}⟩ lhs.expr rhs.expr {}
end

mutual
/-- The syntax tree of a statement. -/
def Statement.stmt : Statement → Stmt
  | .bind name value => .bind ⟨name, {}⟩ value.expr {}
  | .print e => .print e.expr {}
  | .block body => .block (Statement.stmts body) {}
  | .bare e => .expr e.expr {}
/-- The syntax trees of statements. -/
def Statement.stmts : List Statement → List Stmt
  | [] => []
  | s :: rest => s.stmt :: Statement.stmts rest
end

theorem Statement.yieldAll_append (ds es : List Statement) :
    Statement.yieldAll (ds ++ es) = Statement.yieldAll ds ++ Statement.yieldAll es := by
  induction ds with
  | nil => rfl
  | cons d ds ih => rw [List.cons_append, yieldAll, ih, yieldAll, List.append_assoc]

theorem Statement.stmts_append (ds es : List Statement) :
    Statement.stmts (ds ++ es) = Statement.stmts ds ++ Statement.stmts es := by
  induction ds with
  | nil => rfl
  | cons d ds ih => rw [List.cons_append, stmts, ih, stmts, List.cons_append]

/-! ### Chains -/

section Chains

variable {O X : Type} {piece : O → Piece} {yield : X → List Piece} {stop : List Piece → Prop}

/-- No other derivation begins a list of pieces that `x` begins, if what comes after it meets
`stop`. -/
def Determined (yield : X → List Piece) (stop : List Piece → Prop) (x : X) : Prop :=
  ∀ x' r r', stop r → stop r' → yield x ++ r = yield x' ++ r' → x = x' ∧ r = r'

/-- The pieces of the links of a chain after the first one, an operator before each. -/
def linksYield (piece : O → Piece) (yield : X → List Piece) (links : List (O × X)) : List Piece :=
  links.flatMap fun (op, x) => piece op :: yield x

/-- The list does not go on with an operator. -/
def NoOp (piece : O → Piece) (r : List Piece) : Prop := ∀ op t, r ≠ piece op :: t

theorem stop_links (hstop : ∀ op t, stop (piece op :: t)) (links : List (O × X)) {r : List Piece}
    (hr : stop r) : stop (linksYield piece yield links ++ r) := by
  cases links with
  | nil => exact hr
  | cons x links => exact hstop _ _

theorem links_determined (hpiece : Function.Injective piece) (hstop : ∀ op t, stop (piece op :: t))
    {links links' : List (O × X)} (hl : ∀ x ∈ links, Determined yield stop x.2)
    {r r' : List Piece} (hr : stop r) (hr' : stop r') (hn : NoOp piece r) (hn' : NoOp piece r')
    (h : linksYield piece yield links ++ r = linksYield piece yield links' ++ r') :
    links = links' ∧ r = r' := by
  induction links generalizing links' with
  | nil =>
    cases links' with
    | nil => exact ⟨rfl, h⟩
    | cons x links' => exact absurd h (hn _ _)
  | cons x links ih =>
    cases links' with
    | nil => exact absurd h.symm (hn' _ _)
    | cons x' links' =>
      rw [linksYield, linksYield, List.flatMap_cons, List.flatMap_cons, List.append_assoc,
        List.append_assoc, List.cons_append, List.cons_append, List.cons.injEq] at h
      have hx := hl x List.mem_cons_self
      obtain ⟨hxx, hrest⟩ := hx x'.2 _ _ (stop_links hstop links hr)
        (stop_links hstop links' hr') h.2
      obtain ⟨rfl, hrr⟩ := ih (fun y hy => hl y (List.mem_cons_of_mem _ hy)) hrest
      exact ⟨by rw [Prod.ext (hpiece h.1) hxx], hrr⟩

/-- A chain is determined by its pieces if its links are. -/
theorem chain_determined (hpiece : Function.Injective piece) (hstop : ∀ op t, stop (piece op :: t))
    {x x' : X} {links links' : List (O × X)} (hx : Determined yield stop x)
    (hl : ∀ x ∈ links, Determined yield stop x.2) {r r' : List Piece} (hr : stop r) (hr' : stop r')
    (hn : NoOp piece r) (hn' : NoOp piece r')
    (h : yield x ++ (linksYield piece yield links ++ r) =
      yield x' ++ (linksYield piece yield links' ++ r')) :
    x = x' ∧ links = links' ∧ r = r' := by
  obtain ⟨hxx, hrest⟩ := hx x' _ _ (stop_links hstop links hr)
        (stop_links hstop links' hr') h
  exact ⟨hxx, links_determined hpiece hstop hl hr hr' hn hn' hrest⟩

end Chains

/-- The first factor of a product. -/
def Product.first : Product → Unary
  | .unary u => u
  | .times lhs _ _ => lhs.first

/-- The other factors of a product, with their operators. -/
def Product.more : Product → List (MulOp × Unary)
  | .unary _ => []
  | .times lhs op rhs => lhs.more ++ [(op, rhs)]

/-- The first term of a sum. -/
def Sum.first : Sum → Product
  | .product p => p
  | .plus lhs _ _ => lhs.first

/-- The other terms of a sum, with their operators. -/
def Sum.more : Sum → List (AddOp × Product)
  | .product _ => []
  | .plus lhs op rhs => lhs.more ++ [(op, rhs)]

theorem Product.yield_eq : ∀ p : Product,
    p.yield = p.first.yield ++ linksYield MulOp.piece Unary.yield p.more
  | .unary u => by rw [yield, first, more, linksYield, List.flatMap_nil, List.append_nil]
  | .times lhs op rhs => by
    rw [yield, Product.yield_eq lhs, first, more, linksYield, linksYield, List.flatMap_append,
      List.flatMap_singleton, List.append_assoc]

theorem Sum.yield_eq : ∀ s : Sum,
    s.yield = s.first.yield ++ linksYield AddOp.piece Product.yield s.more
  | .product p => by rw [yield, first, more, linksYield, List.flatMap_nil, List.append_nil]
  | .plus lhs op rhs => by
    rw [yield, Sum.yield_eq lhs, first, more, linksYield, linksYield, List.flatMap_append,
      List.flatMap_singleton, List.append_assoc]

/-- Products are read from the left. -/
theorem Product.eq_foldl : ∀ p : Product,
    p = p.more.foldl (fun lhs (op, rhs) => .times lhs op rhs) (.unary p.first)
  | .unary u => rfl
  | .times lhs op rhs => by
    rw [more, first, List.foldl_append, ← Product.eq_foldl lhs]
    rfl

/-- Sums are read from the left. -/
theorem Sum.eq_foldl : ∀ s : Sum,
    s = s.more.foldl (fun lhs (op, rhs) => .plus lhs op rhs) (.product s.first)
  | .product p => rfl
  | .plus lhs op rhs => by
    rw [more, first, List.foldl_append, ← Sum.eq_foldl lhs]
    rfl

/-! ### First pieces -/

/-- The pieces that an expression can begin with. -/
def Piece.StartsOperand : Piece → Prop
  | .name _ | .number _ | .symbol .minus | .symbol .lpar => True
  | _ => False

theorem Atom.yield_head (a : Atom) : ∃ t rest, a.yield = t :: rest ∧ t.StartsOperand := by
  cases a with
  | number text => exact ⟨_, _, rfl, trivial⟩
  | name text => exact ⟨_, _, rfl, trivial⟩
  | parens e => exact ⟨_, _, rfl, trivial⟩

theorem Unary.yield_head (u : Unary) : ∃ t rest, u.yield = t :: rest ∧ t.StartsOperand := by
  cases u with
  | atom a =>
    rw [yield]
    exact a.yield_head
  | neg operand => exact ⟨_, _, rfl, trivial⟩

theorem Product.yield_head (p : Product) : ∃ t rest, p.yield = t :: rest ∧ t.StartsOperand := by
  obtain ⟨t, rest, h, ht⟩ := p.first.yield_head
  exact ⟨t, _, by rw [yield_eq, h, List.cons_append], ht⟩

theorem Sum.yield_head (e : Sum) : ∃ t rest, e.yield = t :: rest ∧ t.StartsOperand := by
  obtain ⟨t, rest, h, ht⟩ := e.first.yield_head
  exact ⟨t, _, by rw [yield_eq, h, List.cons_append], ht⟩

/-! ### Unambiguity -/

theorem MulOp.piece_injective : Function.Injective MulOp.piece := by
  intro x y h
  cases x <;> cases y <;> first | rfl | cases h

theorem AddOp.piece_injective : Function.Injective AddOp.piece := by
  intro x y h
  cases x <;> cases y <;> first | rfl | cases h

theorem noMul_addOp (op : AddOp) (t : List Piece) : NoOp MulOp.piece (op.piece :: t) := by
  intro op' t' h
  cases op <;> cases op' <;> cases h

/-- After a sum comes no operator. -/
def AfterSum (r : List Piece) : Prop := NoOp MulOp.piece r ∧ NoOp AddOp.piece r

theorem afterSum_rpar (t : List Piece) : AfterSum (.symbol .rpar :: t) := by
  constructor <;> intro op t' h <;> cases op <;> cases h

theorem afterSum_semicolon (t : List Piece) : AfterSum (.symbol .semicolon :: t) := by
  constructor <;> intro op t' h <;> cases op <;> cases h

theorem Product.determined_of_parts {p : Product}
    (hf : Determined Unary.yield (fun _ => True) p.first)
    (hm : ∀ x ∈ p.more, Determined Unary.yield (fun _ => True) x.2) :
    Determined Product.yield (NoOp MulOp.piece) p := by
  intro p' r r' hr hr' h
  rw [p.yield_eq, p'.yield_eq, List.append_assoc, List.append_assoc] at h
  obtain ⟨hfirst, hmore, hrest⟩ := chain_determined MulOp.piece_injective (fun _ _ => trivial) hf hm
    trivial trivial hr hr' h
  refine ⟨?_, hrest⟩
  rw [p.eq_foldl, hfirst, hmore, ← p'.eq_foldl]

theorem Sum.determined_of_parts {e : Sum}
    (hf : Determined Product.yield (NoOp MulOp.piece) e.first)
    (hm : ∀ x ∈ e.more, Determined Product.yield (NoOp MulOp.piece) x.2) :
    Determined Sum.yield AfterSum e := by
  intro e' r r' hr hr' h
  rw [e.yield_eq, e'.yield_eq, List.append_assoc, List.append_assoc] at h
  obtain ⟨hfirst, hmore, hrest⟩ := chain_determined AddOp.piece_injective noMul_addOp hf hm
    hr.1 hr'.1 hr.2 hr'.2 h
  refine ⟨?_, hrest⟩
  rw [e.eq_foldl, hfirst, hmore, ← e'.eq_foldl]

mutual
theorem Atom.determined : ∀ a : Atom, Determined Atom.yield (fun _ => True) a
  | .number text => by
    intro a' r r' _ _ h
    cases a' with
    | number text' =>
      cases h
      exact ⟨rfl, rfl⟩
    | name text' => cases h
    | parens e' => cases h
  | .name text => by
    intro a' r r' _ _ h
    cases a' with
    | number text' => cases h
    | name text' =>
      cases h
      exact ⟨rfl, rfl⟩
    | parens e' => cases h
  | .parens e => by
    intro a' r r' _ _ h
    cases a' with
    | number text' => cases h
    | name text' => cases h
    | parens e' =>
      rw [Atom.yield, Atom.yield, List.cons_append, List.cons_append, List.append_assoc,
        List.append_assoc, List.cons.injEq] at h
      have he := Sum.determined_of_parts (Sum.parts_determined e).1 (Sum.parts_determined e).2
      obtain ⟨rfl, hr⟩ := he e' _ _ (afterSum_rpar r) (afterSum_rpar r') h.2
      exact ⟨rfl, (List.cons.inj hr).2⟩
theorem Unary.determined : ∀ u : Unary, Determined Unary.yield (fun _ => True) u
  | .atom a => by
    intro u' r r' _ _ h
    cases u' with
    | atom a' =>
      obtain ⟨rfl, hr⟩ := Atom.determined a a' r r' trivial trivial h
      exact ⟨rfl, hr⟩
    | neg v => cases a <;> cases h
  | .neg u => by
    intro u' r r' _ _ h
    cases u' with
    | atom a' => cases a' <;> cases h
    | neg v =>
      obtain ⟨rfl, hr⟩ := Unary.determined u v r r' trivial trivial (List.cons.inj h).2
      exact ⟨rfl, hr⟩
/-- The factors of a product are determined. -/
theorem Product.parts_determined : ∀ p : Product,
    Determined Unary.yield (fun _ => True) p.first ∧
      ∀ x ∈ p.more, Determined Unary.yield (fun _ => True) x.2
  | .unary u => ⟨Unary.determined u, fun _ hx => nomatch hx⟩
  | .times lhs op rhs => by
    obtain ⟨hf, hm⟩ := Product.parts_determined lhs
    have hrhs := Unary.determined rhs
    refine ⟨hf, fun x hx => ?_⟩
    rcases List.mem_append.mp hx with hx | hx
    · exact hm x hx
    · rw [List.mem_singleton.mp hx]
      exact hrhs
/-- The terms of a sum are determined. -/
theorem Sum.parts_determined : ∀ e : Sum,
    Determined Product.yield (NoOp MulOp.piece) e.first ∧
      ∀ x ∈ e.more, Determined Product.yield (NoOp MulOp.piece) x.2
  | .product p =>
    ⟨Product.determined_of_parts (Product.parts_determined p).1 (Product.parts_determined p).2,
      fun _ hx => nomatch hx⟩
  | .plus lhs op rhs => by
    obtain ⟨hf, hm⟩ := Sum.parts_determined lhs
    have hrhs := Product.determined_of_parts (Product.parts_determined rhs).1
      (Product.parts_determined rhs).2
    refine ⟨hf, fun x hx => ?_⟩
    rcases List.mem_append.mp hx with hx | hx
    · exact hm x hx
    · rw [List.mem_singleton.mp hx]
      exact hrhs
end

theorem Sum.determined (e : Sum) : Determined Sum.yield AfterSum e :=
  Sum.determined_of_parts (Sum.parts_determined e).1 (Sum.parts_determined e).2

/-- An expression and its semicolon are determined. -/
theorem Sum.eq_of_semicolon {e e' : Sum} {r r' : List Piece}
    (h : e.yield ++ [.symbol .semicolon] ++ r = e'.yield ++ [.symbol .semicolon] ++ r') :
    e = e' ∧ r = r' := by
  rw [List.append_assoc, List.append_assoc] at h
  obtain ⟨rfl, hr⟩ := e.determined e' _ _ (afterSum_semicolon r) (afterSum_semicolon r') h
  exact ⟨rfl, (List.cons.inj hr).2⟩

/-- What begins as an expression begins as no other statement. -/
theorem Statement.bare_not_keyword {e : Sum} {t : Piece} {r r' : List Piece}
    (ht : ¬ t.StartsOperand) : (Statement.bare e).yield ++ r ≠ t :: r' := by
  intro h
  obtain ⟨t', rest, he, ht'⟩ := e.yield_head
  rw [yield, he] at h
  exact ht ((List.cons.inj h).1 ▸ ht')

/-- After a list of statements comes the end, or a brace that closes it. -/
def AfterList (r : List Piece) : Prop := r = [] ∨ ∃ t, r = .symbol .rbrace :: t

theorem Statement.not_afterList {s : Statement} {r : List Piece} : ¬ AfterList (s.yield ++ r) := by
  cases s with
  | bind name value => rintro (h | ⟨t, h⟩) <;> cases h
  | print e => rintro (h | ⟨t, h⟩) <;> cases h
  | block body => rintro (h | ⟨t, h⟩) <;> cases h
  | bare e =>
    rintro (h | ⟨t, h⟩)
    · obtain ⟨t, rest, he, -⟩ := e.yield_head
      rw [yield, he] at h
      cases h
    · exact bare_not_keyword id h

mutual
theorem Statement.determined : ∀ s : Statement, Determined Statement.yield (fun _ => True) s
  | .bind name value => by
    intro s' r r' _ _ h
    cases s' with
    | bind name' value' =>
      simp only [Statement.yield, List.cons_append, List.cons.injEq, Piece.name.injEq,
        true_and] at h
      obtain ⟨rfl, h⟩ := h
      obtain ⟨rfl, hr⟩ := Sum.eq_of_semicolon h
      exact ⟨rfl, hr⟩
    | print e' => cases h
    | block body' => cases h
    | bare e' => exact absurd h.symm (Statement.bare_not_keyword id)
  | .print e => by
    intro s' r r' _ _ h
    cases s' with
    | bind name' value' => cases h
    | print e' =>
      obtain ⟨rfl, hr⟩ := Sum.eq_of_semicolon (List.cons.inj h).2
      exact ⟨rfl, hr⟩
    | block body' => cases h
    | bare e' => exact absurd h.symm (Statement.bare_not_keyword id)
  | .block body => by
    intro s' r r' _ _ h
    cases s' with
    | bind name' value' => cases h
    | print e' => cases h
    | block body' =>
      simp only [Statement.yield, List.cons_append, List.append_assoc, List.cons.injEq,
        true_and] at h
      obtain ⟨rfl, hr⟩ := Statement.list_determined body body' _ _ (.inr ⟨_, rfl⟩) (.inr ⟨_, rfl⟩) h
      exact ⟨rfl, (List.cons.inj hr).2⟩
    | bare e' => exact absurd h.symm (Statement.bare_not_keyword id)
  | .bare e => by
    intro s' r r' _ _ h
    cases s' with
    | bind name' value' => exact absurd h (Statement.bare_not_keyword id)
    | print e' => exact absurd h (Statement.bare_not_keyword id)
    | block body' => exact absurd h (Statement.bare_not_keyword id)
    | bare e' =>
      obtain ⟨rfl, hr⟩ := Sum.eq_of_semicolon h
      exact ⟨rfl, hr⟩
theorem Statement.list_determined : ∀ ds : List Statement,
    Determined Statement.yieldAll AfterList ds
  | [] => by
    intro ds' r r' hr _ h
    cases ds' with
    | nil => exact ⟨rfl, h⟩
    | cons s' ds' =>
      rw [Statement.yieldAll, Statement.yieldAll, List.nil_append, List.append_assoc] at h
      exact absurd (h ▸ hr) Statement.not_afterList
  | s :: ds => by
    intro ds' r r' hr hr' h
    cases ds' with
    | nil =>
      rw [Statement.yieldAll, Statement.yieldAll, List.nil_append, List.append_assoc] at h
      exact absurd (h ▸ hr') Statement.not_afterList
    | cons s' ds' =>
      rw [Statement.yieldAll, Statement.yieldAll, List.append_assoc, List.append_assoc] at h
      obtain ⟨rfl, hrest⟩ := Statement.determined s s' _ _ trivial trivial h
      obtain ⟨rfl, hrr⟩ := Statement.list_determined ds ds' r r' hr hr' hrest
      exact ⟨rfl, hrr⟩
end

/-- The grammar is unambiguous: no list of pieces has two derivations. -/
theorem yieldAll_injective : Function.Injective Statement.yieldAll := by
  intro ds ds' h
  exact (Statement.list_determined ds ds' [] [] (.inl rfl) (.inl rfl) (by rw [h])).1

end NumCheck.Grammar
