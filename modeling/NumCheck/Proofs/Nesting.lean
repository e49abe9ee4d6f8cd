import Mathlib.Data.List.Pairwise
import Mathlib.Logic.Relation
import NumCheck.Proofs.Slices

/-!
# The spans of a tree are nested

A node spans the text that it was read from: each part has a place of its own in the span of the
node that it is a part of, and parts follow each other there in the order of the source. What a node
starts and ends with is fixed by its kind.

Nodes of all kinds are put under one roof, with their parts from left to right, so that this has to
be said once only. Then a node is made of a *row*, sound nodes that follow each other from one
offset to another, and it makes a row by itself. Rows can be put behind each other and be given more
room, and the grammar does nothing else with them: an operator stands between two rows, and
parentheses are room around one. This is why the parser keeps two spans for an operand, the one of
its node and the one of its text, with its parentheses.

Only accepted sources have trees, so nothing is said of the others. Semicolons, parentheses and the
words `let` and `print` are part of no node but the one around them, and comments may stand anywhere
in it.
-/

namespace NumCheck

open Relation (ReflTransGen)

/-! ### Spans in spans -/

namespace Span

/-- The span is not empty and lies in another one. -/
structure LiesIn (s outer : Span) : Prop where
  /-- It does not start earlier. -/
  start_le : outer.start ≤ s.start
  /-- It has a character. -/
  start_lt_stop : s.start < s.stop
  /-- It does not stop later. -/
  stop_le : s.stop ≤ outer.stop

/-- The span stops before another one starts, or where it does. -/
def Before (s t : Span) : Prop := s.stop ≤ t.start

/-- A text can be cut. -/
theorem text_append {i j k : Nat} (hij : i ≤ j) (hjk : j ≤ k) (source : String) :
    text ⟨i, k⟩ source = text ⟨i, j⟩ source ++ text ⟨j, k⟩ source := by
  let cs := source.toList.take k
  have hfirst : (source.toList.take j).drop i = (cs.drop i).take (j - i) := by
    rw [← List.drop_take, List.take_take, Nat.min_eq_left hjk]
  have hlast : cs.drop j = (cs.drop i).drop (j - i) := by
    rw [List.drop_drop, Nat.add_sub_cancel' hij]
  calc text ⟨i, k⟩ source = String.ofList (cs.drop i) := rfl
    _ = String.ofList ((cs.drop i).take (j - i) ++ (cs.drop i).drop (j - i)) := by
      rw [List.take_append_drop]
    _ = String.ofList ((source.toList.take j).drop i) ++ String.ofList (cs.drop j) := by
      rw [String.ofList_append, hfirst, hlast]

/-- The text from one span to the end of a later one. -/
theorem text_between {a d : Span} (ha : a.start ≤ a.stop) (had : a.Before d) (hd : d.start ≤ d.stop)
    (source : String) :
    text ⟨a.start, d.stop⟩ source = a.text source ++ text ⟨a.stop, d.start⟩ source ++
      d.text source := by
  have hlast : a.stop ≤ d.stop := Nat.le_trans had hd
  rw [text_append ha hlast, text_append had hd, String.append_assoc]

end Span

/-! ### Nodes and their parts -/

/-- A node of a tree, of any kind. -/
inductive Node where
  /-- A name. -/
  | ident (x : Ident)
  /-- An operator. -/
  | operator (op : Operator)
  /-- An expression. -/
  | expr (e : Expr)
  /-- A statement. -/
  | stmt (s : Stmt)
  /-- A whole source. -/
  | program (p : Program)

namespace Node

/-- The span of a node. -/
def span : Node → Span
  | .ident x => x.span
  | .operator op => op.span
  | .expr e => e.span
  | .stmt s => s.span
  | .program p => p.span

/-- The nodes that a node is made of, from left to right. -/
def parts : Node → List Node
  | .ident _ | .operator _ => []
  | .expr (.var name _) => [.ident name]
  | .expr (.literal ..) | .expr (.stray _) => []
  | .expr (.prefixed op operand _) => [.operator op, .expr operand]
  | .expr (.binary op lhs rhs _) => [.expr lhs, .operator op, .expr rhs]
  | .stmt (.expr e _) | .stmt (.print e _) => [.expr e]
  | .stmt (.bind name value _) => [.ident name, .expr value]
  | .stmt (.block statements _) => statements.map .stmt
  | .stmt (.stray _) => []
  | .program p => p.statements.map .stmt

/-- A node holds itself, its parts, and what these hold. -/
def Holds : Node → Node → Prop := ReflTransGen fun node part => part ∈ node.parts

/-- All that a node holds has the property `P`. -/
def Everywhere (P : Node → Prop) (node : Node) : Prop := ∀ inner, node.Holds inner → P inner

/-- The parts of a node lie in its span, one after the other. -/
structure Nested (node : Node) : Prop where
  /-- Each part lies in it. -/
  inside : ∀ part ∈ node.parts, part.span.LiesIn node.span
  /-- A part stops before the next one starts. -/
  ordered : node.parts.Pairwise fun part next => part.span.Before next.span

/-- What is written where a node stands. A stray node stands nowhere. -/
def Written (source : String) : Node → Prop
  | .ident x => x.span.text source = x.name
  | .operator op => op.span.text source = op.symbol
  | .expr (.var name span) => span = name.span
  | .expr (.literal value span) =>
    Grammar.Numeral (span.text source).toList ∧
      value = Binary64.ofNumeral (span.text source).toList
  | .expr (.prefixed op _ span) => span.start = op.span.start
  | .expr (.binary ..) => True
  | .stmt (.bind _ _ span) => ∃ body, span.text source = "let" ++ body ++ ";"
  | .stmt (.print _ span) => ∃ body, span.text source = "print" ++ body ++ ";"
  | .stmt (.expr _ span) => ∃ body, span.text source = body ++ ";"
  | .stmt (.block _ span) => ∃ body, span.text source = "\x7b" ++ body ++ "\x7d"
  | .program p => p.span.text source = source
  | .expr (.stray _) | .stmt (.stray _) => False

/-- A node is nested and written as its kind says. -/
structure Sound (source : String) (node : Node) : Prop extends Nested node where
  /-- What is written there. -/
  written : node.Written source

variable {P : Node → Prop} {top m n : Node} {source : String}

theorem everywhere_of_parts (h : P n) (hparts : ∀ part ∈ n.parts, part.Everywhere P) :
    n.Everywhere P := by
  intro inner hinner
  rcases hinner.cases_head with rfl | ⟨part, hpart, hrest⟩
  · exact h
  · exact hparts part hpart inner hrest

theorem Everywhere.part (h : top.Everywhere P) (hn : n ∈ top.parts) : n.Everywhere P :=
  fun inner hinner => h inner (.head hn hinner)

/-- What a nested node holds does not reach beyond it. -/
theorem Holds.bounds (h : top.Holds n) (htop : top.Everywhere Nested) :
    top.span.start ≤ n.span.start ∧ n.span.stop ≤ top.span.stop := by
  induction h using ReflTransGen.head_induction_on with
  | refl => exact ⟨Nat.le_refl _, Nat.le_refl _⟩
  | head hpart _ ih =>
    have hin := (htop _ .refl).inside _ hpart
    have hrest := ih (htop.part hpart)
    exact ⟨Nat.le_trans hin.start_le hrest.1, Nat.le_trans hrest.2 hin.stop_le⟩

/-- Different parts of a nested node are apart. -/
theorem Nested.apart (h : top.Nested) (hm : m ∈ top.parts) (hn : n ∈ top.parts) (hne : m ≠ n) :
    m.span.Before n.span ∨ n.span.Before m.span := by
  have hpairs : top.parts.Pairwise fun a b => a.span.Before b.span ∨ b.span.Before a.span :=
    h.ordered.imp Or.inl
  have : Std.Symm fun a b : Node => a.span.Before b.span ∨ b.span.Before a.span :=
    ⟨fun _ _ => Or.symm⟩
  exact hpairs.forall hm hn hne

/-- Of two nodes of a nested tree one holds the other, or their spans are apart. -/
theorem holds_or_apart (htop : top.Everywhere Nested) (hm : top.Holds m) (hn : top.Holds n) :
    m.Holds n ∨ n.Holds m ∨ m.span.Before n.span ∨ n.span.Before m.span := by
  induction hm using ReflTransGen.head_induction_on with
  | refl => exact .inl hn
  | @head top part hpart hrest ih =>
    rcases hn.cases_head with rfl | ⟨other, hother, hrest'⟩
    · exact .inr (.inl (.head hpart hrest))
    by_cases heq : part = other
    · subst heq
      exact ih (htop.part hpart) hrest'
    -- the two are below different parts, and do not reach beyond these
    have hm := Holds.bounds hrest (htop.part hpart)
    have hn := Holds.bounds hrest' (htop.part hother)
    have hapart := (htop _ .refl).apart hpart hother heq
    unfold Span.Before at hapart ⊢
    omega

/-! ### Rows of nodes -/

/-- Sound nodes that follow each other from one offset to another, with or without gaps. -/
inductive Row (source : String) : Nat → List Node → Nat → Prop where
  /-- There is none. -/
  | nil {lo hi : Nat} : lo ≤ hi → Row source lo [] hi
  /-- One more node in front. -/
  | cons {lo hi : Nat} {n : Node} {rest : List Node} : lo ≤ n.span.start →
      n.span.start < n.span.stop → n.Everywhere (Sound source) → Row source n.span.stop rest hi →
        Row source lo (n :: rest) hi

namespace Row

variable {lo lo' mid mid' hi hi' : Nat} {row row' : List Node}

theorem le (h : Row source lo row hi) : lo ≤ hi := by
  induction h with
  | nil hle => exact hle
  | cons hlo hne _ _ ih => omega

theorem lt (h : Row source lo (n :: row) hi) : lo < hi := by
  cases h with
  | cons hlo hne _ hrest =>
    have := hrest.le
    omega

/-- A row can be given more room. -/
theorem widen (h : Row source lo row hi) (hlo : lo' ≤ lo) (hhi : hi ≤ hi') :
    Row source lo' row hi' := by
  induction h generalizing lo' with
  | nil hle => exact .nil (by omega)
  | cons hstart hne hn _ ih => exact .cons (Nat.le_trans hlo hstart) hne hn (ih (Nat.le_refl _) hhi)

/-- A row can be put behind another one. -/
theorem append (h : Row source lo row mid) (hmid : mid ≤ mid') (h' : Row source mid' row' hi) :
    Row source lo (row ++ row') hi := by
  induction h with
  | nil hle => exact h'.widen (Nat.le_trans hle hmid) (Nat.le_refl _)
  | cons hstart hne hn _ ih => exact .cons hstart hne hn (ih hmid)

theorem mem (h : Row source lo row hi) (hn : n ∈ row) :
    lo ≤ n.span.start ∧ n.span.start < n.span.stop ∧ n.span.stop ≤ hi ∧
      n.Everywhere (Sound source) := by
  induction h with
  | nil hle => cases hn
  | cons hstart hne hhead hrest ih =>
    rcases List.mem_cons.mp hn with rfl | hn
    · exact ⟨hstart, hne, hrest.le, hhead⟩
    · have hlater := ih hn
      exact ⟨by omega, hlater.2⟩

theorem pairwise (h : Row source lo row hi) :
    row.Pairwise fun a b => a.span.Before b.span := by
  induction h with
  | nil hle => exact .nil
  | cons _ _ _ hrest ih => exact .cons (fun n hn => (hrest.mem hn).1) ih

/-- A node whose parts make a row in its span is sound, if it is written well. -/
theorem everywhere (h : Row source n.span.start n.parts n.span.stop) (hw : n.Written source) :
    n.Everywhere (Sound source) := by
  refine everywhere_of_parts ⟨⟨?_, h.pairwise⟩, hw⟩ fun part hpart => (h.mem hpart).2.2.2
  intro part hpart
  obtain ⟨hstart, hne, hstop, -⟩ := h.mem hpart
  exact ⟨hstart, hne, hstop⟩

/-- Such a node makes a row of its own. -/
theorem node (n : Node) (h : Row source n.span.start n.parts n.span.stop)
    (hne : n.span.start < n.span.stop) (hw : n.Written source) :
    Row source n.span.start [n] n.span.stop :=
  .cons (Nat.le_refl _) hne (h.everywhere hw) (.nil (Nat.le_refl _))

end Row

end Node

namespace Parser

open Grammar (Numeral)
open Node (Row)

variable {source : String}

/-! ### Tokens in their source -/

/-- Tokens as they stand in a source. -/
structure Laid (source : String) (ts : List Token) : Prop where
  /-- None of them is empty. -/
  start_lt_stop : ∀ tok ∈ ts, tok.span.start < tok.span.stop
  /-- Each has its text where it stands. -/
  text : ∀ tok ∈ ts, tok.span.text source = tok.lexeme.text
  /-- Numerals are those of the grammar. -/
  numeral : ∀ digits s, ⟨.numeral digits, s⟩ ∈ ts → Numeral digits.toList
  /-- They follow each other. -/
  ordered : ts.Pairwise fun a b => a.span.Before b.span

theorem laid_scan (source : String) : Laid source (Token.scan source) where
  start_lt_stop _ htok := (Grammar.scanFrom_bounds htok).2.1
  text _ := Grammar.span_text
  numeral _ _ := Grammar.numeral_of_mem_scan
  ordered := Grammar.scanFrom_pairwise 0 source.toList

namespace Laid

variable {ts us : List Token} {tok : Token}

theorem sublist (h : Laid source ts) (hs : us.Sublist ts) : Laid source us where
  start_lt_stop tok htok := h.start_lt_stop tok (hs.subset htok)
  text tok htok := h.text tok (hs.subset htok)
  numeral digits s htok := h.numeral digits s (hs.subset htok)
  ordered := h.ordered.sublist hs

theorem left (h : Laid source (ts ++ us)) : Laid source ts :=
  h.sublist (List.sublist_append_left ts us)

theorem right (h : Laid source (ts ++ us)) : Laid source us :=
  h.sublist (List.sublist_append_right ts us)

theorem tail (h : Laid source (tok :: us)) : Laid source us :=
  h.sublist (List.sublist_cons_self tok us)

theorem before (h : Laid source (ts ++ us)) :
    ∀ a ∈ ts, ∀ b ∈ us, a.span.Before b.span :=
  (List.pairwise_append.mp h.ordered).2.2

theorem first_before (h : Laid source (tok :: us)) : ∀ b ∈ us, tok.span.Before b.span :=
  (List.pairwise_cons.mp h.ordered).1

/-- The text from the first token to another one. -/
theorem text_from_first {first : Token} (h : Laid source (first :: ts)) (last : Token)
    (hlast : last ∈ ts) :
    ∃ body, Span.text ⟨first.span.start, last.span.stop⟩ source =
      first.lexeme.text ++ body ++ last.lexeme.text := by
  have hfirst : first ∈ first :: ts := List.mem_cons_self
  have hlast' : last ∈ first :: ts := List.mem_cons_of_mem _ hlast
  have hne := Nat.le_of_lt (h.start_lt_stop first hfirst)
  have hne' := Nat.le_of_lt (h.start_lt_stop last hlast')
  refine ⟨Span.text ⟨first.span.stop, last.span.start⟩ source, ?_⟩
  rw [Span.text_between hne (h.first_before last hlast) hne', h.text first hfirst,
    h.text last hlast']

/-- Nodes between the first token and another one, with these at their sides. -/
theorem row_between {first : Token} (h : Laid source (first :: ts)) (last : Token)
    (hlast : last ∈ ts) {row : List Node} {lo : Nat} (hrow : Row source lo row last.span.start)
    (hlo : first.span.stop ≤ lo) : Row source first.span.start row last.span.stop := by
  have hfirst := h.start_lt_stop first List.mem_cons_self
  have hlast := h.start_lt_stop last (List.mem_cons_of_mem _ hlast)
  exact hrow.widen (Nat.le_trans (Nat.le_of_lt hfirst) hlo) (Nat.le_of_lt hlast)

/-- A name among the tokens. -/
theorem row_ident {name : String} {s : Span} (h : Laid source ts) (hmem : ⟨.word name, s⟩ ∈ ts) :
    Row source s.start [.ident ⟨name, s⟩] s.stop := by
  have hne := h.start_lt_stop _ hmem
  exact Row.node (.ident ⟨name, s⟩) (.nil (Nat.le_of_lt hne)) hne (h.text _ hmem)

/-- An operator among the tokens. -/
theorem row_operator {op : Symbol} {text : String} {s : Span} (h : Laid source ts)
    (hmem : ⟨.symbol op, s⟩ ∈ ts) (htext : (Lexeme.symbol op).text = text) :
    Row source s.start [.operator ⟨text, s⟩] s.stop := by
  have hne := h.start_lt_stop _ hmem
  exact Row.node (.operator ⟨text, s⟩) (.nil (Nat.le_of_lt hne)) hne ((h.text _ hmem).trans htext)

end Laid

/-! ### The text of an operand -/

/-- What comes before the tokens of an operand comes before its text. -/
theorem Reads.after {level : Level} {ts : List Token} {x : Operand} (h : Reads level ts x)
    {s : Span} (hs : ∀ tok ∈ ts, s.Before tok.span) : s.Before x.extent := by
  obtain ⟨first, last, hc⟩ := h.covers
  have hfirst := hs first (List.mem_of_head? hc.head)
  rwa [Span.Before, hc.start]

/-- What comes after the tokens of an operand comes after its text. -/
theorem Reads.before {level : Level} {ts : List Token} {x : Operand} (h : Reads level ts x)
    {s : Span} (hs : ∀ tok ∈ ts, tok.span.Before s) : x.extent.Before s := by
  obtain ⟨first, last, hc⟩ := h.covers
  have hlast := hs last (List.mem_of_getLast? hc.getLast)
  rwa [Span.Before, hc.stop]

/-- An operator between two operands. -/
theorem row_infixOp {left right : Level} {ts us : List Token} {x y : Operand} {op : Symbol}
    {s : Span} {text : String} (hx : Reads left ts x) (hy : Reads right us y)
    (hl : Laid source (ts ++ ⟨.symbol op, s⟩ :: us)) (htext : (Lexeme.symbol op).text = text)
    (ihx : Laid source ts → Row source x.extent.start [.expr x.expr] x.extent.stop)
    (ihy : Laid source us → Row source y.extent.start [.expr y.expr] y.extent.stop) :
    let z := y.joinTo (some ⟨x, ⟨text, s⟩⟩)
    Row source z.extent.start [.expr z.expr] z.extent.stop := by
  intro z
  have hop := hl.right.row_operator List.mem_cons_self htext
  have hxs := hx.before fun tok htok => hl.before tok htok _ List.mem_cons_self
  have hsy := hy.after hl.right.first_before
  have hparts := (ihx hl.left).append hxs (hop.append hsy (ihy hl.right.tail))
  exact Row.node (.expr z.expr) hparts hparts.lt trivial

/-- The node of an operand lies in its text. -/
theorem Reads.row {level : Level} {ts : List Token} {x : Operand} (h : Reads level ts x)
    (hl : Laid source ts) : Row source x.extent.start [.expr x.expr] x.extent.stop := by
  induction h with
  | number text s =>
    have hne := hl.start_lt_stop _ (List.mem_singleton_self _)
    have htext : s.text source = text := hl.text _ (List.mem_singleton_self _)
    refine Row.node (.expr (.literal _ s)) (.nil (Nat.le_of_lt hne)) hne ?_
    rw [Node.Written, htext]
    exact ⟨hl.numeral text s (List.mem_singleton_self _), rfl⟩
  | name text s =>
    have hne := hl.start_lt_stop _ (List.mem_singleton_self _)
    have hname := hl.row_ident (List.mem_singleton_self _)
    exact Row.node (.expr (.var ⟨text, s⟩ s)) hname hne rfl
  | @parens ts x a b hx ih =>
    have hax := hx.after fun tok htok => hl.first_before tok (List.mem_append_left _ htok)
    have hxb := hx.before fun tok htok => hl.tail.before tok htok _ (List.mem_singleton_self _)
    have hinner := (ih hl.tail.left).widen (Nat.le_refl _) hxb
    exact hl.row_between ⟨.symbol .rpar, b⟩ (by simp) hinner hax
  | atom _ ih => exact ih hl
  | neg s hx ih =>
    have hop := hl.row_operator List.mem_cons_self rfl
    have hsx := hx.after hl.first_before
    have hparts := hop.append hsx (ih hl.tail)
    exact Row.node (.expr (Operand.signed _ _).expr) hparts hparts.lt rfl
  | unary _ ih => exact ih hl
  | times op s hx hy ihx ihy => exact row_infixOp hx hy hl op.text_symbol ihx ihy
  | product _ ih => exact ih hl
  | plus op s hx hy ihx ihy => exact row_infixOp hx hy hl op.text_symbol ihx ihy

/-! ### Statements -/

/-- The node of an expression lies before the semicolon after it. -/
theorem Reads.row_semicolon {ts rest : List Token} {x : Operand} {d : Span} (h : Reads .sum ts x)
    (hl : Laid source (ts ++ ⟨.symbol .semicolon, d⟩ :: rest)) :
    Row source x.extent.start [.expr x.expr] d.start :=
  (h.row hl.left).widen (Nat.le_refl _)
    (h.before fun tok htok => hl.before tok htok _ List.mem_cons_self)

/-- A statement lies in front of those that are read from the tokens after its last one. -/
theorem row_statement {rest : List Token} {l : List Stmt} {lo hi : Nat} (s : Stmt)
    (first : List Token) {last : Token} (hl : Laid source (first ++ last :: rest))
    (hhi : ∀ tok ∈ first ++ last :: rest, tok.span.stop ≤ hi)
    (hparts : Row source s.span.start (Node.stmt s).parts s.span.stop)
    (hne : s.span.start < s.span.stop) (hw : (Node.stmt s).Written source)
    (hlo : lo ≤ s.span.start) (hstop : s.span.stop = last.span.stop)
    (ih : Laid source rest → ∀ {lo hi : Nat}, lo ≤ hi → (∀ tok ∈ rest, lo ≤ tok.span.start) →
      (∀ tok ∈ rest, tok.span.stop ≤ hi) → Row source lo (l.map .stmt) hi) :
    Row source lo ((s :: l).map .stmt) hi := by
  have hle : last.span.stop ≤ hi := hhi last (List.mem_append_right _ List.mem_cons_self)
  have hrest : ∀ tok ∈ rest, tok.span.stop ≤ hi := fun tok htok =>
    hhi tok (List.mem_append_right _ (List.mem_cons_of_mem _ htok))
  have hs : Row source lo [.stmt s] s.span.stop :=
    (Row.node (.stmt s) hparts hne hw).widen hlo (Nat.le_refl _)
  exact hs.append (Nat.le_of_eq hstop) (ih hl.right.tail hle hl.right.first_before hrest)

/-- Statements lie where their tokens do. -/
theorem ListReads.row {ts : List Token} {l : List Stmt} (h : ListReads ts l) (hl : Laid source ts)
    {lo hi : Nat} (hle : lo ≤ hi) (hlo : ∀ tok ∈ ts, lo ≤ tok.span.start)
    (hhi : ∀ tok ∈ ts, tok.span.stop ≤ hi) : Row source lo (l.map .stmt) hi := by
  induction h generalizing lo hi with
  | nil => exact .nil hle
  | @bind ts rest x l name a b c d hx _ ih =>
    have hab := hl.first_before ⟨.word name, b⟩ List.mem_cons_self
    have hbx := hx.after fun tok htok => hl.tail.first_before tok (by simp [htok])
    have hname := hl.tail.row_ident List.mem_cons_self
    have hinner := hname.append hbx (hx.row_semicolon hl.tail.tail.tail)
    have hparts := hl.row_between ⟨.symbol .semicolon, d⟩ (by simp) hinner hab
    exact row_statement (.bind ⟨name, b⟩ x.expr ⟨a.start, d.stop⟩)
      (⟨.word "let", a⟩ :: ⟨.word name, b⟩ :: ⟨.symbol .equal, c⟩ :: ts) hl hhi hparts hparts.lt
      (hl.text_from_first ⟨.symbol .semicolon, d⟩ (by simp)) (hlo _ List.mem_cons_self) rfl ih
  | @print ts rest x l a d hx _ ih =>
    have hax := hx.after fun tok htok => hl.first_before tok (by simp [htok])
    have hinner := hx.row_semicolon hl.tail
    have hparts := hl.row_between ⟨.symbol .semicolon, d⟩ (by simp) hinner hax
    exact row_statement (.print x.expr ⟨a.start, d.stop⟩) (⟨.word "print", a⟩ :: ts) hl hhi hparts
      hparts.lt (hl.text_from_first ⟨.symbol .semicolon, d⟩ (by simp)) (hlo _ List.mem_cons_self)
      rfl ih
  | @block ts rest body l a d _ _ ihb ih =>
    have had := hl.first_before ⟨.symbol .rbrace, d⟩ (by simp)
    have hinner := ihb hl.tail.left had (fun tok htok => hl.first_before tok (by simp [htok]))
      fun tok htok => hl.tail.before tok htok _ List.mem_cons_self
    have hparts := hl.row_between ⟨.symbol .rbrace, d⟩ (by simp) hinner (Nat.le_refl _)
    -- a block can be empty, so its own tokens have to make it a text
    have hne : a.start < d.stop := by
      have ha := hl.start_lt_stop _ List.mem_cons_self
      have hd := hl.start_lt_stop ⟨.symbol .rbrace, d⟩ (by simp)
      exact Nat.lt_of_lt_of_le ha (Nat.le_trans had (Nat.le_of_lt hd))
    exact row_statement (.block body ⟨a.start, d.stop⟩) (⟨.symbol .lbrace, a⟩ :: ts) hl hhi hparts
      hne (hl.text_from_first ⟨.symbol .rbrace, d⟩ (by simp)) (hlo _ List.mem_cons_self) rfl ih
  | @bare ts rest x l d hx hk _ ih =>
    have hd := hl.start_lt_stop ⟨.symbol .semicolon, d⟩ (by simp)
    have hx' := hx.after (s := ⟨lo, lo⟩) fun tok htok => hlo tok (by simp [htok])
    have hinner := hx.row_semicolon hl
    have hparts := hinner.widen (Nat.le_refl _) (Nat.le_of_lt hd)
    have htext : d.text source = ";" := hl.text ⟨.symbol .semicolon, d⟩ (by simp)
    refine row_statement (.expr x.expr ⟨x.extent.start, d.stop⟩) ts hl hhi hparts hparts.lt
      ⟨Span.text ⟨x.extent.start, d.start⟩ source, ?_⟩ hx' rfl ih
    rw [Span.text_append hinner.le (Nat.le_of_lt hd), htext]

end Parser

namespace Grammar

open NumCheck.Parser (laid_scan)

/-- **The spans of a tree are nested, and nothing is lost.** A program spans its source. In each of
its nodes the parts lie one after the other, none is empty, and what is written there is what the
kind of the node says. So two nodes are apart, or one of them is inside of the other. -/
theorem parse_nested {source : String} {p : Program} (h : Program.parse source = .ok p) :
    p.span = ⟨0, source.length⟩ ∧
    (∀ node, (Node.program p).Holds node → node.Sound source) ∧
    ∀ m n, (Node.program p).Holds m → (Node.program p).Holds n →
      m.Holds n ∨ n.Holds m ∨ m.span.Before n.span ∨ n.span.Before m.span := by
  have hread := (parse_eq_ok_iff.mp h).1
  have hreads := listReads_of_read hread
  have hspan : p.span = ⟨0, source.length⟩ := by
    rw [read_of_listReads hreads] at hread
    rw [← Except.ok.inj hread]
  have hstop : ∀ tok ∈ Token.scan source, tok.span.stop ≤ source.length := by
    intro tok htok
    rw [← String.length_toList, ← Nat.zero_add source.toList.length]
    exact (scanFrom_bounds htok).2.2
  have hrow := hreads.row (laid_scan source) (Nat.zero_le _) (fun tok _ => Nat.zero_le _) hstop
  have hwhole : (Node.program p).Written source := by
    rw [Node.Written, hspan, Span.text, List.drop_zero, ← String.length_toList, List.take_length,
      String.ofList_toList]
  have hsound : (Node.program p).Everywhere (Node.Sound source) := by
    refine Node.Row.everywhere ?_ hwhole
    rw [Node.span, hspan]
    exact hrow
  refine ⟨hspan, hsound, fun m n hm hn => ?_⟩
  exact Node.holds_or_apart (fun node hnode => (hsound node hnode).toNested) hm hn

/-- Parentheses belong to the operator that they stand beside, not to the number in them; a block
with nothing but a comment still has its braces. -/
theorem parse_nested_parentheses :
    let source := "let x = (1) - -y;\x7b # z\n\x7d"
    let one : Expr := .literal (Binary64.ofNumeral ['1']) ⟨9, 10⟩
    let y : Expr := .var ⟨"y", ⟨15, 16⟩⟩ ⟨15, 16⟩
    let e : Expr := .binary ⟨"-", ⟨12, 13⟩⟩ one (.prefixed ⟨"-", ⟨14, 15⟩⟩ y ⟨14, 16⟩) ⟨8, 16⟩
    let p : Program := ⟨[.bind ⟨"x", ⟨4, 5⟩⟩ e ⟨0, 17⟩, .block [] ⟨17, 24⟩], ⟨0, 24⟩⟩
    Program.parse source = .ok p ∧ e.span.text source = "(1) - -y" ∧
      (Node.expr e).Holds (.expr one) ∧ (Node.expr one).Sound source ∧
      (Node.stmt (.block [] ⟨17, 24⟩)).Sound source := by
  intro source one y e p
  have hparse : Program.parse source = .ok p := by
    refine parse_eq_ok_iff.mpr ⟨?_, by decide⟩
    subst source one y e p
    rfl
  have hone : (Node.expr e).Holds (.expr one) := .single List.mem_cons_self
  have hstmt : (Node.program p).Holds (.expr e) :=
    .head List.mem_cons_self (.single (List.mem_cons_of_mem _ List.mem_cons_self))
  have hblock : (Node.program p).Holds (.stmt (.block [] ⟨17, 24⟩)) :=
    .single (List.mem_cons_of_mem _ List.mem_cons_self)
  have hsound := (parse_nested hparse).2.1
  exact ⟨hparse, by decide, hone, hsound _ (hstmt.trans hone), hsound _ hblock⟩

end Grammar

end NumCheck
