import NumCheck.Proofs.Parsing
import NumCheck.Proofs.Scanning

/-!
# The text of a node

A node spans the text that it was read from, from its first to its last token. So its text alone
gives the node again: a statement as the only one of a program, and an expression between `print`
and a semicolon. Only the places differ, by as much as the text has moved.

The tokens of a node stand together among the tokens of the source, and what they make does not
depend on what is around them. That they are also the tokens of the slice is because a source can
be cut before and after each token.

An expression is read after `print`, since by itself it is no program, and without the parentheses
around it, which its span does not include.
-/

namespace NumCheck

/-! ### Nodes -/

/-- An expression and all expressions inside of it. -/
def Expr.nodes : Expr → List Expr
  | .prefixed op operand span => .prefixed op operand span :: operand.nodes
  | .binary op lhs rhs span => .binary op lhs rhs span :: (lhs.nodes ++ rhs.nodes)
  | e => [e]

mutual
/-- A statement and all statements inside of it. -/
def Stmt.nodes : Stmt → List Stmt
  | .block statements span => .block statements span :: Stmt.nodesList statements
  | s => [s]
/-- Statements and all statements inside of them. -/
def Stmt.nodesList : List Stmt → List Stmt
  | [] => []
  | s :: rest => s.nodes ++ Stmt.nodesList rest
end

mutual
/-- All expressions inside of a statement. -/
def Stmt.exprNodes : Stmt → List Expr
  | .expr e _ | .bind _ e _ | .print e _ => e.nodes
  | .block statements _ => Stmt.exprNodesList statements
  | .stray _ => []
/-- All expressions inside of statements. -/
def Stmt.exprNodesList : List Stmt → List Expr
  | [] => []
  | s :: rest => s.exprNodes ++ Stmt.exprNodesList rest
end

/-- All statements of a program, in blocks too. -/
def Program.stmtNodes (p : Program) : List Stmt := Stmt.nodesList p.statements

/-- All expressions of a program, at any depth. -/
def Program.exprNodes (p : Program) : List Expr := Stmt.exprNodesList p.statements

theorem Expr.mapSpans_mapSpans (f g : Span → Span) (e : Expr) :
    (e.mapSpans f).mapSpans g = e.mapSpans (g ∘ f) := by
  induction e with
  | var name span => rfl
  | literal value span => rfl
  | prefixed op operand span ih =>
    rw [mapSpans, mapSpans, ih]
    rfl
  | binary op lhs rhs span ihl ihr =>
    rw [mapSpans, mapSpans, ihl, ihr]
    rfl
  | stray kind => rfl

theorem Span.shift_comm (j k : Nat) :
    Span.shift j ∘ Span.shift k = Span.shift k ∘ Span.shift j := by
  funext s
  simp [Span.shift, Nat.add_right_comm]

theorem Expr.depth_le_of_mem_nodes {part e : Expr} (h : part ∈ e.nodes) : part.depth ≤ e.depth := by
  induction e with
  | prefixed op operand span ih =>
    rcases List.mem_cons.mp h with rfl | h
    · exact Nat.le_refl _
    · exact Nat.le_succ_of_le (ih h)
  | binary op lhs rhs span ihl ihr =>
    rcases List.mem_cons.mp h with rfl | h
    · exact Nat.le_refl _
    · rw [Expr.depth]
      rcases List.mem_append.mp h with h | h
      · have := ihl h
        omega
      · have := ihr h
        omega
  | _ => exact Nat.le_of_eq (congrArg Expr.depth (List.mem_singleton.mp h))

mutual
theorem Stmt.depth_le_of_mem_nodes {part : Stmt} : ∀ {s : Stmt}, part ∈ s.nodes →
    part.depth ≤ s.depth
  | .block statements span, h => by
    rcases List.mem_cons.mp h with rfl | h
    · exact Nat.le_refl _
    · exact Nat.le_succ_of_le (Stmt.depth_le_of_mem_nodesList h)
  | .expr .., h | .bind .., h | .print .., h | .stray .., h =>
    Nat.le_of_eq (congrArg Stmt.depth (List.mem_singleton.mp h))
theorem Stmt.depth_le_of_mem_nodesList {part : Stmt} : ∀ {l : List Stmt}, part ∈ Stmt.nodesList l →
    part.depth ≤ Stmt.depthList l
  | s :: rest, h => by
    rcases List.mem_append.mp h with h | h
    · exact Nat.le_trans (Stmt.depth_le_of_mem_nodes h) (Nat.le_max_left _ _)
    · exact Nat.le_trans (Stmt.depth_le_of_mem_nodesList h) (Nat.le_max_right _ _)
end

mutual
theorem Stmt.depth_le_of_mem_exprNodes {part : Expr} : ∀ {s : Stmt}, part ∈ s.exprNodes →
    part.depth ≤ s.depth
  | .expr .., h | .bind .., h | .print .., h => Expr.depth_le_of_mem_nodes h
  | .block .., h => Nat.le_succ_of_le (Stmt.depth_le_of_mem_exprNodesList h)
theorem Stmt.depth_le_of_mem_exprNodesList {part : Expr} : ∀ {l : List Stmt},
    part ∈ Stmt.exprNodesList l → part.depth ≤ Stmt.depthList l
  | s :: rest, h => by
    rcases List.mem_append.mp h with h | h
    · exact Nat.le_trans (Stmt.depth_le_of_mem_exprNodes h) (Nat.le_max_left _ _)
    · exact Nat.le_trans (Stmt.depth_le_of_mem_exprNodesList h) (Nat.le_max_right _ _)
end

/-! ### The tokens of a node -/

namespace Parser

/-- Some of the tokens stand together and have the property `P`. -/
def Among (P : List Token → Prop) (ts : List Token) : Prop := ∃ us, us <:+: ts ∧ P us

theorem Among.self {P : List Token → Prop} {ts : List Token} (h : P ts) : Among P ts :=
  ⟨ts, List.infix_rfl, h⟩

theorem Among.cons {P : List Token → Prop} {ts : List Token} (h : Among P ts) (tok : Token) :
    Among P (tok :: ts) := by
  obtain ⟨us, hus, hp⟩ := h
  exact ⟨us, List.infix_cons hus, hp⟩

theorem Among.left {P : List Token → Prop} {ts : List Token} (h : Among P ts) (rest : List Token) :
    Among P (ts ++ rest) := by
  obtain ⟨us, hus, hp⟩ := h
  exact ⟨us, hus.trans (List.prefix_append ts rest).isInfix, hp⟩

theorem Among.right {P : List Token → Prop} {ts : List Token} (h : Among P ts)
    (before : List Token) : Among P (before ++ ts) := by
  obtain ⟨us, hus, hp⟩ := h
  exact ⟨us, hus.trans (List.suffix_append before ts).isInfix, hp⟩

/-- Each part of an expression has tokens of its own, without the parentheses around it. -/
theorem Reads.node {level : Level} {ts : List Token} {x : Operand} (h : Reads level ts x)
    {e : Expr} (he : e ∈ x.expr.nodes) : Among (Reads .sum · ⟨e, e.span⟩) ts := by
  induction h with
  | number text s =>
    rw [List.mem_singleton.mp he]
    exact .self ((Reads.number text s).loosen (Nat.zero_le _))
  | name text s =>
    rw [List.mem_singleton.mp he]
    exact .self ((Reads.name text s).loosen (Nat.zero_le _))
  | parens a b _ ih => exact ((ih he).left _).cons _
  | atom _ ih => exact ih he
  | neg s hx ih =>
    rcases List.mem_cons.mp he with rfl | he
    · exact .self ((Reads.neg s hx).loosen (Nat.zero_le _))
    · exact (ih he).cons _
  | unary _ ih => exact ih he
  | times op s hx hy ihx ihy =>
    rcases List.mem_cons.mp he with rfl | he
    · exact .self (.product (.times op s hx hy))
    · rcases List.mem_append.mp he with he | he
      · exact (ihx he).left _
      · exact ((ihy he).cons _).right _
  | product _ ih => exact ih he
  | plus op s hx hy ihx ihy =>
    rcases List.mem_cons.mp he with rfl | he
    · exact .self (.plus op s hx hy)
    · rcases List.mem_append.mp he with he | he
      · exact (ihx he).left _
      · exact ((ihy he).cons _).right _

theorem ListReads.among {ts : List Token} {s : Stmt} (h : ListReads ts [s]) (rest : List Token) :
    Among (ListReads · [s]) (ts ++ rest) :=
  ⟨ts, (List.prefix_append ts rest).isInfix, h⟩

/-- Each statement has tokens of its own. -/
theorem ListReads.node {ts : List Token} {l : List Stmt} (h : ListReads ts l) {s : Stmt}
    (hs : s ∈ Stmt.nodesList l) : Among (ListReads · [s]) ts := by
  induction h with
  | nil => cases hs
  | @bind ts rest x l name a b c d hx _ ih =>
    rcases List.mem_cons.mp hs with rfl | hs
    · simpa using (ListReads.bind name a b c d hx .nil).among rest
    · exact ((((ih hs).cons _).right ts).cons _).cons _ |>.cons _
  | @print ts rest x l a d hx _ ih =>
    rcases List.mem_cons.mp hs with rfl | hs
    · simpa using (ListReads.print a d hx .nil).among rest
    · exact (((ih hs).cons _).right ts).cons _
  | @block ts rest body l a d hb _ ihb ih =>
    rcases List.mem_cons.mp hs with rfl | hs
    · simpa using (ListReads.block a d hb .nil).among rest
    · rcases List.mem_append.mp hs with hs | hs
      · exact ((ihb hs).left _).cons _
      · exact (((ih hs).cons _).right ts).cons _
  | @bare ts rest x l d hx hk _ ih =>
    rcases List.mem_cons.mp hs with rfl | hs
    · simpa using (ListReads.bare d hx hk .nil).among rest
    · exact ((ih hs).cons _).right ts

/-- Each expression in a statement has tokens of its own. -/
theorem ListReads.exprNode {ts : List Token} {l : List Stmt} (h : ListReads ts l) {e : Expr}
    (he : e ∈ Stmt.exprNodesList l) : Among (Reads .sum · ⟨e, e.span⟩) ts := by
  induction h with
  | nil => cases he
  | @bind ts rest x l name a b c d hx _ ih =>
    rcases List.mem_append.mp he with he | he
    · exact (((hx.node he).left _).cons _).cons _ |>.cons _
    · exact ((((ih he).cons _).right ts).cons _).cons _ |>.cons _
  | @print ts rest x l a d hx _ ih =>
    rcases List.mem_append.mp he with he | he
    · exact ((hx.node he).left _).cons _
    · exact (((ih he).cons _).right ts).cons _
  | @block ts rest body l a d hb _ ihb ih =>
    rcases List.mem_append.mp he with he | he
    · exact ((ihb he).left _).cons _
    · exact (((ih he).cons _).right ts).cons _
  | @bare ts rest x l d hx hk _ ih =>
    rcases List.mem_append.mp he with he | he
    · exact (hx.node he).left _
    · exact ((ih he).cons _).right ts

/-! ### What a node spans -/

/-- The span from the first of the tokens to the last. -/
structure Covers (span : Span) (ts : List Token) (first last : Token) : Prop where
  /-- The first token. -/
  head : ts.head? = some first
  /-- The last token. -/
  getLast : ts.getLast? = some last
  /-- Where the first one starts. -/
  start : span.start = first.span.start
  /-- Where the last one stops. -/
  stop : span.stop = last.span.stop

theorem Covers.infixOp {span span' : Span} {ts us : List Token} {a b c d : Token}
    (h : Covers span ts a b) (h' : Covers span' us c d) (op : Token) :
    Covers ⟨span.start, span'.stop⟩ (ts ++ op :: us) a d := by
  refine ⟨?_, ?_, h.start, h'.stop⟩
  · simp [h.head]
  · simp [h'.getLast, List.getLast?_cons]

theorem Reads.covers {level : Level} {ts : List Token} {x : Operand} (h : Reads level ts x) :
    ∃ first last, Covers x.extent ts first last := by
  induction h with
  | number text s => exact ⟨_, _, rfl, rfl, rfl, rfl⟩
  | name text s => exact ⟨_, _, rfl, rfl, rfl, rfl⟩
  | parens a b _ _ => exact ⟨_, ⟨.symbol .rpar, b⟩, rfl, by simp [List.getLast?_cons], rfl, rfl⟩
  | atom _ ih => exact ih
  | neg s _ ih =>
    obtain ⟨first, last, hc⟩ := ih
    exact ⟨_, last, rfl, by simp [List.getLast?_cons, hc.getLast], rfl, hc.stop⟩
  | unary _ ih => exact ih
  | times op s _ _ ihx ihy =>
    obtain ⟨_, _, hx⟩ := ihx
    obtain ⟨_, _, hy⟩ := ihy
    exact ⟨_, _, hx.infixOp hy _⟩
  | product _ ih => exact ih
  | plus op s _ _ ihx ihy =>
    obtain ⟨_, _, hx⟩ := ihx
    obtain ⟨_, _, hy⟩ := ihy
    exact ⟨_, _, hx.infixOp hy _⟩

theorem ListReads.covers {ts : List Token} {s : Stmt} (h : ListReads ts [s]) :
    ∃ first last, Covers s.span ts first last := by
  cases h with
  | bind name a b c d hx hl =>
    cases hl
    exact ⟨_, ⟨.symbol .semicolon, d⟩, rfl, by simp [List.getLast?_cons], rfl, rfl⟩
  | print a d hx hl =>
    cases hl
    exact ⟨_, ⟨.symbol .semicolon, d⟩, rfl, by simp [List.getLast?_cons], rfl, rfl⟩
  | block a d hb hl =>
    cases hl
    exact ⟨_, ⟨.symbol .rbrace, d⟩, rfl, by simp [List.getLast?_cons], rfl, rfl⟩
  | bare d hx hk hl =>
    cases hl
    obtain ⟨first, last, hc⟩ := hx.covers
    exact ⟨first, ⟨.symbol .semicolon, d⟩, by simp [hc.head], by simp, hc.start, rfl⟩

/-! ### Tokens at another place -/

theorem Reads.move {level : Level} {ts : List Token} {x : Operand} (h : Reads level ts x)
    (m : Relocation) : Reads level (ts.map (Token.move m)) (x.move m) := by
  induction h with
  | number text s => exact .number text (m.span s)
  | name text s => exact .name text (m.span s)
  | parens a b _ ih =>
    rw [List.map_cons, List.map_append]
    exact .parens (m.span a) (m.span b) ih
  | atom _ ih => exact .atom ih
  | neg s _ ih => exact .neg (m.span s) ih
  | unary _ ih => exact .unary ih
  | times op s _ _ ihx ihy =>
    rw [List.map_append]
    exact .times op (m.span s) ihx ihy
  | product _ ih => exact .product ih
  | plus op s _ _ ihx ihy =>
    rw [List.map_append]
    exact .plus op (m.span s) ihx ihy

/-- A point is no token of an expression. -/
theorem Reads.ne_point {level : Level} {ts : List Token} {x : Operand} (h : Reads level ts x) :
    ∀ tok ∈ ts, tok.lexeme ≠ .stray '.' := by
  induction h with
  | number text s => simp
  | name text s => simp
  | parens a b _ ih => simpa [or_imp, forall_and] using ih
  | atom _ ih => exact ih
  | neg s _ ih => simpa using ih
  | unary _ ih => exact ih
  | times op s _ _ ihx ihy => simpa [or_imp, forall_and] using ⟨ihx, ihy⟩
  | product _ ih => exact ih
  | plus op s _ _ ihx ihy => simpa [or_imp, forall_and] using ⟨ihx, ihy⟩

end Parser

/-! ### Slices -/

namespace Grammar

open NumCheck.Parser (Among Covers Reads ListReads)

/-- A token other than a point ends where it does also before another character with which no token
goes on. -/
theorem Stands.cut_before {tok : Token} {pos : Nat} {text : List Char} {c : Char}
    {more rest : List Char} (h : Stands tok pos text c more rest) (ht : tok.lexeme ≠ .stray '.')
    {d : Char} (hd : EndsToken d) (rest' : List Char) :
    Cut (text ++ c :: more) (d :: rest') := by
  have hpoint : c ≠ '.' := by
    rintro rfl
    exact ht (Option.some.inj h.lexeme).symm
  have hhash : c ≠ '#' := by
    rintro rfl
    cases h.lexeme
  have hends : ∀ x ∈ (d :: rest').head?, EndsToken x := by
    rintro x ⟨⟩
    exact hd
  have hchunk := chunk_of_goes (chunk_eq_iff.mp h.isChunk).2.1 hhash hends
  have hc : Cut (c :: (more ++ [])) (d :: rest') := .cons hchunk .nil
  rw [List.append_nil] at hc
  exact (h.cut.next_of_ne hpoint (more ++ d :: rest')).append hc

/-- Tokens that stand together are those of the text that they span. The last of them ends there
also before another character, if it is no point. -/
theorem scanFrom_slice {cs : List Char} {ts : List Token} {span : Span} {first last : Token}
    (h : ts <:+: Token.scanFrom 0 0 cs) (hc : Covers span ts first last) :
    ∃ before text after, cs = before ++ (text ++ after) ∧
      span = ⟨before.length, before.length + text.length⟩ ∧
      Token.scanFrom before.length 0 text = ts ∧
      (last.lexeme ≠ .stray '.' → ∀ d rest, EndsToken d → Cut text (d :: rest)) := by
  obtain ⟨pre, post, hscan⟩ := h
  obtain ⟨us, rfl⟩ := List.head?_eq_some_iff.mp hc.head
  obtain ⟨vs, hvs⟩ := List.getLast?_eq_some_iff.mp hc.getLast
  -- the text starts with the first token
  have hfirst : Token.scanFrom 0 0 cs = pre ++ first :: (us ++ post) := by
    rw [← hscan, List.append_assoc, List.cons_append]
  obtain ⟨before, c, more, rest, rfl, hst, rfl, -⟩ := scanFrom_eq_append_cons hfirst
  have hrest := hst.cut.scanFrom 0
  rw [hfirst, List.append_cancel_left_eq, Nat.zero_add] at hrest
  -- and ends with the last one
  have hlast : Token.scanFrom before.length 0 (c :: (more ++ rest)) = vs ++ last :: post := by
    rw [← hrest, ← List.cons_append, hvs, List.append_assoc, List.singleton_append]
  obtain ⟨text, c', more', after, hcs, hst', -, hpost⟩ := scanFrom_eq_append_cons hlast
  have hlen : (text ++ c' :: more').length = text.length + (more'.length + 1) := by simp
  refine ⟨before, text ++ c' :: more', after, by simp [hcs], ?_, ?_,
    fun hpoint d rest' hd => hst'.cut_before hpoint hd rest'⟩
  · obtain ⟨start, stop⟩ := span
    have hstart := hc.start
    have hstop := hc.stop
    rw [hst.span] at hstart
    rw [hst'.span] at hstop
    simp only [Span.mk.injEq, hlen] at hstart hstop ⊢
    omega
  · have hcut := hst'.cut_after.scanFrom before.length
    have htext : text ++ c' :: more' ++ after = c :: (more ++ rest) := by simp [hcs]
    rw [htext, hlast, List.append_cons, ← hvs, hlen, ← Nat.add_assoc, ← hpost,
      List.append_cancel_right_eq] at hcut
    exact hcut.symm

/-- The text of a statement is read as this statement. -/
theorem listReads_slice {source : String} {s : Stmt}
    (h : Among (ListReads · [s]) (Token.scan source)) :
    ∃ s', ListReads (Token.scan (s.span.text source)) [s'] ∧
      s'.mapSpans (Span.shift s.span.start) = s := by
  obtain ⟨ts, hts, hr⟩ := h
  obtain ⟨first, last, hc⟩ := hr.covers
  obtain ⟨before, text, after, hcs, hspan, hscan, -⟩ := scanFrom_slice hts hc
  rw [hspan, text_slice before text after source hcs]
  have hshift := scanFrom_shift before.length 0 0 text
  rw [Nat.zero_add, hscan] at hshift
  obtain ⟨l, hl, hspans⟩ := hr.unmove hshift.symm
  rw [Stmt.mapSpansList_eq_map, List.map_eq_singleton_iff] at hspans
  obtain ⟨s', rfl, hs'⟩ := hspans
  refine ⟨s', ?_, hs'⟩
  rwa [Token.scan, String.toList_ofList]

/-- The tokens of `print e;`, where those of `e` have moved to the right. -/
theorem scan_print {text : List Char} (h : Cut text [';']) :
    Token.scan ("print " ++ String.ofList text ++ ";") =
      ⟨.word "print", ⟨0, 5⟩⟩ :: ((Token.scanFrom 0 0 text).map (Token.move (.shift 6)) ++
        [⟨.symbol .semicolon, ⟨text.length + 6, text.length + 7⟩⟩]) := by
  have hchars : ("print " ++ String.ofList text ++ ";").toList =
      ['p', 'r', 'i', 'n', 't'] ++ ' ' :: (text ++ [';']) := by simp
  have hblank : ∀ d ∈ (' ' :: (text ++ [';'])).head?, EndsToken d := by
    rintro d ⟨⟩
    exact ⟨rfl, by decide⟩
  have hprint := Spells.printWord.scanFrom hblank 0
  have hshift := scanFrom_shift 6 0 0 text
  have hrest := h.scanFrom 6
  rw [Nat.add_comm 6] at hrest
  rw [Token.scan, hchars, hprint, ← hshift]
  exact congrArg (_ :: ·) hrest

/-- The text of an expression is read as this expression after `print`. -/
theorem reads_slice {source : String} {e : Expr}
    (h : Among (Reads .sum · ⟨e, e.span⟩) (Token.scan source)) :
    let text := "print " ++ e.span.text source ++ ";"
    ∃ e', ListReads (Token.scan text) [.print e' ⟨0, text.length⟩] ∧
      e'.mapSpans (Span.shift e.span.start) = e.mapSpans (Span.shift 6) := by
  obtain ⟨ts, hts, hr⟩ := h
  obtain ⟨first, last, hc⟩ := hr.covers
  obtain ⟨before, text, after, hcs, hspan, hscan, hcut⟩ := scanFrom_slice hts hc
  have hlast := hr.ne_point last (List.mem_of_getLast? hc.getLast)
  have hshift := scanFrom_shift before.length 0 0 text
  rw [Nat.zero_add, hscan] at hshift
  obtain ⟨x, hx, hxe⟩ := hr.unmove hshift.symm
  have hexpr : x.expr.mapSpans (Span.shift before.length) = e := congrArg Parser.Operand.expr hxe
  have hlen : ("print " ++ String.ofList text ++ ";").length = text.length + 7 := by
    rw [String.length_append, String.length_append, show "print ".length = 6 from rfl,
      show ";".length = 1 from rfl, String.length_ofList]
    omega
  dsimp only at hspan ⊢
  rw [hspan, text_slice before text after source hcs,
    scan_print (hcut hlast ';' [] ⟨rfl, by decide⟩), hlen]
  refine ⟨x.expr.mapSpans (Span.shift 6), ?_, ?_⟩
  · exact .print ⟨0, 5⟩ ⟨text.length + 6, text.length + 7⟩ (hx.move (.shift 6)) .nil
  · rw [Expr.mapSpans_mapSpans, Span.shift_comm, ← Expr.mapSpans_mapSpans, hexpr]

/-- **The text of a node gives the node again.** A statement is read as the only one of a program,
an expression after `print`; all places are then counted from the start of the text. -/
theorem parse_slices {source : String} {p : Program} (h : Program.parse source = .ok p) :
    (∀ s ∈ p.stmtNodes,
      let text := s.span.text source
      ∃ s', Program.parse text = .ok ⟨[s'], ⟨0, text.length⟩⟩ ∧
        s'.mapSpans (Span.shift s.span.start) = s) ∧
    ∀ e ∈ p.exprNodes,
      let text := "print " ++ e.span.text source ++ ";"
      ∃ e', Program.parse text = .ok ⟨[.print e' ⟨0, text.length⟩], ⟨0, text.length⟩⟩ ∧
        e'.mapSpans (Span.shift e.span.start) = e.mapSpans (Span.shift 6) := by
  obtain ⟨hread, hdepth⟩ := parse_eq_ok_iff.mp h
  have hreads := listReads_of_read hread
  constructor
  · intro s hs text
    obtain ⟨s', hl, hs'⟩ := listReads_slice (hreads.node hs)
    refine ⟨s', parse_of_listReads hl ?_, hs'⟩
    calc Stmt.depthList [s'] = s'.depth := Nat.max_zero _
      _ = s.depth := by rw [← hs', Stmt.depth_mapSpans]
      _ ≤ p.depth := Stmt.depth_le_of_mem_nodesList hs
      _ ≤ nestingLimit := hdepth
  · intro e he text
    obtain ⟨e', hl, he'⟩ := reads_slice (hreads.exprNode he)
    refine ⟨e', parse_of_listReads hl ?_, he'⟩
    calc Stmt.depthList [.print e' ⟨0, text.length⟩] = e'.depth := Nat.max_zero _
      _ = (e'.mapSpans (Span.shift e.span.start)).depth := (Expr.depth_mapSpans _ _).symm
      _ = e.depth := by rw [he', Expr.depth_mapSpans]
      _ ≤ p.depth := Stmt.depth_le_of_mem_exprNodesList he
      _ ≤ nestingLimit := hdepth

/-- Parentheses and comments are part of what is around them. -/
theorem parse_slices_parentheses :
    let source := "let x = (let # x\n) - let;"
    let e : Expr :=
      .binary ⟨"-", ⟨19, 20⟩⟩ (.var ⟨"let", ⟨9, 12⟩⟩ ⟨9, 12⟩)
        (.var ⟨"let", ⟨21, 24⟩⟩ ⟨21, 24⟩) ⟨8, 24⟩
    let p : Program := ⟨[.bind ⟨"x", ⟨4, 5⟩⟩ e ⟨0, 25⟩], ⟨0, 25⟩⟩
    let text := "print (let # x\n) - let;"
    Program.parse source = .ok p ∧ e ∈ p.exprNodes ∧
      "print " ++ e.span.text source ++ ";" = text ∧
      ∃ e', Program.parse text = .ok ⟨[.print e' ⟨0, text.length⟩], ⟨0, text.length⟩⟩ ∧
        e'.mapSpans (Span.shift 8) = e.mapSpans (Span.shift 6) := by
  intro source e p text
  have hparse : Program.parse source = .ok p := by
    refine parse_eq_ok_iff.mpr ⟨?_, by decide⟩
    subst source e p
    rfl
  have hmem : e ∈ p.exprNodes := List.mem_cons_self
  have htext : "print " ++ e.span.text source ++ ";" = text := by decide
  have hslice := (parse_slices hparse).2 e hmem
  rw [htext] at hslice
  exact ⟨hparse, hmem, htext, hslice⟩

end Grammar

end NumCheck
