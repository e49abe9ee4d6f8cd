import NumCheck.Proofs.Parsing.Completeness

/-!
# What is read is derived

Here the parser is followed along its input. At each point the pieces that have been read are the
yields of derivations, which the state holds as finished trees, with pieces that wait between them
(`Represents`). Each step adds one piece at the end, so a run that comes to its end has read the
yield of a derivation.

Words come out as pieces that fit: the phase is that of a statement exactly after the pieces after
which the grammar wants a keyword.
-/

namespace NumCheck.Grammar

open NumCheck.Parser (State Phase Head Paren Chain Waiting Operand OpenBlock)

/-! ### What has been read -/

/-- The pieces of what the next term is added to. -/
inductive SumWaits : Option Waiting → List Piece → Prop where
  /-- Nothing waits. -/
  | none : SumWaits none []
  /-- A sum and its operator. -/
  | some (e : Sum) (op : AddOp) :
      SumWaits (some ⟨operandOf e.expr, ⟨op.text, {}⟩⟩) (e.yield ++ [op.piece])

/-- The pieces of what the next factor is multiplied to. -/
inductive ProductWaits : Option Waiting → List Piece → Prop where
  /-- Nothing waits. -/
  | none : ProductWaits none []
  /-- A product and its operator. -/
  | some (p : Product) (op : MulOp) :
      ProductWaits (some ⟨operandOf p.expr, ⟨op.text, {}⟩⟩) (p.yield ++ [op.piece])

/-- The pieces of a chain. -/
inductive ChainReads : Chain → List Piece → Prop where
  /-- Those of the sum and then those of the product. -/
  | mk {sum product : Option Waiting} {ts us : List Piece} :
      SumWaits sum ts → ProductWaits product us → ChainReads ⟨sum, product⟩ (ts ++ us)

/-- The pieces of signs, of which the nearest is the last one. -/
inductive SignsRead : List Operator → List Piece → Prop where
  /-- There is none. -/
  | nil : SignsRead [] []
  /-- One more sign. -/
  | cons {signs : List Operator} {ts : List Piece} :
      SignsRead signs ts → SignsRead (⟨"-", {}⟩ :: signs) (ts ++ [.symbol .minus])

/-- The pieces of open parentheses. -/
inductive ParensRead : List Paren → List Piece → Prop where
  /-- None is open. -/
  | nil : ParensRead [] []
  /-- One more, with what waits for the operand in it. -/
  | cons {outer : List Paren} {chain : Chain} {signs : List Operator} {ts us vs : List Piece} :
      ParensRead outer ts → ChainReads chain us → SignsRead signs vs →
        ParensRead (⟨0, chain, signs⟩ :: outer) (ts ++ us ++ vs ++ [.symbol .lpar])

/-- The pieces of the head of a statement. -/
inductive HeadReads : Head → List Piece → Prop where
  /-- `let`, a name and `=`. -/
  | bind (name : String) :
      HeadReads (.bind 0 ⟨name, {}⟩) [.letWord, .name name, .symbol .equal]
  /-- `print`. -/
  | print : HeadReads (.print 0) [.printWord]
  /-- There is no keyword. -/
  | bare : HeadReads .bare []

/-- The pieces of a statement that is not finished. -/
inductive PhaseReads : Phase → List Piece → Prop where
  /-- It has not been started. -/
  | statement : PhaseReads .statement []
  /-- `let` -/
  | name : PhaseReads (.name 0) [.letWord]
  /-- `let` and a name. -/
  | equal (name : String) : PhaseReads (.equal 0 ⟨name, {}⟩) [.letWord, .name name]
  /-- An operand is needed. -/
  | operand {head : Head} {parens : List Paren} {chain : Chain} {signs : List Operator}
      {hs ps cs ss : List Piece} : HeadReads head hs → ParensRead parens ps → ChainReads chain cs →
        SignsRead signs ss → PhaseReads (.operand head parens chain signs) (hs ++ ps ++ cs ++ ss)
  /-- An operand has been read. -/
  | operator {head : Head} {parens : List Paren} {chain : Chain} {hs ps cs : List Piece}
      (u : Unary) : HeadReads head hs → ParensRead parens ps → ChainReads chain cs →
        PhaseReads (.operator head parens chain (operandOf u.expr)) (hs ++ ps ++ cs ++ u.yield)

/-- The pieces of open blocks. -/
inductive BlocksRead : List OpenBlock → List Piece → Prop where
  /-- None is open. -/
  | nil : BlocksRead [] []
  /-- One more, after statements of the list around it. -/
  | cons (before : List Statement) {outer : List OpenBlock} {ts : List Piece} :
      BlocksRead outer ts → BlocksRead (⟨0, (Statement.stmts before).reverse⟩ :: outer)
        (ts ++ Statement.yieldAll before ++ [.symbol .lbrace])

/-- The pieces that have been read in a state. -/
inductive Represents : State → List Piece → Prop where
  /-- Open blocks, then finished statements, then one that is not. -/
  | mk {phase : Phase} {blocks : List OpenBlock} {ts us : List Piece} (ds : List Statement) :
      BlocksRead blocks ts → PhaseReads phase us →
        Represents ⟨phase, (Statement.stmts ds).reverse, blocks⟩ (ts ++ Statement.yieldAll ds ++ us)

/-- Signs and a unary expression make a unary expression. -/
theorem SignsRead.foldl_signed {signs : List Operator} {ts : List Piece} (h : SignsRead signs ts)
    (u : Unary) :
    ∃ v : Unary, signs.foldl Operand.signed (operandOf u.expr) = operandOf v.expr ∧
      v.yield = ts ++ u.yield := by
  induction h generalizing u with
  | nil => exact ⟨u, rfl, rfl⟩
  | cons _ ih =>
    obtain ⟨v, hv, hy⟩ := ih (.neg u)
    refine ⟨v, hv, ?_⟩
    rw [hy, Unary.yield, List.append_assoc, List.singleton_append]

theorem ProductWaits.productWith {product : Option Waiting} {ts : List Piece}
    (h : ProductWaits product ts) (sum : Option Waiting) (u : Unary) :
    ∃ p : Product, Chain.productWith ⟨sum, product⟩ (operandOf u.expr) = operandOf p.expr ∧
      p.yield = ts ++ u.yield := by
  cases h with
  | none => exact ⟨.unary u, rfl, rfl⟩
  | some p op =>
    refine ⟨.times p op u, rfl, ?_⟩
    rw [Product.yield, List.append_assoc, List.singleton_append]

/-- A chain and its last factor make a sum. -/
theorem ChainReads.sumWith {chain : Chain} {ts : List Piece} (h : ChainReads chain ts) (u : Unary) :
    ∃ e : Sum, chain.sumWith (operandOf u.expr) = operandOf e.expr ∧ e.yield = ts ++ u.yield := by
  cases h with
  | @mk sum product ts us hs hp =>
    obtain ⟨p, hpw, hpy⟩ := hp.productWith sum u
    cases hs with
    | none =>
      refine ⟨.product p, ?_, hpy⟩
      rw [Chain.sumWith, hpw]
      rfl
    | some e op =>
      refine ⟨.plus e op p, ?_, ?_⟩
      · rw [Chain.sumWith, hpw]
        rfl
      · simp only [Sum.yield, hpy, List.append_assoc, List.cons_append, List.nil_append]

/-! ### Steps keep it -/

theorem Piece.StartsOperand.not_starts {t : Piece} (h : t.StartsOperand) :
    ¬ StatementStarts (some t) := by
  rintro (hs | hs | hs | hs) <;> cases hs <;> exact h

/-- Where an operand is needed, words are names. -/
theorem Piece.StartsOperand.fits {t : Piece} (h : t.StartsOperand) {prev : Option Piece}
    (hw : StatementStarts prev → t.lexeme ≠ .word "let" ∧ t.lexeme ≠ .word "print") :
    Fits prev t := by
  cases t with
  | letWord => exact h.elim
  | printWord => exact h.elim
  | name text =>
    rintro (rfl | rfl) hs
    · exact (hw hs).1 rfl
    · exact (hw hs).2 rfl
  | number text => trivial
  | symbol s => trivial

/-- The phase after an operand. -/
theorem PhaseReads.afterOperand {head : Head} {parens : List Paren} {chain : Chain}
    {signs : List Operator} {hs ps cs ss : List Piece} (hh : HeadReads head hs)
    (hp : ParensRead parens ps) (hc : ChainReads chain cs) (hsg : SignsRead signs ss) (a : Atom) :
    PhaseReads (Parser.afterOperand head parens chain signs (operandOf a.expr))
      (hs ++ ps ++ cs ++ ss ++ a.yield) := by
  obtain ⟨v, hv, hy⟩ := hsg.foldl_signed (.atom a)
  rw [Unary.expr] at hv
  rw [Unary.yield] at hy
  rw [Parser.afterOperand, hv, List.append_assoc, ← hy]
  exact .operator v hh hp hc

/-- The phase after an operator of a sum. -/
theorem PhaseReads.addOp {head : Head} {parens : List Paren} {chain : Chain}
    {hs ps cs : List Piece} (hh : HeadReads head hs) (hp : ParensRead parens ps)
    (hc : ChainReads chain cs) (u : Unary) (op : AddOp) :
    PhaseReads
      (.operand head parens ⟨some ⟨chain.sumWith (operandOf u.expr), ⟨op.text, {}⟩⟩, none⟩ [])
      (hs ++ ps ++ cs ++ u.yield ++ [op.piece]) := by
  obtain ⟨e, he, hy⟩ := hc.sumWith u
  have hr := PhaseReads.operand hh hp (.mk (.some e op) .none) .nil
  rw [he]
  simp only [hy, List.append_assoc, List.append_nil] at hr ⊢
  exact hr

/-- The phase after an operator of a product. -/
theorem PhaseReads.mulOp {head : Head} {parens : List Paren} {chain : Chain}
    {hs ps cs : List Piece} (hh : HeadReads head hs) (hp : ParensRead parens ps)
    (hc : ChainReads chain cs) (u : Unary) (op : MulOp) :
    PhaseReads (.operand head parens
        ⟨chain.sum, some ⟨chain.productWith (operandOf u.expr), ⟨op.text, {}⟩⟩⟩ [])
      (hs ++ ps ++ cs ++ u.yield ++ [op.piece]) := by
  cases hc with
  | @mk sum product us vs hsum hprod =>
    obtain ⟨p, hpw, hy⟩ := hprod.productWith sum u
    have hr := PhaseReads.operand hh hp (.mk hsum (.some p op)) .nil
    rw [hpw]
    simp only [hy, List.append_assoc, List.append_nil] at hr ⊢
    exact hr

/-- A token where an operand is needed. -/
theorem operandStep_reads {head : Head} {parens : List Paren} {chain : Chain}
    {signs : List Operator} {hs ps cs ss : List Piece} (hh : HeadReads head hs)
    (hp : ParensRead parens ps) (hc : ChainReads chain cs) (hsg : SignsRead signs ss) {l : Lexeme}
    {phase : Phase} (h : Parser.operandStep head parens chain signs ⟨l, {}⟩ = some phase) :
    ∃ t : Piece, t.lexeme = l ∧ t.StartsOperand ∧ phase ≠ .statement ∧
      PhaseReads phase (hs ++ ps ++ cs ++ ss ++ [t]) := by
  cases l with
  | word text =>
    cases h
    exact ⟨.name text, rfl, trivial, nofun, .afterOperand hh hp hc hsg (.name text)⟩
  | numeral text =>
    cases h
    exact ⟨.number text, rfl, trivial, nofun, .afterOperand hh hp hc hsg (.number text)⟩
  | symbol s =>
    cases s with
    | minus =>
      cases h
      refine ⟨.symbol .minus, rfl, trivial, nofun, ?_⟩
      rw [List.append_assoc]
      exact .operand hh hp hc (.cons hsg)
    | lpar =>
      cases h
      refine ⟨.symbol .lpar, rfl, trivial, nofun, ?_⟩
      have hr := PhaseReads.operand hh (.cons hp hc hsg) (.mk .none .none) .nil
      simp only [List.append_nil, ← List.append_assoc] at hr ⊢
      exact hr
    | _ => cases h
  | stray c => cases h

/-- The end of a statement. -/
theorem HeadReads.finish {head : Head} {hs : List Piece} (h : HeadReads head hs) (e : Sum) :
    ∃ s : Statement, head.finish (operandOf e.expr) 0 = s.stmt ∧
      s.yield = hs ++ e.yield ++ [.symbol .semicolon] := by
  cases h with
  | bind name => exact ⟨.bind name e, rfl, rfl⟩
  | print => exact ⟨.print e, rfl, rfl⟩
  | bare => exact ⟨.bare e, rfl, rfl⟩

/-- The state with one more finished statement. -/
theorem Represents.finished {blocks : List OpenBlock} {ts : List Piece} (hb : BlocksRead blocks ts)
    (ds : List Statement) (s : Statement) :
    Represents ⟨.statement, s.stmt :: (Statement.stmts ds).reverse, blocks⟩
      (ts ++ Statement.yieldAll ds ++ s.yield) := by
  have hr := Represents.mk (ds ++ [s]) hb .statement
  rw [Statement.stmts_append, List.reverse_append, Statement.yieldAll_append, List.append_nil,
    ← List.append_assoc] at hr
  rw [show s.yield = Statement.yieldAll [s] from (List.append_nil _).symm]
  exact hr

/-- A token after an operand. -/
theorem operatorStep_reads {head : Head} {parens : List Paren} {chain : Chain}
    {blocks : List OpenBlock} {ts hs ps cs : List Piece} (ds : List Statement)
    (hb : BlocksRead blocks ts) (hh : HeadReads head hs) (hp : ParensRead parens ps)
    (hc : ChainReads chain cs) (u : Unary) {phase : Phase} {l : Lexeme} {st' : State}
    (h : Parser.operatorStep ⟨phase, (Statement.stmts ds).reverse, blocks⟩ head parens chain
      (operandOf u.expr) ⟨l, {}⟩ = some st') :
    ∃ s : Symbol, .symbol s = l ∧
      (StatementStarts (some (.symbol s)) ↔ st'.phase = .statement) ∧
      Represents st'
        (ts ++ Statement.yieldAll ds ++ (hs ++ ps ++ cs ++ u.yield ++ [.symbol s])) := by
  obtain ⟨e, he, hey⟩ := hc.sumWith u
  cases l with
  | symbol s =>
    refine ⟨s, rfl, ?_⟩
    cases s with
    | plus =>
      cases h
      exact ⟨by simp [StatementStarts], .mk ds hb (.addOp hh hp hc u .plus)⟩
    | minus =>
      cases h
      exact ⟨by simp [StatementStarts], .mk ds hb (.addOp hh hp hc u .minus)⟩
    | star =>
      cases h
      exact ⟨by simp [StatementStarts], .mk ds hb (.mulOp hh hp hc u .star)⟩
    | slash =>
      cases h
      exact ⟨by simp [StatementStarts], .mk ds hb (.mulOp hh hp hc u .slash)⟩
    | rpar =>
      cases hp with
      | nil => cases h
      | @cons outer chain' signs us vs ws hp' hc' hs' =>
        cases h
        rw [he]
        have hr := Represents.mk ds hb (.afterOperand hh hp' hc' hs' (.parens e))
        simp only [Atom.yield, hey, List.append_assoc, List.cons_append, List.nil_append] at hr ⊢
        exact ⟨by simp [StatementStarts, Parser.afterOperand], hr⟩
    | semicolon =>
      cases hp with
      | nil =>
        cases h
        obtain ⟨s, hst, hsy⟩ := hh.finish e
        rw [he]
        have hr := Represents.finished hb ds s
        rw [hsy, ← hst] at hr
        simp only [hey, List.append_assoc, List.append_nil] at hr ⊢
        exact ⟨by simp [StatementStarts], hr⟩
      | cons hp' hc' hs' => cases h
    | _ => cases h
  | word text => cases h
  | numeral text => cases h
  | stray c => cases h

/-- A token that starts an expression as a statement. -/
theorem bareStep_reads {blocks : List OpenBlock} {ts : List Piece} (ds : List Statement)
    (hb : BlocksRead blocks ts) {prev : Option Piece} {l : Lexeme}
    (hl : l ≠ .word "let" ∧ l ≠ .word "print") {st' : State}
    (h : (Parser.operandStep .bare [] {} [] ⟨l, {}⟩).map
      (State.mk · (Statement.stmts ds).reverse blocks) = some st') :
    ∃ t : Piece, t.lexeme = l ∧ Fits prev t ∧ (StatementStarts (some t) ↔ st'.phase = .statement) ∧
      Represents st' (ts ++ Statement.yieldAll ds ++ [t]) := by
  obtain ⟨phase, hphase, rfl⟩ := Option.map_eq_some_iff.mp h
  obtain ⟨t, rfl, ht, hne, hr⟩ := operandStep_reads .bare .nil (.mk .none .none) .nil hphase
  exact ⟨t, rfl, ht.fits fun _ => hl, iff_of_false ht.not_starts hne, .mk ds hb hr⟩

/-- A token where a statement starts or a list of statements ends. -/
theorem statementStep_reads {blocks : List OpenBlock} {ts : List Piece} (ds : List Statement)
    (hb : BlocksRead blocks ts) {prev : Option Piece} (hprev : StatementStarts prev) {l : Lexeme}
    {st' : State}
    (h : Parser.statementStep ⟨.statement, (Statement.stmts ds).reverse, blocks⟩ ⟨l, {}⟩ =
      some st') :
    ∃ t : Piece, t.lexeme = l ∧ Fits prev t ∧ (StatementStarts (some t) ↔ st'.phase = .statement) ∧
      Represents st' (ts ++ Statement.yieldAll ds ++ [t]) := by
  cases l with
  | word text =>
    by_cases hlet : Lexeme.word text = .word "let"
    · simp only [Parser.statementStep, if_pos hlet] at h
      cases h
      exact ⟨.letWord, hlet.symm, hprev, by simp [StatementStarts], .mk ds hb .name⟩
    · by_cases hprint : Lexeme.word text = .word "print"
      · simp only [Parser.statementStep, if_neg hlet, if_pos hprint] at h
        cases h
        exact ⟨.printWord, hprint.symm, hprev, by simp [StatementStarts],
          .mk ds hb (.operand .print .nil (.mk .none .none) .nil)⟩
      · simp only [Parser.statementStep, if_neg hlet, if_neg hprint] at h
        exact bareStep_reads ds hb ⟨hlet, hprint⟩ h
  | numeral text =>
    exact bareStep_reads (l := .numeral text) ds hb ⟨Lexeme.noConfusion, Lexeme.noConfusion⟩ h
  | symbol s =>
    cases s with
    | lbrace =>
      cases h
      have hr := Represents.mk [] (.cons ds hb) .statement
      rw [Statement.yieldAll, List.append_nil, List.append_nil] at hr
      exact ⟨.symbol .lbrace, rfl, trivial, by simp [StatementStarts], hr⟩
    | rbrace =>
      cases hb with
      | nil => cases h
      | @cons before outer us hb' =>
        cases h
        have hr := Represents.finished hb' before (.block ds)
        simp only [Statement.yield, Statement.stmt, List.append_assoc, List.cons_append,
          List.nil_append, List.reverse_reverse] at hr ⊢
        exact ⟨.symbol .rbrace, rfl, trivial, by simp [StatementStarts], hr⟩
    | minus =>
      exact bareStep_reads (l := .symbol .minus) ds hb ⟨Lexeme.noConfusion, Lexeme.noConfusion⟩ h
    | lpar =>
      exact bareStep_reads (l := .symbol .lpar) ds hb ⟨Lexeme.noConfusion, Lexeme.noConfusion⟩ h
    | _ => cases h
  | stray c => cases h

/-- Each token that is read is one more piece. -/
theorem Represents.next? {st st' : State} {ts : List Piece} (h : Represents st ts)
    {prev : Option Piece} (hprev : StatementStarts prev ↔ st.phase = .statement) {l : Lexeme}
    (hn : st.next? ⟨l, {}⟩ = some st') :
    ∃ t : Piece, t.lexeme = l ∧ Fits prev t ∧ (StatementStarts (some t) ↔ st'.phase = .statement) ∧
      Represents st' (ts ++ [t]) := by
  cases h with
  | @mk phase blocks ts us ds hb hp =>
    suffices hr : ∃ t : Piece, t.lexeme = l ∧ Fits prev t ∧
        (StatementStarts (some t) ↔ st'.phase = .statement) ∧
        Represents st' (ts ++ Statement.yieldAll ds ++ (us ++ [t])) by
      simpa only [List.append_assoc] using hr
    cases hp with
    | statement => exact statementStep_reads ds hb (hprev.mpr rfl) hn
    | name =>
      cases l with
      | word text =>
        cases hn
        refine ⟨.name text, rfl, fun _ hs => (nomatch hprev.mp hs), by simp [StatementStarts], ?_⟩
        exact .mk ds hb (.equal text)
      | _ => cases hn
    | equal name =>
      cases l with
      | symbol s =>
        cases s with
        | equal =>
          cases hn
          refine ⟨.symbol .equal, rfl, trivial, by simp [StatementStarts], ?_⟩
          exact .mk ds hb (.operand (.bind name) .nil (.mk .none .none) .nil)
        | _ => cases hn
      | _ => cases hn
    | operand hh hps hc hs =>
      obtain ⟨phase, hphase, rfl⟩ := Option.map_eq_some_iff.mp hn
      obtain ⟨t, rfl, ht, hne, hr⟩ := operandStep_reads hh hps hc hs hphase
      exact ⟨t, rfl, ht.fits fun hs => (nomatch hprev.mp hs), iff_of_false ht.not_starts hne,
        .mk ds hb hr⟩
    | operator u hh hps hc =>
      obtain ⟨s, rfl, hs, hr⟩ := operatorStep_reads ds hb hh hps hc u hn
      exact ⟨.symbol s, rfl, trivial, hs, hr⟩

/-- What is read in a run are pieces, with their words as keywords where they should be. Another
statement can start after them if the phase says so. -/
theorem run_represents {st st' : State} {ts : List Piece} (h : Represents st ts)
    {prev : Option Piece} (hprev : StatementStarts prev ↔ st.phase = .statement) {ls : List Lexeme}
    (hr : st.run? (ls.map fun l => ⟨l, {}⟩) = some st') :
    ∃ us : List Piece, us.map Piece.lexeme = ls ∧ Keyed prev us ∧
      (StatementStarts (lastPiece prev us) ↔ st'.phase = .statement) ∧
      Represents st' (ts ++ us) := by
  induction ls generalizing st ts prev with
  | nil =>
    cases hr
    exact ⟨[], rfl, trivial, hprev, by rw [List.append_nil]; exact h⟩
  | cons l ls ih =>
    rw [List.map_cons, State.run?_cons] at hr
    obtain ⟨st₁, hn, hrest⟩ := Option.bind_eq_some_iff.mp hr
    obtain ⟨t, rfl, hf, hprev', h'⟩ := h.next? hprev hn
    obtain ⟨us, rfl, hk, hlast, hus⟩ := ih h' hprev' hrest
    exact ⟨t :: us, rfl, ⟨hf, hk⟩, hlast, by rw [List.append_assoc] at hus; exact hus⟩

end NumCheck.Grammar
