import NumCheck.Syntax.MapSpans
import NumCheck.Syntax.Parser

/-!
# Moving tokens

The parser never looks at where a token stands: it only copies the bounds of tokens into the
spans of nodes. So moving all tokens moves the tree, and changes nothing else. A *relocation* says
where bounds go, starts and stops apart; moving a text, opening a gap in it and dropping all places
are relocations.

That the tokens of a text do move in such a way when the text is changed is for the scanner to say,
and not said here.
-/

namespace NumCheck

/-- Where the bounds of spans go. -/
structure Relocation where
  /-- Where a start goes. -/
  start : Nat → Nat
  /-- Where a stop goes. -/
  stop : Nat → Nat

/-- Where a span goes. -/
def Relocation.span (m : Relocation) (s : Span) : Span := ⟨m.start s.start, m.stop s.stop⟩

/-- The relocation that drops all places. -/
def Relocation.drop : Relocation := ⟨fun _ => 0, fun _ => 0⟩

theorem Stmt.mapSpansList_eq_map (f : Span → Span) (l : List Stmt) :
    Stmt.mapSpansList f l = l.map (·.mapSpans f) := by
  induction l with
  | nil => rfl
  | cons s l ih => rw [mapSpansList, ih, List.map_cons]

theorem Stmt.mapSpansList_reverse (f : Span → Span) (l : List Stmt) :
    Stmt.mapSpansList f l.reverse = (Stmt.mapSpansList f l).reverse := by
  rw [mapSpansList_eq_map, mapSpansList_eq_map, List.map_reverse]

theorem Expr.depth_mapSpans (f : Span → Span) (e : Expr) : (e.mapSpans f).depth = e.depth := by
  induction e with
  | var name span => rfl
  | literal value span => rfl
  | prefixed op operand span ih => rw [mapSpans, depth, ih, depth]
  | binary op lhs rhs span ihl ihr => rw [mapSpans, depth, ihl, ihr, depth]
  | stray kind => rfl

mutual
theorem Stmt.depth_mapSpans (f : Span → Span) : ∀ s : Stmt, (s.mapSpans f).depth = s.depth
  | .expr e _ => e.depth_mapSpans f
  | .block statements _ => congrArg (· + 1) (Stmt.depthList_mapSpans f statements)
  | .bind _ value _ => value.depth_mapSpans f
  | .print e _ => e.depth_mapSpans f
  | .stray _ => rfl
theorem Stmt.depthList_mapSpans (f : Span → Span) : ∀ l : List Stmt,
    Stmt.depthList (Stmt.mapSpansList f l) = Stmt.depthList l
  | [] => rfl
  | s :: rest => by
    rw [Stmt.mapSpansList, Stmt.depthList, Stmt.depth_mapSpans f s, Stmt.depthList_mapSpans f rest,
      Stmt.depthList]
end

/-- Depth does not depend on places. -/
theorem Program.depth_mapSpans (f : Span → Span) (p : Program) : (p.mapSpans f).depth = p.depth :=
  Stmt.depthList_mapSpans f p.statements

variable (m : Relocation)

/-- The token at its new place. -/
def Token.move (tok : Token) : Token := ⟨tok.lexeme, m.span tok.span⟩

namespace Parser

/-! ### States at a new place -/

/-- The operand at its new place. -/
def Operand.move (x : Operand) : Operand := ⟨x.expr.mapSpans m.span, m.span x.extent⟩

/-- What waits for an operand, at its new place. -/
def Waiting.move (w : Waiting) : Waiting := ⟨w.lhs.move m, w.op.mapSpan m.span⟩

/-- The sum and the product at their new places. -/
def Chain.move (c : Chain) : Chain := ⟨c.sum.map (·.move m), c.product.map (·.move m)⟩

/-- The parenthesis at its new place. -/
def Paren.move (p : Paren) : Paren :=
  ⟨m.start p.start, p.chain.move m, p.signs.map (·.mapSpan m.span)⟩

/-- The head of a statement at its new place. -/
def Head.move : Head → Head
  | .bind start name => .bind (m.start start) (name.mapSpan m.span)
  | .print start => .print (m.start start)
  | .bare => .bare

/-- What is being read, at its new place. -/
def Phase.move : Phase → Phase
  | .statement => .statement
  | .name start => .name (m.start start)
  | .equal start x => .equal (m.start start) (x.mapSpan m.span)
  | .operand head parens chain signs =>
    .operand (head.move m) (parens.map (·.move m)) (chain.move m) (signs.map (·.mapSpan m.span))
  | .operator head parens chain last =>
    .operator (head.move m) (parens.map (·.move m)) (chain.move m) (last.move m)

/-- The open block at its new place. -/
def OpenBlock.move (b : OpenBlock) : OpenBlock :=
  ⟨m.start b.start, Stmt.mapSpansList m.span b.before⟩

/-- The state at its new place. -/
def State.move (st : State) : State :=
  ⟨st.phase.move m, Stmt.mapSpansList m.span st.done, st.blocks.map (·.move m)⟩

/-! ### Steps -/

theorem Operand.joinTo_move (x : Operand) (w : Option Waiting) :
    (x.joinTo w).move m = (x.move m).joinTo (w.map (·.move m)) := by
  cases w <;> rfl

theorem Chain.productWith_move (c : Chain) (x : Operand) :
    (c.productWith x).move m = (c.move m).productWith (x.move m) :=
  x.joinTo_move m c.product

theorem Chain.sumWith_move (c : Chain) (x : Operand) :
    (c.sumWith x).move m = (c.move m).sumWith (x.move m) := by
  rw [sumWith, Operand.joinTo_move, productWith_move]
  rfl

theorem Operand.foldl_signed_move (signs : List Operator) (x : Operand) :
    (signs.foldl signed x).move m = (signs.map (·.mapSpan m.span)).foldl signed (x.move m) := by
  induction signs generalizing x with
  | nil => rfl
  | cons sign signs ih => exact ih (x.signed sign)

theorem afterOperand_move (head : Head) (parens : List Paren) (chain : Chain)
    (signs : List Operator) (x : Operand) :
    (afterOperand head parens chain signs x).move m =
      afterOperand (head.move m) (parens.map (·.move m)) (chain.move m)
        (signs.map (·.mapSpan m.span)) (x.move m) := by
  rw [afterOperand, Phase.move, Operand.foldl_signed_move]
  rfl

theorem operandStep_move (head : Head) (parens : List Paren) (chain : Chain)
    (signs : List Operator) (tok : Token) :
    (operandStep head parens chain signs tok).map (·.move m) =
      operandStep (head.move m) (parens.map (·.move m)) (chain.move m)
        (signs.map (·.mapSpan m.span)) (tok.move m) := by
  obtain ⟨lexeme, span⟩ := tok
  cases lexeme with
  | word text => exact congrArg some (afterOperand_move m ..)
  | numeral text => exact congrArg some (afterOperand_move m ..)
  | symbol s => cases s <;> rfl
  | stray c => rfl

theorem Head.finish_move (head : Head) (x : Operand) (stop : Nat) :
    (head.finish x stop).mapSpans m.span = (head.move m).finish (x.move m) (m.stop stop) := by
  cases head <;> rfl

theorem operatorStep_move (st : State) (head : Head) (parens : List Paren) (chain : Chain)
    (last : Operand) (tok : Token) :
    (operatorStep st head parens chain last tok).map (·.move m) =
      operatorStep (st.move m) (head.move m) (parens.map (·.move m)) (chain.move m) (last.move m)
        (tok.move m) := by
  obtain ⟨lexeme, span⟩ := tok
  cases lexeme with
  | symbol s =>
    cases s with
    | plus | minus | star | slash =>
      simp only [operatorStep, Token.move, Option.map_some, State.move, Phase.move,
        ← Chain.sumWith_move, ← Chain.productWith_move]
      rfl
    | rpar =>
      cases parens with
      | nil => rfl
      | cons paren outer =>
        simp only [operatorStep, Token.move, Option.map_some, State.move, List.map_cons,
          afterOperand_move, ← Chain.sumWith_move]
        rfl
    | semicolon =>
      cases parens with
      | nil =>
        simp only [operatorStep, Token.move, Option.map_some, State.move, List.map_nil,
          Stmt.mapSpansList, Head.finish_move, Chain.sumWith_move]
        rfl
      | cons paren outer => rfl
    | equal | lbrace | rbrace | lpar => rfl
  | word text => rfl
  | numeral text => rfl
  | stray c => rfl

theorem statementStep_move (st : State) (tok : Token) :
    (statementStep st tok).map (·.move m) = statementStep (st.move m) (tok.move m) := by
  obtain ⟨phase, done, blocks⟩ := st
  obtain ⟨lexeme, span⟩ := tok
  cases lexeme with
  | word text =>
    simp only [statementStep, Token.move, Lexeme.word.injEq]
    split
    · rfl
    · split
      · rfl
      · exact congrArg some (congrArg (State.mk · _ _) (afterOperand_move m ..))
  | numeral text => exact congrArg some (congrArg (State.mk · _ _) (afterOperand_move m ..))
  | symbol s =>
    cases s with
    | rbrace =>
      cases blocks with
      | nil => rfl
      | cons block outer =>
        simp only [statementStep, Token.move, Option.map_some, State.move, List.map_cons,
          Stmt.mapSpansList, Stmt.mapSpans, Stmt.mapSpansList_reverse]
        rfl
    | equal | semicolon | lbrace | lpar | rpar | plus | minus | star | slash => rfl
  | stray c => rfl

/-- Reading a moved token in a moved state is reading the token and moving the result. -/
theorem next?_move (st : State) (tok : Token) :
    (st.next? tok).map (·.move m) = (st.move m).next? (tok.move m) := by
  obtain ⟨phase, done, blocks⟩ := st
  cases phase with
  | statement => exact statementStep_move m _ tok
  | name start =>
    obtain ⟨lexeme, span⟩ := tok
    cases lexeme <;> rfl
  | equal start name =>
    obtain ⟨lexeme, span⟩ := tok
    cases lexeme with
    | symbol s => cases s <;> rfl
    | word text => rfl
    | numeral text => rfl
    | stray c => rfl
  | operand head parens chain signs =>
    simp only [State.next?, State.move, Phase.move, ← operandStep_move, Option.map_map]
    rfl
  | operator head parens chain last => exact operatorStep_move m _ head parens chain last tok

/-! ### Runs -/

/-- The state after tokens, if none of them is refused. -/
def State.run? (st : State) (toks : List Token) : Option State := toks.foldlM State.next? st

theorem State.run?_cons (st : State) (tok : Token) (toks : List Token) :
    st.run? (tok :: toks) = (st.next? tok).bind fun st' => st'.run? toks :=
  List.foldlM_cons

theorem State.run?_append (st : State) (toks toks' : List Token) :
    st.run? (toks ++ toks') = (st.run? toks).bind fun st' => st'.run? toks' :=
  List.foldlM_append

theorem State.run_eq_ok_iff (st st' : State) (toks : List Token) :
    st.run toks = .ok st' ↔ st.run? toks = some st' := by
  induction toks generalizing st with
  | nil =>
    rw [run, run?, List.foldlM_nil]
    exact ⟨fun h => congrArg some (Except.ok.inj h),
      fun h => congrArg Except.ok (Option.some.inj h)⟩
  | cons tok toks ih =>
    rw [run, run?_cons, step]
    cases st.next? tok with
    | none => exact ⟨nofun, nofun⟩
    | some st₁ => exact ih st₁

/-- Moving all tokens moves what is read. -/
theorem State.run?_move (st : State) (toks : List Token) :
    (st.run? toks).map (·.move m) = (st.move m).run? (toks.map (·.move m)) := by
  induction toks generalizing st with
  | nil => rfl
  | cons tok toks ih =>
    rw [List.map_cons, run?_cons, run?_cons, ← next?_move]
    cases st.next? tok with
    | none => rfl
    | some st₁ => exact ih st₁

/-! ### Refusals -/

theorem State.keys_move (st : State) : (st.move m).keys = st.keys := by
  obtain ⟨phase, done, blocks⟩ := st
  cases phase with
  | statement => cases done <;> cases blocks <;> rfl
  | _ => rfl

theorem State.settledKeys_move (st : State) : (st.move m).settledKeys = st.settledKeys := by
  obtain ⟨phase, done, blocks⟩ := st
  cases phase with
  | statement => cases blocks <;> rfl
  | operator head parens chain last => cases parens <;> rfl
  | _ => rfl

/-- What could come next does not depend on places. -/
theorem State.expected_move (st : State) (t : Option Terminal) :
    (st.move m).expected t = st.expected t := by
  rw [expected, expected, keys_move, settledKeys_move]

/-- What is refused, at its new place. -/
def Unexpected.move (e : Unexpected) : Unexpected := ⟨e.found.map (·.move m), e.expected⟩

theorem State.refuse_move (st : State) (tok : Token) :
    (st.move m).refuse (tok.move m) = (st.refuse tok).move m := by
  rw [refuse, expected_move]
  rfl

/-- Moving all tokens moves what is read, or the token that is refused. -/
theorem State.run_move (st : State) (toks : List Token) :
    (st.move m).run (toks.map (·.move m)) =
      match st.run toks with
      | .ok st' => .ok (st'.move m)
      | .error e => .error (e.move m) := by
  induction toks generalizing st with
  | nil => rfl
  | cons tok toks ih =>
    rw [List.map_cons, run, run, step, step, ← next?_move, refuse_move]
    cases st.next? tok with
    | none => rfl
    | some st₁ => exact ih st₁

/-- Whether the input can end does not depend on places. -/
theorem State.finish_move (st : State) :
    (st.move m).finish =
      match st.finish with
      | .ok l => .ok (Stmt.mapSpansList m.span l)
      | .error e => .error (e.move m) := by
  have hrefused (st : State) : (⟨none, (st.move m).expected (some .endOfInput)⟩ : Unexpected) =
      Unexpected.move m ⟨none, st.expected (some .endOfInput)⟩ := by
    rw [expected_move]
    rfl
  obtain ⟨phase, done, blocks⟩ := st
  cases phase with
  | statement =>
    cases blocks with
    | nil => exact congrArg Except.ok (Stmt.mapSpansList_reverse m.span done).symm
    | cons block blocks => exact congrArg Except.error (hrefused _)
  | _ => exact congrArg Except.error (hrefused _)

end Parser

end NumCheck
