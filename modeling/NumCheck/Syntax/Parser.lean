import NumCheck.Diagnostic
import NumCheck.Number.Numeral
import NumCheck.Syntax.Basic
import NumCheck.Syntax.Token

/-!
# The parser

The parser reads a source token by token. Its state holds what has been read and is not
yet finished: the open blocks with their statements, the head of the statement that is
being read, the open parentheses, and at each of them the sum, the product and the signs
that wait for an operand. A token either takes the state to the next one or is refused,
and what could have stood in its place is read off the state.

    program   := statement*
    statement := "let" NAME "=" sum ";" | "print" sum ";" | block of statements | sum ";"
    sum       := product | sum ("+" | "-") product
    product   := unary | product ("*" | "/") unary
    unary     := atom | "-" unary
    atom      := NUMBER | NAME | "(" sum ")"

The words `let` and `print` are keywords at the start of a statement and names everywhere
else. A node spans from its first to its last token. Parentheses belong to the nodes around
them: an operand therefore has an *extent*, which includes its parentheses, beside the span
of its own node.
-/

namespace NumCheck

namespace Parser

/-! ### Expressions in the making -/

/-- An expression, and the text that it takes with its parentheses. -/
structure Operand where
  /-- The expression. -/
  expr : Expr
  /-- Its text. -/
  extent : Span
  deriving DecidableEq, Repr

/-- An operand with the operator after it. -/
structure Waiting where
  /-- The left operand. -/
  lhs : Operand
  /-- The operator that waits for its right operand. -/
  op : Operator
  deriving DecidableEq, Repr

/-- The sum and the product that wait for an operand. -/
structure Chain where
  /-- What the next product is added to. -/
  sum : Option Waiting := none
  /-- What the next factor is multiplied to. -/
  product : Option Waiting := none
  deriving DecidableEq, Repr

/-- An open parenthesis, with what waits for the operand inside of it. -/
structure Paren where
  /-- Where it stands. -/
  start : Nat
  /-- The sum and the product around it. -/
  chain : Chain
  /-- The signs in front of it, the nearest first. -/
  signs : List Operator
  deriving DecidableEq, Repr

/-- Put the operand after the operator that waits for it, if one does. -/
def Operand.joinTo (rhs : Operand) : Option Waiting → Operand
  | none => rhs
  | some ⟨lhs, op⟩ =>
    let span := ⟨lhs.extent.start, rhs.extent.stop⟩
    ⟨.binary op lhs.expr rhs.expr span, span⟩

/-- Put a sign in front of an operand. -/
def Operand.signed (x : Operand) (sign : Operator) : Operand :=
  let span := ⟨sign.span.start, x.extent.stop⟩
  ⟨.prefixed sign x.expr span, span⟩

/-- The product that ends with the factor `x`. -/
def Chain.productWith (chain : Chain) (x : Operand) : Operand := x.joinTo chain.product

/-- The sum that ends with the factor `x`. -/
def Chain.sumWith (chain : Chain) (x : Operand) : Operand :=
  (chain.productWith x).joinTo chain.sum

/-! ### The state -/

/-- How the statement that is being read starts. -/
inductive Head where
  /-- `let name =`, the keyword at `start`. -/
  | bind (start : Nat) (name : Ident)
  /-- `print`, the keyword at `start`. -/
  | print (start : Nat)
  /-- With its expression. -/
  | bare
  deriving DecidableEq, Repr

/-- What is being read. -/
inductive Phase where
  /-- A list of statements: the next token starts a statement or ends the list. -/
  | statement
  /-- A statement, after its keyword `let` at `start`. -/
  | name (start : Nat)
  /-- A statement, after `let` at `start` and its name. -/
  | equal (start : Nat) (name : Ident)
  /-- An expression, where an operand is needed. -/
  | operand (head : Head) (parens : List Paren) (chain : Chain) (signs : List Operator)
  /-- An expression, after an operand. -/
  | operator (head : Head) (parens : List Paren) (chain : Chain) (last : Operand)
  deriving DecidableEq, Repr

/-- An open block. -/
structure OpenBlock where
  /-- Where its brace stands. -/
  start : Nat
  /-- The statements before it in its list, the latest first. -/
  before : List Stmt
  deriving Repr

/-- What has been read so far. -/
structure State where
  /-- What is being read. -/
  phase : Phase := .statement
  /-- The finished statements of the innermost list, the latest first. -/
  done : List Stmt := []
  /-- The open blocks, the innermost first. -/
  blocks : List OpenBlock := []
  deriving Repr

/-! ### What can come next -/

/-- The terminals that start an operand. -/
def operandKeys : List Terminal := [.name, .number, .minus, .lpar]

/-- The terminals that start a statement. -/
def statementKeys : List Terminal := .letWord :: .printWord :: .lbrace :: operandKeys

/-- The terminals that can follow the last token, by what it is alone. Whether a parenthesis
or a block is open to be closed is not looked at. -/
def State.keys (st : State) : List Terminal :=
  match st.phase with
  | .statement =>
    if st.done.isEmpty then
      if st.blocks.isEmpty then .endOfInput :: statementKeys else .rbrace :: statementKeys
    else .endOfInput :: .rbrace :: statementKeys
  | .name _ => [.name]
  | .equal _ _ => [.equal]
  | .operand .. => operandKeys
  | .operator .. => [.plus, .minus, .star, .slash, .semicolon, .rpar]

/-- The terminals that can come next once it is settled what the last token has ended. -/
def State.settledKeys (st : State) : List Terminal :=
  match st.phase with
  | .statement =>
    if st.blocks.isEmpty then .endOfInput :: statementKeys else .rbrace :: statementKeys
  | .operator _ parens _ _ => if parens.isEmpty then [.semicolon] else [.rpar]
  | _ => st.keys

/-- The terminals that are named when `t` is refused; no `t` stands for a character that
starts no token. A terminal that follows the last token is refused because of what is open.
Of the others, the end of the input is refused in favour of all that can follow; for a token
or a character, keywords count as names and the end of the input is not named. -/
def State.expected (st : State) (t : Option Terminal) : List Terminal :=
  if t.any (· ∈ st.keys) then st.settledKeys
  else if t = some .endOfInput then st.keys
  else st.keys.filter fun k => k != .letWord && k != .printWord && k != .endOfInput

/-- A source that is not a program: the token that cannot stand where it does, or none at the
end of the input, and the terminals that could. -/
structure Unexpected where
  /-- The token that is refused. -/
  found : Option Token
  /-- What could stand there. -/
  expected : List Terminal
  deriving DecidableEq, Repr

/-- Refuse a token. -/
def State.refuse (st : State) (tok : Token) : Unexpected :=
  ⟨some tok, st.expected tok.lexeme.terminal?⟩

/-! ### Steps -/

/-- The phase after an operand, whose signs it gets. -/
def afterOperand (head : Head) (parens : List Paren) (chain : Chain) (signs : List Operator)
    (x : Operand) : Phase :=
  .operator head parens chain (signs.foldl Operand.signed x)

/-- Read the token where an operand is needed. -/
def operandStep (head : Head) (parens : List Paren) (chain : Chain) (signs : List Operator)
    (tok : Token) : Option Phase :=
  match tok.lexeme with
  | .word text =>
    some (afterOperand head parens chain signs ⟨.var ⟨text, tok.span⟩ tok.span, tok.span⟩)
  | .numeral text =>
    let value := Binary64.ofNumeral text.toList
    some (afterOperand head parens chain signs ⟨.literal value tok.span, tok.span⟩)
  | .symbol .minus => some (.operand head parens chain (⟨"-", tok.span⟩ :: signs))
  | .symbol .lpar => some (.operand head (⟨tok.span.start, chain, signs⟩ :: parens) {} [])
  | _ => none

/-- The statement that ends with its expression `x` and a semicolon that stops at `stop`. -/
def Head.finish (head : Head) (x : Operand) (stop : Nat) : Stmt :=
  match head with
  | .bind start name => .bind name x.expr ⟨start, stop⟩
  | .print start => .print x.expr ⟨start, stop⟩
  | .bare => .expr x.expr ⟨x.extent.start, stop⟩

/-- Read the token after an operand: an operator, the end of a parenthesis, or the end of
the statement. -/
def operatorStep (st : State) (head : Head) (parens : List Paren) (chain : Chain)
    (last : Operand) (tok : Token) : Option State :=
  match tok.lexeme, parens with
  | .symbol .plus, _ | .symbol .minus, _ =>
    let op := ⟨tok.lexeme.text, tok.span⟩
    some { st with phase := .operand head parens ⟨some ⟨chain.sumWith last, op⟩, none⟩ [] }
  | .symbol .star, _ | .symbol .slash, _ =>
    let op := ⟨tok.lexeme.text, tok.span⟩
    some { st with
      phase := .operand head parens ⟨chain.sum, some ⟨chain.productWith last, op⟩⟩ [] }
  | .symbol .rpar, paren :: outer =>
    let inner := ⟨(chain.sumWith last).expr, ⟨paren.start, tok.span.stop⟩⟩
    some { st with phase := afterOperand head outer paren.chain paren.signs inner }
  | .symbol .semicolon, [] =>
    let statement := head.finish (chain.sumWith last) tok.span.stop
    some { st with phase := .statement, done := statement :: st.done }
  | _, _ => none

/-- Read the token where a statement starts or the list of statements ends. -/
def statementStep (st : State) (tok : Token) : Option State :=
  match tok.lexeme, st.blocks with
  | .symbol .lbrace, blocks =>
    some { phase := .statement, done := [], blocks := ⟨tok.span.start, st.done⟩ :: blocks }
  | .symbol .rbrace, block :: outer =>
    let statement := .block st.done.reverse ⟨block.start, tok.span.stop⟩
    some { phase := .statement, done := statement :: block.before, blocks := outer }
  | lexeme, _ =>
    if lexeme = .word "let" then some { st with phase := .name tok.span.start }
    else if lexeme = .word "print" then
      some { st with phase := .operand (.print tok.span.start) [] {} [] }
    else (operandStep .bare [] {} [] tok).map fun phase => { st with phase }

/-- Read a token, if it can stand there. -/
def State.next? (st : State) (tok : Token) : Option State :=
  match st.phase, tok.lexeme with
  | .statement, _ => statementStep st tok
  | .name start, .word text => some { st with phase := .equal start ⟨text, tok.span⟩ }
  | .equal start name, .symbol .equal =>
    some { st with phase := .operand (.bind start name) [] {} [] }
  | .operand head parens chain signs, _ =>
    (operandStep head parens chain signs tok).map fun phase => { st with phase }
  | .operator head parens chain last, _ => operatorStep st head parens chain last tok
  | _, _ => none

/-- Read a token. -/
def State.step (st : State) (tok : Token) : Except Unexpected State :=
  match st.next? tok with
  | some st' => .ok st'
  | none => .error (st.refuse tok)

/-- The statements, if the input can end here. -/
def State.finish (st : State) : Except Unexpected (List Stmt) :=
  match st.phase, st.blocks with
  | .statement, [] => .ok st.done.reverse
  | _, _ => .error ⟨none, st.expected (some .endOfInput)⟩

/-- Read tokens one by one. -/
def State.run (st : State) : List Token → Except Unexpected State
  | [] => .ok st
  | tok :: rest =>
    match st.step tok with
    | .ok st' => st'.run rest
    | .error e => .error e

end Parser

/-- Why a source gives no program. -/
inductive ParseError where
  /-- A token, or the end of the input, cannot stand where it does. -/
  | unexpected (e : Parser.Unexpected)
  /-- The program is nested too deeply. -/
  | tooDeep
  deriving DecidableEq, Repr

namespace Program

/-- The program of a source, of any depth. -/
def read (source : String) : Except Parser.Unexpected Program :=
  match Parser.State.run {} (Token.scan source) with
  | .error e => .error e
  | .ok st =>
    match st.finish with
    | .error e => .error e
    | .ok statements => .ok ⟨statements, ⟨0, source.length⟩⟩

/-- The program of a source. Syntax comes before depth. -/
def parse (source : String) : Except ParseError Program :=
  match read source with
  | .error e => .error (.unexpected e)
  | .ok p => if p.depth ≤ nestingLimit then .ok p else .error .tooDeep

end Program

/-- The problem of a source that gives no program. -/
def ParseError.problem (source : String) : ParseError → Problem
  | .unexpected ⟨some tok, expected⟩ =>
    .expectedFound tok.span (Terminal.describe expected) (some tok.lexeme.text)
  | .unexpected ⟨none, expected⟩ =>
    .expectedFound ⟨source.length, source.length⟩ (Terminal.describe expected) none
  | .tooDeep => .custom ⟨0, source.length⟩ "Expression nesting too deep"

/-- The program of a source, or what is wrong with it. -/
def Program.ofSource (source : String) : Except Problem Program :=
  match parse source with
  | .ok p => .ok p
  | .error e => .error (e.problem source)

end NumCheck
