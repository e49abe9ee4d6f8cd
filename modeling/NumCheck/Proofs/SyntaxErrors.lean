import NumCheck.Proofs.Parsing
import NumCheck.Proofs.Scanning

/-!
# Syntax errors are found as early as possible

A source that is no program is refused at its first token that cannot be right, or at its end if it
only lacks something. In other words, what has been read before the error can be completed, and what
has been read with it cannot.

Every state of the parser can be completed: open parentheses and blocks are closed, and an operand
is put in where one is needed (`State.completion`). On a new line this is also text that goes on
after what has been read, whatever this ends with. Conversely the parser looks only at the class of
a token, so a word or a numeral that is refused is also refused if it is longer. There is one
exception: a point after digits, which a digit would make a numeral of.

A source is correct here if the grammar derives it, at any depth. One that is correct and nested too
deeply is refused as well, but this is no syntax error and is left out.
-/

namespace NumCheck

/-! ### Completing what has been read -/

namespace Parser

/-- The lexemes that complete the statement that is being read. -/
def Phase.completion : Phase → List Lexeme
  | .statement => []
  | .name _ => [.word "x", .symbol .equal, .word "x", .symbol .semicolon]
  | .equal _ _ => [.symbol .equal, .word "x", .symbol .semicolon]
  | .operand _ parens _ _ =>
    .word "x" :: (List.replicate parens.length (.symbol .rpar) ++ [.symbol .semicolon])
  | .operator _ parens _ _ => List.replicate parens.length (.symbol .rpar) ++ [.symbol .semicolon]

/-- The lexemes that complete the program. -/
def State.completion (st : State) : List Lexeme :=
  st.phase.completion ++ List.replicate st.blocks.length (.symbol .rbrace)

/-- The lexemes, wherever they stand, lead from `st` to the end of a program. -/
def Completes (st : State) (ls : List Lexeme) : Prop :=
  ∀ toks : List Token, toks.map Token.lexeme = ls →
    ∃ st' l, st.run? toks = some st' ∧ st'.finish = .ok l

theorem Completes.cons {st : State} {l : Lexeme} {ls : List Lexeme}
    (h : ∀ s, ∃ st', st.next? ⟨l, s⟩ = some st' ∧ Completes st' ls) : Completes st (l :: ls) := by
  intro toks ht
  obtain ⟨⟨l', s⟩, toks, rfl, rfl, hls⟩ := List.map_eq_cons_iff.mp ht
  obtain ⟨st', hn, hc⟩ := h s
  obtain ⟨st'', l, hrun, hfinish⟩ := hc toks hls
  exact ⟨st'', l, by rw [State.run?_cons, hn]; exact hrun, hfinish⟩

/-- Blocks are closed by braces. -/
theorem completes_statement (done : List Stmt) (blocks : List OpenBlock) :
    Completes ⟨.statement, done, blocks⟩ (List.replicate blocks.length (.symbol .rbrace)) := by
  induction blocks generalizing done with
  | nil =>
    intro toks ht
    rw [List.map_eq_nil_iff.mp ht]
    exact ⟨_, _, rfl, rfl⟩
  | cons b blocks ih => exact .cons fun s => ⟨_, rfl, ih _⟩

/-- Parentheses are closed, and then the statement is. -/
theorem completes_operator (head : Head) (parens : List Paren) (chain : Chain) (last : Operand)
    (done : List Stmt) (blocks : List OpenBlock) :
    Completes ⟨.operator head parens chain last, done, blocks⟩
      (List.replicate parens.length (.symbol .rpar) ++ [.symbol .semicolon] ++
        List.replicate blocks.length (.symbol .rbrace)) := by
  induction parens generalizing chain last with
  | nil => exact .cons fun s => ⟨_, rfl, completes_statement _ _⟩
  | cons p parens ih => exact .cons fun s => ⟨_, rfl, ih _ _⟩

/-- An operand is put in where one is needed. -/
theorem completes_operand (head : Head) (parens : List Paren) (chain : Chain)
    (signs : List Operator) (done : List Stmt) (blocks : List OpenBlock) :
    Completes ⟨.operand head parens chain signs, done, blocks⟩
      (.word "x" :: (List.replicate parens.length (.symbol .rpar) ++ [.symbol .semicolon] ++
        List.replicate blocks.length (.symbol .rbrace))) :=
  .cons fun _ => ⟨_, rfl, completes_operator _ _ _ _ _ _⟩

/-- **Every state can be completed.** -/
theorem State.completes_completion (st : State) : Completes st st.completion := by
  obtain ⟨phase, done, blocks⟩ := st
  cases phase with
  | statement => exact completes_statement done blocks
  | name start =>
    exact .cons fun s => ⟨_, rfl, .cons fun s' => ⟨_, rfl, completes_operand _ [] _ _ _ _⟩⟩
  | equal start name => exact .cons fun s => ⟨_, rfl, completes_operand _ [] _ _ _ _⟩
  | operand head parens chain signs => exact completes_operand head parens chain signs done blocks
  | operator head parens chain last => exact completes_operator head parens chain last done blocks

/-! ### The parser looks at classes of lexemes -/

/-- Lexemes that are refused in the same states. -/
inductive SameClass : Lexeme → Lexeme → Prop where
  /-- Words. -/
  | word (text text' : String) : SameClass (.word text) (.word text')
  /-- Numerals. -/
  | numeral (text text' : String) : SameClass (.numeral text) (.numeral text')
  /-- The same lexeme. -/
  | refl (l : Lexeme) : SameClass l l

/-- Where a statement starts, every word can stand. -/
theorem statementStep_word (st : State) (text : String) (s : Span) :
    statementStep st ⟨.word text, s⟩ ≠ none := by
  unfold statementStep
  split
  · simp
  · simp
  · split_ifs <;> simp [operandStep]

/-- A token that is refused is also refused somewhere else, and if it is longer. -/
theorem SameClass.next?_eq_none {l l' : Lexeme} (hl : SameClass l l') {st : State} {s : Span}
    (h : st.next? ⟨l, s⟩ = none) (s' : Span) : st.next? ⟨l', s'⟩ = none := by
  cases hl with
  | word text text' =>
    obtain ⟨phase, done, blocks⟩ := st
    cases phase with
    | statement => exact absurd h (statementStep_word _ text s)
    | equal => rfl
    | operator => rfl
    | _ => cases h
  | numeral text text' =>
    obtain ⟨phase, done, blocks⟩ := st
    cases phase with
    | statement => cases h
    | operand => cases h
    | _ => rfl
  | refl =>
    -- without places, the two tokens are the same
    have hmove := next?_move .drop st ⟨l, s⟩
    have hmove' := next?_move .drop st ⟨l, s'⟩
    rw [h] at hmove
    exact Option.map_eq_none_iff.mp (hmove'.trans hmove.symm)

end Parser

/-! ### Text that goes on -/

namespace Grammar

open NumCheck.Parser (State Completes SameClass)

/-- The source is a program, of whatever depth. -/
def Correct (source : String) : Prop := ∃ ds, Derives source ds

/-- More text makes a program of it. -/
def Viable (text : String) : Prop := ∃ more, Correct (text ++ more)

theorem correct_iff_read {source : String} : Correct source ↔ ∃ p, Program.read source = .ok p :=
  ⟨fun ⟨_, h⟩ => read_of_derives h, fun ⟨_, h⟩ => (derives_of_read h).imp fun _ hd => hd.1⟩

theorem spelt_x : Spelt (.word "x") :=
  ⟨.name "x", .name (c := 'x') (.inr (.inl (by decide))) nofun, rfl⟩

theorem spelt_completion (st : State) : ∀ l ∈ st.completion, Spelt l := by
  obtain ⟨phase, done, blocks⟩ := st
  cases phase <;>
    simp [State.completion, Parser.Phase.completion, or_imp, forall_and, spelt_x, spelt_symbol]

/-- What has been read goes on, on a new line, with what completes it. -/
theorem exists_program {text : String} {st : State}
    (hrun : State.run? {} (Token.scan text) = some st) :
    ∃ more ds, Derives (text ++ more) ds ∧
      (Statement.yieldAll ds).map Piece.lexeme = lexemes text.toList ++ st.completion := by
  obtain ⟨toks, hls, hscan⟩ := scan_newline text (spelt_completion st)
  obtain ⟨st', l, hst', hfinish⟩ := st.completes_completion toks hls
  let more := "\n" ++ " ".intercalate (st.completion.map Lexeme.text)
  have hread : Program.read (text ++ more) = .ok ⟨l, ⟨0, (text ++ more).length⟩⟩ := by
    refine read_eq_ok_iff.mpr ⟨st', l, ?_, hfinish, rfl⟩
    rw [← String.append_assoc, hscan, State.run?_append, hrun]
    exact hst'
  obtain ⟨ds, hds, -⟩ := derives_of_read hread
  refine ⟨more, ds, hds, ?_⟩
  rw [← (tokenized_iff.mp hds).1, ← String.append_assoc, lexemes]
  change (Token.scan _).map Token.lexeme = _
  rw [hscan, List.map_append, hls]
  rfl

/-- What has been read can be completed. -/
theorem viable_of_run {text : String} {st : State}
    (hrun : State.run? {} (Token.scan text) = some st) : Viable text := by
  obtain ⟨more, ds, hds, -⟩ := exists_program hrun
  exact ⟨more, ds, hds⟩

/-- The pieces of what has been read. Another statement can start after them if the phase says
so. -/
theorem pieces_of_run {text : String} {st : State}
    (hrun : State.run? {} (Token.scan text) = some st) :
    ∃ ts, Tokenized none text.toList ts ∧
      (StatementStarts (lastPiece none ts) ↔ st.phase = .statement) := by
  have hbare := run?_lexemes text
  rw [hrun] at hbare
  have hstart : Represents {} [] := .mk [] .nil .statement
  have hprev : StatementStarts none := .inl rfl
  obtain ⟨ts, hl, hk, hlast, -⟩ := run_represents hstart (iff_of_true hprev rfl) hbare
  refine ⟨ts, tokenized_iff.mpr ⟨hl.symm, hk⟩, hlast.trans ?_⟩
  obtain ⟨phase, done, blocks⟩ := st
  cases phase <;> simp [State.move, Parser.Phase.move]

/-! ### What can come next -/

/-- The terminal of a piece. -/
def Piece.terminal : Piece → Terminal
  | .letWord => .letWord
  | .printWord => .printWord
  | .name _ => .name
  | .number _ => .number
  | .symbol s => s.terminal

/-- The terminal at the head of the pieces, or the end. -/
def firstTerminal : List Piece → Terminal
  | [] => .endOfInput
  | t :: _ => t.terminal

/-- In some program the pieces `ts` come first, and then `t`. -/
def CanFollow (ts : List Piece) (t : Terminal) : Prop :=
  ∃ source ds us, Derives source ds ∧ Statement.yieldAll ds = ts ++ us ∧ firstTerminal us = t

/-- The terminals that close something, which need not be open. -/
def closing : List Terminal := [.semicolon, .rpar, .rbrace]

theorem mem_keys_statement {t : Terminal} {done : List Stmt} {blocks : List Parser.OpenBlock}
    (h : t ∈ State.keys ⟨.statement, done, blocks⟩) :
    t ∈ Parser.statementKeys ∨ t = .endOfInput ∨ t ∈ closing := by
  unfold State.keys at h
  split_ifs at h <;> grind [closing]

/-- A piece that the last one allows is read, if it does not close anything. -/
theorem next?_of_mem_keys {st : State} {t : Piece} (h : t.terminal ∈ st.keys)
    (hc : t.terminal ∉ closing) (s : Span) : st.next? ⟨t.lexeme, s⟩ ≠ none := by
  obtain ⟨phase, done, blocks⟩ := st
  cases phase with
  | statement =>
    have hkeys : t.terminal ∈ Parser.statementKeys := by
      rcases mem_keys_statement h with h | h | h
      · exact h
      · cases t with
        | symbol sym => cases sym <;> cases h
        | _ => cases h
      · exact absurd h hc
    cases t with
    | name text => exact Parser.statementStep_word _ text s
    | symbol sym =>
      cases sym with
      | lbrace => exact Option.some_ne_none _
      | lpar => exact Option.some_ne_none _
      | minus => exact Option.some_ne_none _
      | _ => exact absurd hkeys (by decide)
    | _ => exact Option.some_ne_none _
  | name start =>
    cases t with
    | name text => exact Option.some_ne_none _
    | symbol sym => cases sym <;> simp [State.keys, Piece.terminal, Symbol.terminal] at h
    | _ => simp [State.keys, Piece.terminal] at h
  | equal start name =>
    cases t with
    | symbol sym =>
      cases sym with
      | equal => exact Option.some_ne_none _
      | _ => simp [State.keys, Piece.terminal, Symbol.terminal] at h
    | _ => simp [State.keys, Piece.terminal] at h
  | operand head parens chain signs =>
    cases t with
    | name text => exact Option.some_ne_none _
    | number text => exact Option.some_ne_none _
    | symbol sym =>
      cases sym with
      | minus => exact Option.some_ne_none _
      | lpar => exact Option.some_ne_none _
      | _ => simp [State.keys, Piece.terminal, Symbol.terminal, Parser.operandKeys] at h
    | _ => simp [State.keys, Piece.terminal, Parser.operandKeys] at h
  | operator head parens chain last =>
    cases t with
    | symbol sym =>
      cases sym with
      | plus => exact Option.some_ne_none _
      | minus => exact Option.some_ne_none _
      | star => exact Option.some_ne_none _
      | slash => exact Option.some_ne_none _
      | semicolon => exact absurd (by decide) hc
      | rpar => exact absurd (by decide) hc
      | _ => simp [State.keys, Piece.terminal, Symbol.terminal] at h
    | _ => simp [State.keys, Piece.terminal] at h

/-- A piece of each terminal, which is no keyword unless the terminal is one. -/
theorem exists_piece {t : Terminal} (h : t ≠ .endOfInput) :
    ∃ u : Piece, u.terminal = t ∧ Spelt u.lexeme ∧
      ∀ prev, (t = .letWord ∨ t = .printWord → StatementStarts prev) → Fits prev u := by
  have hsymbol (s : Symbol) : ∃ u : Piece, u.terminal = s.terminal ∧ Spelt u.lexeme ∧
      ∀ prev, (s.terminal = .letWord ∨ s.terminal = .printWord → StatementStarts prev) →
        Fits prev u :=
    ⟨.symbol s, rfl, spelt_symbol s, fun _ _ => trivial⟩
  cases t with
  | letWord =>
    exact ⟨.letWord, rfl, ⟨.letWord, .letWord, rfl⟩, fun _ hprev => hprev (.inl rfl)⟩
  | printWord =>
    exact ⟨.printWord, rfl, ⟨.printWord, .printWord, rfl⟩, fun _ hprev => hprev (.inr rfl)⟩
  | name => exact ⟨.name "x", rfl, spelt_x, fun _ _ => by simp [Fits]⟩
  | number =>
    have hzero : Numeral ['0'] := .inl ⟨by simp, by simp [Digit]⟩
    exact ⟨.number "0", rfl, ⟨.number "0", .number hzero, rfl⟩, fun _ _ => trivial⟩
  | equal => exact hsymbol .equal
  | semicolon => exact hsymbol .semicolon
  | lbrace => exact hsymbol .lbrace
  | rbrace => exact hsymbol .rbrace
  | lpar => exact hsymbol .lpar
  | rpar => exact hsymbol .rpar
  | plus => exact hsymbol .plus
  | minus => exact hsymbol .minus
  | star => exact hsymbol .star
  | slash => exact hsymbol .slash
  | endOfInput => exact absurd rfl h

/-- A piece that is read can come next. -/
theorem canFollow_of_next? {text : String} {st : State}
    (hrun : State.run? {} (Token.scan text) = some st) {ts : List Piece}
    (hts : Tokenized none text.toList ts) {t : Piece} (ht : Spelt t.lexeme)
    (hf : Fits (lastPiece none ts) t) (hn : ∀ s, st.next? ⟨t.lexeme, s⟩ ≠ none) :
    CanFollow ts t.terminal := by
  -- the text with the piece on a new line
  obtain ⟨toks, hls, hscan⟩ := scan_newline text (List.forall_mem_singleton.mpr ht)
  obtain ⟨⟨l, s⟩, rfl, rfl⟩ := List.map_eq_singleton_iff.mp hls
  obtain ⟨st', hst'⟩ := Option.ne_none_iff_exists'.mp (hn s)
  generalize text ++ "\n" ++ " ".intercalate ([t.lexeme].map Lexeme.text) = text' at hscan
  have hrun' : State.run? {} (Token.scan text') = some st' := by
    rw [hscan, State.run?_append, hrun, Option.bind_some, State.run?_cons, hst']
    rfl
  -- completed, it has these pieces first
  obtain ⟨more, ds, hds, hlexemes⟩ := exists_program hrun'
  obtain ⟨hl, hk⟩ := tokenized_iff.mp hts
  have hl' : lexemes text'.toList = (ts ++ [t]).map Piece.lexeme := by
    change (Token.scan text').map Token.lexeme = _
    rw [hscan, List.map_append, List.map_append, ← hl]
    rfl
  rw [hl'] at hlexemes
  obtain ⟨us, vs, hyield, hus, -⟩ := List.map_eq_append_iff.mp hlexemes
  have hkus := (tokenized_iff.mp hds).2
  rw [hyield] at hkus
  have hkt : Keyed none (ts ++ [t]) := keyed_append.mpr ⟨hk, hf, trivial⟩
  obtain rfl := (keyed_append.mp hkus).1.eq_of_lexemes hkt hus
  exact ⟨_, ds, t :: vs, hds, by rw [hyield, List.append_assoc, List.singleton_append], rfl⟩

theorem mem_keys_of_mem_statementKeys {t : Terminal} (h : t ∈ Parser.statementKeys)
    (done : List Stmt) (blocks : List Parser.OpenBlock) :
    t ∈ State.keys ⟨.statement, done, blocks⟩ := by
  unfold State.keys
  split_ifs <;> simp [h]

theorem ne_endOfInput_of_mem_statementKeys {t : Terminal} (h : t ∈ Parser.statementKeys) :
    t ≠ .endOfInput := by
  rintro rfl
  exact absurd h (by decide)

/-- What is named as expected closes something, is the end if the input can end, or is allowed by
the last token. -/
theorem mem_expected {st : State} {refused : Option Terminal} {t : Terminal}
    (h : t ∈ st.expected refused) :
    t ∈ closing ∨ (t = .endOfInput ∧ st.phase = .statement ∧ st.blocks = []) ∨
      (t ≠ .endOfInput ∧ t ∈ st.keys) := by
  unfold State.expected at h
  split_ifs at h with hkeys hend
  · obtain ⟨phase, done, blocks⟩ := st
    have hclosing {s : Terminal} (hs : s ∈ closing) (ht : t ∈ [s]) : t ∈ closing := by
      rwa [List.mem_singleton.mp ht]
    have hstart (ht : t ∈ Parser.statementKeys) :=
      And.intro (ne_endOfInput_of_mem_statementKeys ht)
        (mem_keys_of_mem_statementKeys ht done blocks)
    cases phase with
    | statement =>
      cases blocks with
      | nil =>
        rcases List.mem_cons.mp h with rfl | ht
        · exact .inr (.inl ⟨rfl, rfl, rfl⟩)
        · exact .inr (.inr (hstart ht))
      | cons b blocks =>
        rcases List.mem_cons.mp h with rfl | ht
        · exact .inl (by decide)
        · exact .inr (.inr (hstart ht))
    | operator head parens chain last =>
      cases parens with
      | nil => exact .inl (hclosing (by decide) h)
      | cons p parens => exact .inl (hclosing (by decide) h)
    | _ =>
      refine .inr (.inr ⟨?_, h⟩)
      rintro rfl
      simp [State.settledKeys, State.keys, Parser.operandKeys] at h
  · refine .inr (.inr ⟨?_, h⟩)
    rintro rfl
    simp [hend, h] at hkeys
  · have ht := List.mem_filter.mp h
    refine .inr (.inr ⟨?_, ht.1⟩)
    rintro rfl
    simp at ht

theorem phase_of_keyword_mem_keys {st : State} {t : Terminal} (h : t ∈ st.keys)
    (ht : t = .letWord ∨ t = .printWord) : st.phase = .statement := by
  obtain ⟨phase, done, blocks⟩ := st
  cases phase with
  | statement => rfl
  | _ => rcases ht with rfl | rfl <;> simp [State.keys, Parser.operandKeys] at h

/-- What is named as expected can come next, if it does not close anything. -/
theorem canFollow_of_mem_expected {text : String} {st : State}
    (hrun : State.run? {} (Token.scan text) = some st) {ts : List Piece}
    (hts : Tokenized none text.toList ts)
    (hstarts : StatementStarts (lastPiece none ts) ↔ st.phase = .statement)
    {refused : Option Terminal} {t : Terminal} (h : t ∈ st.expected refused) :
    t ∈ closing ∨ CanFollow ts t := by
  by_cases hc : t ∈ closing
  · exact .inl hc
  refine .inr ?_
  rcases mem_expected h with h | ⟨rfl, hphase, hblocks⟩ | ⟨hend, hkeys⟩
  · exact absurd h hc
  · have hread : Program.read text = .ok ⟨st.done.reverse, ⟨0, text.length⟩⟩ :=
      read_eq_ok_iff.mpr ⟨st, _, hrun, finish_eq_ok_iff.mpr ⟨hphase, hblocks, rfl⟩, rfl⟩
    obtain ⟨ds, hds, -⟩ := derives_of_read hread
    exact ⟨text, ds, [], hds, by rw [List.append_nil, Tokenized.unique hds hts], rfl⟩
  · obtain ⟨u, rfl, hu, hfits⟩ := exists_piece hend
    exact canFollow_of_next? hrun hts hu
      (hfits _ fun hkey => hstarts.mpr (phase_of_keyword_mem_keys hkeys hkey))
      (next?_of_mem_keys hkeys hc)

/-! ### The token that is refused -/

theorem toList_ofList_append (cs : List Char) (more : String) :
    (String.ofList cs ++ more).toList = cs ++ more.toList := by
  rw [String.toList_append, String.toList_ofList]

/-- The class of a lexeme is known from its first character. -/
theorem exists_sameClass {c : Char} {text : List Char} {l : Lexeme}
    (h : chunkLexeme? c text = some l) (text' : List Char) :
    ∃ l', chunkLexeme? c text' = some l' ∧ SameClass l l' := by
  unfold chunkLexeme? at h ⊢
  cases hk : kind c with
  | blank => simp [hk, Kind.lexeme?] at h
  | hash => simp [hk, Kind.lexeme?] at h
  | letter =>
    simp only [hk, Kind.lexeme?, Option.some.injEq] at h
    exact ⟨_, rfl, h ▸ .word _ _⟩
  | digit =>
    simp only [hk, Kind.lexeme?, Option.some.injEq] at h
    exact ⟨_, rfl, h ▸ .numeral _ _⟩
  | symbol s =>
    simp only [hk, Kind.lexeme?, Option.some.injEq] at h
    exact ⟨_, rfl, h ▸ .refl _⟩
  | other =>
    simp only [hk, Option.some.injEq] at h
    exact ⟨_, rfl, h ▸ .refl _⟩

/-- A token that is refused is refused with any text after it, if this leaves the tokens before it
as they are. -/
theorem not_viable_of_refused {tok : Token} {text more rest : List Char} {c : Char} {st : State}
    (hst : Stands tok 0 text c more rest) (hrun : State.run? {} (Token.scanFrom 0 0 text) = some st)
    (hn : st.next? tok = none) (hcut : ∀ rest', Cut text (c :: rest')) :
    ¬ Viable (String.ofList (text ++ c :: more)) := by
  rintro ⟨ext, hcorrect⟩
  obtain ⟨p, hread⟩ := correct_iff_read.mp hcorrect
  obtain ⟨st', l, hrun', -⟩ := read_eq_ok_iff.mp hread
  rw [Token.scan, toList_ofList_append, List.append_assoc, List.cons_append] at hrun'
  -- the refused token may have become longer
  obtain ⟨more', hchunk, ⟨rest', hrest'⟩, -⟩ := exists_chunk c (more ++ ext.toList)
  obtain ⟨l', hl', hclass⟩ := exists_sameClass hst.lexeme (c :: more')
  rw [(hcut _).scanFrom, State.run?_append, hrun, Option.bind_some, ← hrest',
    scanFrom_chunk (hrest' ▸ hchunk), hl'] at hrun'
  have hnone := hclass.next?_eq_none hn
  simp [State.run?_cons, hnone] at hrun'

/-- The last token of a text. -/
theorem scanFrom_concat {text more : List Char} {c : Char} {l : Lexeme}
    (hcut : Cut text (c :: more)) (hchunk : chunk c (more ++ []) = c :: more)
    (hl : chunkLexeme? c (c :: more) = some l) :
    ∃ s, Token.scanFrom 0 0 (text ++ c :: more) = Token.scanFrom 0 0 text ++ [⟨l, s⟩] := by
  have hscan := scanFrom_chunk hchunk (0 + text.length)
  rw [hl, List.append_nil] at hscan
  exact ⟨_, (hcut.scanFrom 0).trans (congrArg _ hscan)⟩

theorem chunkLexeme?_digit {c : Char} (hc : c.isDigit = true) (text : List Char) :
    chunkLexeme? c text = some (.numeral (String.ofList text)) := by
  rw [chunkLexeme?, kind_digit hc]
  rfl

/-- After digits, a point and another digit make a numeral. -/
theorem viable_of_digitsEnd {text rest : List Char} {st : State} (h : DigitsEnd text rest)
    (hrun : State.run? {} (Token.scanFrom 0 0 text) = some st) :
    Viable (String.ofList (text ++ ['.'])) := by
  obtain ⟨before, c, more, rfl, hcut, hchunk, hdigits⟩ := h
  have hc : c.isDigit = true := hdigits c List.mem_cons_self
  -- the digits have been read
  have hchunk' : chunk c (more ++ ([] ++ rest)) = c :: more := hchunk
  have hcut' : Cut before (c :: more) := Cut.of_append hcut
  obtain ⟨s, hscan⟩ := scanFrom_concat hcut' (chunk_of_append hchunk') (chunkLexeme?_digit hc _)
  rw [hscan, State.run?_append] at hrun
  obtain ⟨st₀, hst₀, hnext⟩ := Option.bind_eq_some_iff.mp hrun
  rw [State.run?_cons] at hnext
  -- so the longer numeral would have been read
  have hgoes : Goes c (more ++ ['.', '0']) := by
    have hall : ∀ x ∈ c :: more, Digit x := fun x hx => digit_iff.mpr (hdigits x hx)
    have hnum : Numeral ((c :: more) ++ '.' :: ['0']) :=
      .fraction (by simp) hall (by simp) (by simp [Digit])
    rw [Goes, kind_digit hc]
    exact hnum
  have hlong : Cut before (c :: (more ++ ['.', '0'])) := by
    refine hcut.next_of_ne ?_ _
    rintro rfl
    cases hc
  have hhash : c ≠ '#' := by
    rintro rfl
    cases hc
  obtain ⟨s', hscan'⟩ :=
    scanFrom_concat hlong (chunk_of_goes hgoes hhash (by simp)) (chunkLexeme?_digit hc _)
  obtain ⟨st₁, hst₁⟩ : ∃ st₁, st₀.next? ⟨.numeral (String.ofList (c :: (more ++ ['.', '0']))), s'⟩ =
      some st₁ := by
    refine Option.ne_none_iff_exists'.mp fun hnone => ?_
    rw [(SameClass.numeral _ _).next?_eq_none hnone s] at hnext
    cases hnext
  have hrun' : State.run? {} (Token.scan (String.ofList (before ++ c :: (more ++ ['.', '0'])))) =
      some st₁ := by
    rw [Token.scan, String.toList_ofList, hscan', State.run?_append, hst₀, Option.bind_some,
      State.run?_cons, hst₁]
    rfl
  obtain ⟨ext, hext⟩ := viable_of_run hrun'
  refine ⟨"0" ++ ext, ?_⟩
  have heq : String.ofList (before ++ c :: more ++ ['.']) ++ ("0" ++ ext) =
      String.ofList (before ++ c :: (more ++ ['.', '0'])) ++ ext :=
    String.toList_inj.mp (by simp)
  rwa [heq]

/-- A token of digits alone stops at the offset. -/
def AfterDigits (source : String) (offset : Nat) : Prop :=
  ∃ tok ∈ Token.scan source, ∃ digits, tok.lexeme = .numeral digits ∧ '.' ∉ digits.toList ∧
    tok.span.stop = offset

theorem digitsEnd_iff {source : String} {text rest : List Char}
    (h : source.toList = text ++ rest) : DigitsEnd text rest ↔ AfterDigits source text.length := by
  constructor
  · rintro ⟨before, c, more, rfl, hcut, hchunk, hdigits⟩
    let span : Span := ⟨before.length, before.length + (more.length + 1)⟩
    refine ⟨⟨.numeral (String.ofList (c :: more)), span⟩, ?_, _, rfl, ?_, by simp [span]⟩
    · rw [Token.scan, h, List.append_assoc, List.cons_append, hcut.scanFrom, scanFrom_chunk hchunk,
        chunkLexeme?_digit (hdigits c List.mem_cons_self)]
      simp [span]
    · rw [String.toList_ofList]
      intro hpoint
      cases hdigits '.' hpoint
  · rintro ⟨tok, htok, digits, hl, hpoint, hstop⟩
    obtain ⟨before, c, more, after, hcs, hst⟩ := mem_scanFrom htok
    rw [hst.span] at hstop
    have hparts : text ++ rest = (before ++ c :: more) ++ after := by
      rw [← h, hcs, List.append_assoc, List.cons_append]
    obtain ⟨rfl, rfl⟩ := List.append_inj hparts (by simp at hstop ⊢; omega)
    have htext := hst.text_eq
    rw [hl] at htext
    rw [show digits = _ from htext, String.toList_ofList] at hpoint
    have hnumeral := numeral_of_chunkLexeme? (chunk_eq_iff.mp hst.isChunk).2.1 (hl ▸ hst.lexeme)
    refine ⟨before, c, more, rfl, hst.cut, hst.isChunk, fun x hx => digit_iff.mp ?_⟩
    refine (hnumeral.digit_or_point x hx).resolve_right ?_
    rintro rfl
    exact hpoint hx

/-! ### Where a run ends -/

/-- A run that fails has read the tokens before the one that is refused. -/
theorem run_eq_error {st : State} {toks : List Token} {e : Parser.Unexpected}
    (h : st.run toks = .error e) :
    ∃ before tok after st', toks = before ++ tok :: after ∧ st.run? before = some st' ∧
      st'.next? tok = none ∧ e = st'.refuse tok := by
  induction toks generalizing st with
  | nil => cases h
  | cons tok toks ih =>
    rw [State.run, State.step] at h
    cases hn : st.next? tok with
    | none =>
      rw [hn] at h
      cases h
      exact ⟨[], tok, toks, st, rfl, rfl, hn, rfl⟩
    | some st₁ =>
      rw [hn] at h
      obtain ⟨before, tok', after, st', rfl, hrun, hnone, he⟩ := ih h
      refine ⟨tok :: before, tok', after, st', rfl, ?_, hnone, he⟩
      rw [State.run?_cons, hn]
      exact hrun

theorem finish_eq_error {st : State} {e : Parser.Unexpected} (h : st.finish = .error e) :
    e = ⟨none, st.expected (some .endOfInput)⟩ := by
  unfold State.finish at h
  split at h
  · cases h
  · exact (Except.error.inj h).symm

/-- A source that is not read is refused at a token or at its end. -/
theorem read_eq_error {source : String} {e : Parser.Unexpected}
    (h : Program.read source = .error e) :
    (∃ before tok after st, Token.scan source = before ++ tok :: after ∧
      State.run? {} before = some st ∧ st.next? tok = none ∧ e = st.refuse tok) ∨
    ∃ st, State.run? {} (Token.scan source) = some st ∧
      e = ⟨none, st.expected (some .endOfInput)⟩ := by
  unfold Program.read at h
  cases hrun : State.run {} (Token.scan source) with
  | error e' =>
    rw [hrun] at h
    cases h
    exact .inl (run_eq_error hrun)
  | ok st =>
    rw [hrun] at h
    dsimp only at h
    cases hfinish : st.finish with
    | ok l =>
      rw [hfinish] at h
      cases h
    | error e' =>
      rw [hfinish] at h
      cases h
      exact .inr ⟨st, (State.run_eq_ok_iff _ _ _).mp hrun, finish_eq_error hfinish⟩

/-! ### Descriptions -/

theorem mem_insertSorted {s t : String} {l : List String} :
    t ∈ insertSorted s l ↔ t = s ∨ t ∈ l := by
  induction l with
  | nil => simp [insertSorted]
  | cons u l ih =>
    rw [insertSorted]
    split_ifs with hlt heq
    · simp
    · subst heq
      simp
    · rw [List.mem_cons, ih, List.mem_cons, or_left_comm]

theorem pairwise_insertSorted {s : String} {l : List String} (h : l.Pairwise (· < ·)) :
    (insertSorted s l).Pairwise (· < ·) := by
  induction l with
  | nil => simp [insertSorted]
  | cons u l ih =>
    obtain ⟨hu, hl⟩ := List.pairwise_cons.mp h
    rw [insertSorted]
    split_ifs with hlt heq
    · refine List.pairwise_cons.mpr ⟨fun t ht => ?_, h⟩
      rcases List.mem_cons.mp ht with rfl | ht
      · exact hlt
      · exact String.lt_trans hlt (hu t ht)
    · exact h
    · have hgt : u < s := by
        by_contra hle
        exact heq (String.le_antisymm (String.not_lt.mp hle) (String.not_lt.mp hlt))
      refine List.pairwise_cons.mpr ⟨fun t ht => ?_, ih hl⟩
      rcases mem_insertSorted.mp ht with rfl | ht
      · exact hgt
      · exact hu t ht

theorem mem_sortedSet {t : String} {l : List String} : t ∈ sortedSet l ↔ t ∈ l := by
  induction l with
  | nil => rfl
  | cons s l ih => rw [sortedSet, List.foldr_cons, mem_insertSorted, List.mem_cons, ← ih, sortedSet]

theorem pairwise_sortedSet (l : List String) : (sortedSet l).Pairwise (· < ·) := by
  induction l with
  | nil => exact .nil
  | cons s l ih => exact pairwise_insertSorted ih

/-- Some terminal that is no keyword and not the end is always allowed by the last token. -/
theorem exists_mem_keys (st : State) :
    ∃ t ∈ st.keys, (t != .letWord && t != .printWord && t != .endOfInput) = true := by
  obtain ⟨phase, done, blocks⟩ := st
  cases phase with
  | statement => exact ⟨.name, mem_keys_of_mem_statementKeys (by decide) done blocks, rfl⟩
  | name start => exact ⟨.name, List.mem_cons_self, rfl⟩
  | equal start name => exact ⟨.equal, List.mem_cons_self, rfl⟩
  | operand head parens chain signs => exact ⟨.name, List.mem_cons_self, rfl⟩
  | operator head parens chain last => exact ⟨.plus, List.mem_cons_self, rfl⟩

theorem settledKeys_ne_nil (st : State) : st.settledKeys ≠ [] := by
  obtain ⟨phase, done, blocks⟩ := st
  cases phase with
  | statement => cases blocks <;> exact List.cons_ne_nil _ _
  | operator head parens chain last => cases parens <;> exact List.cons_ne_nil _ _
  | _ => exact List.cons_ne_nil _ _

/-- Something is always expected. -/
theorem expected_ne_nil (st : State) (refused : Option Terminal) : st.expected refused ≠ [] := by
  obtain ⟨t, ht, hkey⟩ := exists_mem_keys st
  unfold State.expected
  split_ifs
  · exact settledKeys_ne_nil st
  · exact List.ne_nil_of_mem ht
  · exact List.ne_nil_of_mem (List.mem_filter.mpr ⟨ht, hkey⟩)

/-! ### The first error -/

/-- What is reported at `span` is the first error of the source. -/
structure FirstError (source : String) (span : Span) (expected : List String)
    (found : Option String) : Prop where
  /-- The error lies in the source. -/
  inside : span.start ≤ span.stop ∧ span.stop ≤ source.length
  /-- At its end, the source is only incomplete. -/
  atEnd : found = none → span = ⟨source.length, source.length⟩ ∧ Viable source
  /-- A token is the first one with which the source cannot be completed. A point after digits is
  reported too early. -/
  atToken : ∀ text, found = some text → text ≠ "" ∧ text = span.text source ∧
    Viable (Span.text ⟨0, span.start⟩ source) ∧
    (Viable (Span.text ⟨0, span.stop⟩ source) ↔ text = "." ∧ AfterDigits source span.start)
  /-- Something is expected. -/
  nonempty : expected ≠ []
  /-- What is expected is in order, without repetition. -/
  sorted : expected.Pairwise (· < ·)
  /-- What is expected can come after the same pieces, unless it closes something. -/
  canFollow : ∃ ts, Tokenized none (Span.text ⟨0, span.start⟩ source).toList ts ∧
    ∀ d ∈ expected, ∃ t : Terminal, t.description = d ∧ (t ∈ closing ∨ CanFollow ts t)

/-- What is expected after a text that has been read. -/
theorem describe_expected {text : String} {st : State}
    (hrun : State.run? {} (Token.scan text) = some st) (refused : Option Terminal) :
    let expected := Terminal.describe (st.expected refused)
    expected ≠ [] ∧ expected.Pairwise (· < ·) ∧
      ∃ ts, Tokenized none text.toList ts ∧
        ∀ d ∈ expected, ∃ t : Terminal, t.description = d ∧ (t ∈ closing ∨ CanFollow ts t) := by
  intro expected
  obtain ⟨ts, hts, hstarts⟩ := pieces_of_run hrun
  refine ⟨?_, pairwise_sortedSet _, ts, hts, fun d hd => ?_⟩
  · obtain ⟨t, ht⟩ := List.exists_mem_of_ne_nil _ (expected_ne_nil st refused)
    exact List.ne_nil_of_mem (mem_sortedSet.mpr (List.mem_map_of_mem ht))
  · obtain ⟨t, ht, rfl⟩ := List.mem_map.mp (mem_sortedSet.mp hd)
    exact ⟨t, rfl, canFollow_of_mem_expected hrun hts hstarts ht⟩

theorem text_upTo {source : String} {cs rest : List Char} (h : source.toList = cs ++ rest) :
    Span.text ⟨0, cs.length⟩ source = String.ofList cs := by
  simpa using text_slice [] cs rest source h

theorem firstError_atEnd {source : String} {st : State}
    (hrun : State.run? {} (Token.scan source) = some st) (refused : Option Terminal) :
    FirstError source ⟨source.length, source.length⟩ (Terminal.describe (st.expected refused))
      none := by
  obtain ⟨hne, hsorted, hfollow⟩ := describe_expected hrun refused
  have htext := text_upTo (List.append_nil source.toList).symm
  rw [String.length_toList, String.ofList_toList] at htext
  refine ⟨⟨Nat.le_refl _, Nat.le_refl _⟩, fun _ => ⟨rfl, viable_of_run hrun⟩, nofun, hne, hsorted,
    ?_⟩
  rwa [htext]

/-- A text with the refused token can only be completed if this is a point after digits. -/
theorem viable_refused_iff {source : String} {tok : Token} {text more rest : List Char} {c : Char}
    {st : State} (hcs : source.toList = text ++ c :: (more ++ rest))
    (hst : Stands tok 0 text c more rest) (hrun : State.run? {} (Token.scanFrom 0 0 text) = some st)
    (hn : st.next? tok = none) :
    Viable (String.ofList (text ++ c :: more)) ↔
      tok.lexeme.text = "." ∧ AfterDigits source text.length := by
  have hgoes := (chunk_eq_iff.mp hst.isChunk).2.1
  rw [← digitsEnd_iff hcs, hst.text_eq]
  by_cases hpoint : c = '.' ∧ DigitsEnd text (c :: (more ++ rest))
  · obtain ⟨rfl, hdigits⟩ := hpoint
    obtain rfl : more = [] := hgoes
    exact iff_of_true (viable_of_digitsEnd hdigits hrun) ⟨rfl, hdigits⟩
  · refine iff_of_false ?_ fun ⟨htext, hdigits⟩ => hpoint ⟨?_, hdigits⟩
    · exact not_viable_of_refused hst hrun hn fun rest' => (hst.cut.next rest').resolve_right hpoint
    · have hchars := congrArg String.toList htext
      rw [String.toList_ofList] at hchars
      exact (List.cons.inj hchars).1

theorem firstError_atToken {source : String} {before after : List Token} {tok : Token} {st : State}
    (hscan : Token.scan source = before ++ tok :: after) (hrun : State.run? {} before = some st)
    (hn : st.next? tok = none) (refused : Option Terminal) :
    FirstError source tok.span (Terminal.describe (st.expected refused))
      (some tok.lexeme.text) := by
  have hmem : tok ∈ Token.scan source := by simp [hscan]
  obtain ⟨-, hlt, hle⟩ := scanFrom_bounds hmem
  rw [String.length_toList, Nat.zero_add] at hle
  obtain ⟨text, c, more, rest, hcs, hst, rfl, -⟩ := scanFrom_eq_append_cons hscan
  have hspan : tok.span = ⟨text.length, (text ++ c :: more).length⟩ := by
    rw [hst.span]
    simp
  have hbefore : Span.text ⟨0, tok.span.start⟩ source = String.ofList text := by
    rw [hspan]
    exact text_upTo hcs
  have hupto : Span.text ⟨0, tok.span.stop⟩ source = String.ofList (text ++ c :: more) := by
    have hcs' : source.toList = (text ++ c :: more) ++ rest := by simp [hcs]
    rw [hspan]
    exact text_upTo hcs'
  have hrun' : State.run? {} (Token.scan (String.ofList text)) = some st := by
    rwa [Token.scan, String.toList_ofList]
  obtain ⟨hne, hsorted, hfollow⟩ := describe_expected hrun' refused
  have hstart : tok.span.start = text.length := by rw [hspan]
  refine ⟨⟨Nat.le_of_lt hlt, hle⟩, fun hnone => absurd hnone (Option.some_ne_none _), ?_,
    hne, hsorted, hbefore ▸ hfollow⟩
  rintro _ ⟨⟩
  refine ⟨?_, (span_text hmem).symm, ?_, ?_⟩
  · rw [hst.text_eq]
    exact fun hempty => List.cons_ne_nil _ _ (String.ofList_eq_empty_iff.mp hempty)
  · rw [hbefore]
    exact viable_of_run hrun'
  · rw [hupto, hstart]
    exact viable_refused_iff hcs hst hrun hn

/-- **Syntax errors are reported at the first token that cannot be right.** -/
theorem ofSource_firstError {source : String} (h : ¬ Correct source) :
    ∃ span expected found, Program.ofSource source = .error (.expectedFound span expected found) ∧
      FirstError source span expected found := by
  rcases parse_cases source with
    ⟨p, hread, -⟩ | ⟨p, hread, -⟩ | ⟨e, hread, hparse⟩
  · exact absurd (correct_iff_read.mpr ⟨p, hread⟩) h
  · exact absurd (correct_iff_read.mpr ⟨p, hread⟩) h
  · rw [Program.ofSource, hparse]
    rcases read_eq_error hread with ⟨before, tok, after, st, hscan, hrun, hn, rfl⟩ | ⟨st, hrun, rfl⟩
    · exact ⟨_, _, _, rfl, firstError_atToken hscan hrun hn _⟩
    · exact ⟨_, _, _, rfl, firstError_atEnd hrun _⟩

/-- A point after digits is reported, though `print 1.5;` begins with the same text. -/
theorem ofSource_firstError_point :
    let source := "print 1.;"
    let expected := ["')'", "'*'", "'+'", "'-'", "'/'", "';'"]
    ¬ Correct source ∧
      Program.ofSource source = .error (.expectedFound ⟨7, 8⟩ expected (some ".")) ∧
      FirstError source ⟨7, 8⟩ expected (some ".") ∧ AfterDigits source 7 := by
  intro source expected
  have hread : Program.read source = .error
      ⟨some ⟨.stray '.', ⟨7, 8⟩⟩, [.plus, .minus, .star, .slash, .semicolon, .rpar]⟩ := by
    subst source
    rfl
  have hno : ¬ Correct source := by
    intro hcorrect
    obtain ⟨p, hp⟩ := correct_iff_read.mp hcorrect
    cases hread.symm.trans hp
  have hproblem : Program.ofSource source =
      .error (.expectedFound ⟨7, 8⟩ expected (some ".")) := by
    have hdescribe : Terminal.describe [.plus, .minus, .star, .slash, .semicolon, .rpar] =
        expected := by decide
    rw [Program.ofSource, Program.parse, hread, ← hdescribe]
    rfl
  obtain ⟨span, expected', found, heq, hfirst⟩ := ofSource_firstError hno
  rw [hproblem] at heq
  cases heq
  have hdigits : AfterDigits source 7 :=
    ⟨⟨.numeral "1", ⟨6, 7⟩⟩, by decide, "1", rfl, by decide, rfl⟩
  exact ⟨hno, hproblem, hfirst, hdigits⟩

end Grammar

end NumCheck
