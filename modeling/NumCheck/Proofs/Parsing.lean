import NumCheck.Proofs.Parsing.Soundness

/-!
# The parser accepts the grammar

A source is accepted exactly if it is cut into pieces to its end and these have a derivation that
is not nested too deeply. The tree is then that of the derivation, but for its places.

Derivations know nothing of places, so they are compared with the run of the parser on tokens from
which the places have been dropped, and this run is the image of the real one.

The depth is counted on the tree. That a stack may end sooner than this is not modelled.
-/

namespace NumCheck.Grammar

open NumCheck.Parser (State ListReads)

/-! ### Programs -/

theorem finish_eq_ok_iff {st : State} {l : List Stmt} :
    st.finish = .ok l ↔ st.phase = .statement ∧ st.blocks = [] ∧ l = st.done.reverse := by
  obtain ⟨phase, done, blocks⟩ := st
  cases phase with
  | statement =>
    cases blocks with
    | nil =>
      rw [State.finish, Except.ok.injEq]
      exact ⟨fun h => ⟨rfl, rfl, h.symm⟩, fun h => h.2.2.symm⟩
    | cons b blocks => exact ⟨nofun, fun h => nomatch h.2.1⟩
  | _ => exact ⟨nofun, fun h => nomatch h.1⟩

/-- Without places, lexemes are read to the end exactly if they are those of a derivation. -/
theorem run_bare_iff (ls : List Lexeme) (l : List Stmt) :
    (∃ st, State.run? {} (ls.map fun l => ⟨l, {}⟩) = some st ∧ st.finish = .ok l) ↔
      ∃ ds, ls = (Statement.yieldAll ds).map Piece.lexeme ∧
        Keyed none (Statement.yieldAll ds) ∧ l = Statement.stmts ds := by
  constructor
  · rintro ⟨st, hrun, hfinish⟩
    have hstart : Represents {} [] := .mk [] .nil .statement
    have hprev : StatementStarts none := .inl rfl
    obtain ⟨us, rfl, hk, -, hr⟩ := run_represents hstart (iff_of_true hprev rfl) hrun
    obtain ⟨hphase, hblocks, rfl⟩ := finish_eq_ok_iff.mp hfinish
    rw [List.nil_append] at hr
    cases hr with
    | @mk phase blocks ts us ds hb hp =>
      cases hphase
      cases hblocks
      cases hb
      cases hp
      rw [List.nil_append, List.append_nil] at hk ⊢
      exact ⟨ds, rfl, hk, List.reverse_reverse _⟩
  · rintro ⟨ds, rfl, hk, rfl⟩
    have hrun := (Statement.listReads ds (.inl rfl) hk).run [] []
    rw [show Piece.token = (fun l : Lexeme => (⟨l, {}⟩ : Token)) ∘ Piece.lexeme from rfl,
      ← List.map_map] at hrun
    refine ⟨_, hrun, finish_eq_ok_iff.mpr ⟨rfl, rfl, ?_⟩⟩
    rw [List.append_nil, List.reverse_reverse]

/-- The source has the pieces of the derivation. -/
def Derives (source : String) (ds : List Statement) : Prop :=
  Tokenized none source.toList (Statement.yieldAll ds)

theorem read_eq_ok_iff {source : String} {p : Program} :
    Program.read source = .ok p ↔
      ∃ st l, State.run? {} (Token.scan source) = some st ∧ st.finish = .ok l ∧
        p = ⟨l, ⟨0, source.length⟩⟩ := by
  simp only [← State.run_eq_ok_iff]
  rw [Program.read]
  cases State.run {} (Token.scan source) with
  | error e => exact ⟨nofun, fun ⟨_, _, h, _⟩ => nomatch h⟩
  | ok st =>
    dsimp only
    cases hf : st.finish with
    | error e =>
      refine ⟨nofun, fun ⟨st', l, hst, hfinish, _⟩ => ?_⟩
      cases hst
      cases hf.symm.trans hfinish
    | ok l =>
      constructor
      · intro h
        cases h
        exact ⟨st, l, rfl, hf, rfl⟩
      · rintro ⟨st', l', hst, hfinish, rfl⟩
        cases hst
        cases hf.symm.trans hfinish
        rfl

/-- Dropping places does not change whether the input can end. -/
theorem finish_drop_iff {st : State} {l : List Stmt} :
    (st.move .drop).finish = .ok l ↔
      ∃ l₀, st.finish = .ok l₀ ∧ l = Stmt.mapSpansList (fun _ => {}) l₀ := by
  rw [State.finish_move]
  cases st.finish with
  | error e => exact ⟨nofun, fun ⟨_, h, _⟩ => nomatch h⟩
  | ok l₀ =>
    constructor
    · intro h
      exact ⟨l₀, rfl, (Except.ok.inj h).symm⟩
    · rintro ⟨l₁, hl, rfl⟩
      cases hl
      rfl

theorem run?_lexemes (source : String) :
    State.run? {} ((lexemes source.toList).map fun l => ⟨l, {}⟩) =
      (State.run? {} (Token.scan source)).map (·.move .drop) := by
  rw [State.run?_move, lexemes, List.map_map]
  rfl

/-- What is read are the trees of the derivations. -/
theorem read_iff_derives {source : String} {l : List Stmt} :
    (∃ p, Program.read source = .ok p ∧ p.mapSpans (fun _ => {}) = ⟨l, {}⟩) ↔
      ∃ ds, Derives source ds ∧ l = Statement.stmts ds := by
  have hbare := run_bare_iff (lexemes source.toList) l
  rw [run?_lexemes] at hbare
  simp only [Derives, tokenized_iff, and_assoc]
  refine Iff.trans ⟨?_, ?_⟩ hbare
  · rintro ⟨p, hread, hp⟩
    obtain ⟨st, l₀, hrun, hfinish, rfl⟩ := read_eq_ok_iff.mp hread
    refine ⟨st.move .drop, by rw [hrun]; rfl, finish_drop_iff.mpr ⟨l₀, hfinish, ?_⟩⟩
    exact (congrArg Program.statements hp).symm
  · rintro ⟨st', hrun, hfinish⟩
    obtain ⟨st, hst, rfl⟩ := Option.map_eq_some_iff.mp hrun
    obtain ⟨l₀, hl₀, rfl⟩ := finish_drop_iff.mp hfinish
    exact ⟨_, read_eq_ok_iff.mpr ⟨st, l₀, hst, hl₀, rfl⟩, rfl⟩

/-! ### Tokens that are read -/

/-- Tokens that make statements are read as these. -/
theorem read_of_listReads {source : String} {l : List Stmt} (h : ListReads (Token.scan source) l) :
    Program.read source = .ok ⟨l, ⟨0, source.length⟩⟩ := by
  refine read_eq_ok_iff.mpr ⟨_, l, h.run [] [], finish_eq_ok_iff.mpr ⟨rfl, rfl, ?_⟩, rfl⟩
  rw [List.append_nil, List.reverse_reverse]

/-- Lexemes that make statements without places are read as these, but for the places. -/
theorem listReads_of_lexemes {source : String} {l : List Stmt}
    (h : ListReads ((lexemes source.toList).map fun l => ⟨l, {}⟩) l) :
    ∃ l', ListReads (Token.scan source) l' ∧ Stmt.mapSpansList (fun _ => {}) l' = l := by
  refine ListReads.unmove (m := .drop) h ?_
  rw [lexemes, List.map_map]
  rfl

/-- What is read are statements that the tokens make. -/
theorem listReads_of_read {source : String} {p : Program} (h : Program.read source = .ok p) :
    ListReads (Token.scan source) p.statements := by
  obtain ⟨ds, hds, -⟩ := read_iff_derives.mp ⟨p, h, rfl⟩
  obtain ⟨hl, hk⟩ := tokenized_iff.mp hds
  have hreads := Statement.listReads ds (.inl rfl) hk
  have hlexemes : (lexemes source.toList).map (fun l => (⟨l, {}⟩ : Token)) =
      (Statement.yieldAll ds).map Piece.token := by
    rw [hl, List.map_map]
    rfl
  obtain ⟨l, hlr, -⟩ := listReads_of_lexemes (hlexemes ▸ hreads)
  rw [read_of_listReads hlr] at h
  cases h
  exact hlr

/-! ### Accepted sources -/

/-- How deep the tree of a derivation is nested. -/
def nesting (ds : List Statement) : Nat := Stmt.depthList (Statement.stmts ds)

/-- What the grammar says of the source is what the parser does with it. -/
structure AcceptsGrammar (source : String) : Prop where
  /-- The source has at most one list of pieces. -/
  tokens : ∀ ts ts', Tokenized none source.toList ts → Tokenized none source.toList ts' → ts = ts'
  /-- These have at most one derivation. -/
  derivation : ∀ ds ds', Derives source ds → Derives source ds' → ds = ds'
  /-- The source is accepted if it has a derivation that is not too deep. -/
  accepts : (∃ p, Program.parse source = .ok p) ↔
    ∃ ds, Derives source ds ∧ nesting ds ≤ nestingLimit
  /-- The tree is that of the derivation, but for its places. -/
  tree : ∀ p ds, Program.parse source = .ok p → Derives source ds →
    p.mapSpans (fun _ => {}) = ⟨Statement.stmts ds, {}⟩
  /-- A derivation that is too deep is reported over the whole source. -/
  tooDeep : Program.ofSource source =
      .error (.custom ⟨0, source.length⟩ "Expression nesting too deep") ↔
    ∃ ds, Derives source ds ∧ nestingLimit < nesting ds
  /-- Without a derivation, what is reported is a token or the end of the source. -/
  wrong : (¬ ∃ ds, Derives source ds) →
    ∃ span expected found, Program.ofSource source = .error (.expectedFound span expected found)

/-- A source is accepted, too deep, or not read at all. -/
theorem parse_cases (source : String) :
    (∃ p, Program.read source = .ok p ∧ p.depth ≤ nestingLimit ∧ Program.parse source = .ok p) ∨
    (∃ p, Program.read source = .ok p ∧ nestingLimit < p.depth ∧
      Program.parse source = .error .tooDeep) ∨
    ∃ e, Program.read source = .error e ∧ Program.parse source = .error (.unexpected e) := by
  rw [Program.parse]
  cases Program.read source with
  | error e => exact .inr (.inr ⟨e, rfl, rfl⟩)
  | ok p =>
    by_cases hd : p.depth ≤ nestingLimit
    · exact .inl ⟨p, rfl, hd, if_pos hd⟩
    · exact .inr (.inl ⟨p, rfl, Nat.lt_of_not_le hd, if_neg hd⟩)

theorem parse_eq_ok_iff {source : String} {p : Program} :
    Program.parse source = .ok p ↔ Program.read source = .ok p ∧ p.depth ≤ nestingLimit := by
  rcases parse_cases source with
    ⟨q, hread, hdepth, hparse⟩ | ⟨q, hread, hdepth, hparse⟩ | ⟨e, hread, hparse⟩
  · rw [hparse, hread, Except.ok.injEq, Except.ok.injEq]
    exact ⟨fun h => ⟨h, h ▸ hdepth⟩, fun h => h.1⟩
  · rw [hparse, hread, Except.ok.injEq]
    refine ⟨nofun, fun ⟨h, hle⟩ => ?_⟩
    rw [h] at hdepth
    omega
  · rw [hparse, hread]
    exact ⟨nofun, fun h => nomatch h.1⟩

theorem parse_of_listReads {source : String} {l : List Stmt} (h : ListReads (Token.scan source) l)
    (hd : Stmt.depthList l ≤ nestingLimit) :
    Program.parse source = .ok ⟨l, ⟨0, source.length⟩⟩ :=
  parse_eq_ok_iff.mpr ⟨read_of_listReads h, hd⟩

theorem derives_unique {source : String} {ds ds' : List Statement} (h : Derives source ds)
    (h' : Derives source ds') : ds = ds' :=
  yieldAll_injective (Tokenized.unique h h')

/-- What is read has a derivation, with its tree and of its depth. -/
theorem derives_of_read {source : String} {p : Program} (h : Program.read source = .ok p) :
    ∃ ds, Derives source ds ∧ p.mapSpans (fun _ => {}) = ⟨Statement.stmts ds, {}⟩ ∧
      p.depth = nesting ds := by
  obtain ⟨ds, hd, hstmts⟩ := read_iff_derives.mp ⟨p, h, rfl⟩
  refine ⟨ds, hd, by rw [← hstmts]; rfl, ?_⟩
  rw [nesting, ← hstmts, ← p.depth_mapSpans fun _ => {}]
  rfl

/-- What has a derivation is read. -/
theorem read_of_derives {source : String} {ds : List Statement} (h : Derives source ds) :
    ∃ p, Program.read source = .ok p := by
  obtain ⟨p, hp, -⟩ := read_iff_derives.mpr ⟨ds, h, rfl⟩
  exact ⟨p, hp⟩

/-- **The parser accepts exactly the grammar and builds its derivation.** -/
theorem parse_accepts_grammar (source : String) : AcceptsGrammar source := by
  rcases parse_cases source with
    ⟨p, hread, hdepth, hparse⟩ | ⟨p, hread, hdepth, hparse⟩ | ⟨e, hread, hparse⟩
  · obtain ⟨ds, hds, htree, hnest⟩ := derives_of_read hread
    rw [hnest] at hdepth
    refine ⟨fun _ _ => Tokenized.unique, fun _ _ => derives_unique,
      iff_of_true ⟨p, hparse⟩ ⟨ds, hds, hdepth⟩, ?_, iff_of_false ?_ ?_, ?_⟩
    · intro p' ds' hp' hds'
      cases hparse.symm.trans hp'
      rw [derives_unique hds' hds, htree]
    · rw [Program.ofSource, hparse]
      nofun
    · rintro ⟨ds', hds', hdeep⟩
      rw [derives_unique hds' hds] at hdeep
      omega
    · exact fun hno => absurd ⟨ds, hds⟩ hno
  · obtain ⟨ds, hds, htree, hnest⟩ := derives_of_read hread
    rw [hnest] at hdepth
    refine ⟨fun _ _ => Tokenized.unique, fun _ _ => derives_unique, iff_of_false ?_ ?_, ?_,
      iff_of_true ?_ ⟨ds, hds, hdepth⟩, ?_⟩
    · rintro ⟨p', hp'⟩
      cases hparse.symm.trans hp'
    · rintro ⟨ds', hds', hlimit⟩
      rw [derives_unique hds' hds] at hlimit
      omega
    · intro p' ds' hp'
      cases hparse.symm.trans hp'
    · rw [Program.ofSource, hparse]
      rfl
    · exact fun hno => absurd ⟨ds, hds⟩ hno
  · have hno : ¬ ∃ ds, Derives source ds := by
      rintro ⟨ds, hds⟩
      obtain ⟨p, hp⟩ := read_of_derives hds
      cases hread.symm.trans hp
    have hfound : ∃ span expected found,
        Program.ofSource source = .error (.expectedFound span expected found) := by
      rw [Program.ofSource, hparse]
      obtain ⟨found, expected⟩ := e
      cases found with
      | none => exact ⟨_, _, _, rfl⟩
      | some tok => exact ⟨_, _, _, rfl⟩
    refine ⟨fun _ _ => Tokenized.unique, fun _ _ => derives_unique, iff_of_false ?_ ?_, ?_,
      iff_of_false ?_ ?_, fun _ => hfound⟩
    · rintro ⟨p', hp'⟩
      cases hparse.symm.trans hp'
    · exact fun ⟨ds, hds, _⟩ => hno ⟨ds, hds⟩
    · intro p' ds' hp'
      cases hparse.symm.trans hp'
    · obtain ⟨span, expected, found, hf⟩ := hfound
      rw [hf]
      nofun
    · exact fun ⟨ds, hds, _⟩ => hno ⟨ds, hds⟩

end NumCheck.Grammar
