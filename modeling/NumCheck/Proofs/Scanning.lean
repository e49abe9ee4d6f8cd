import NumCheck.Proofs.Lexing
import NumCheck.Proofs.Relocation

/-!
# Cutting a source between tokens

The scanner goes through a source from left to right and takes one *chunk* after the other: a
token, a comment, or a single blank. What it takes depends on what comes after it only as far as
the chunk could go on, so a source can be cut where a chunk ends, and the parts can be scanned one
by one. `Cut text rest` says that a chunk ends after `text`, if `rest` comes next.

At such a place what comes next can also be replaced. It is enough that its first character stays
the same; only after digits a point says too little, because a digit after it would make
all of this one numeral.

## What is proved

* `Cut.scanFrom`: the tokens before and after a cut.
* `scanFrom_eq_append_cons`: each token stands between two cuts.
* `Cut.next`: what can be changed after a cut.
* `cut_newline`: a newline ends everything.
* `lexemes_intercalate`: lexemes with blanks between them are scanned as they are.
-/

namespace NumCheck

/-- Moving a text by `k` characters to the right. -/
def Relocation.shift (k : Nat) : Relocation := ⟨(· + k), (· + k)⟩

theorem Relocation.span_shift (k : Nat) : (Relocation.shift k).span = Span.shift k := rfl

namespace Grammar

/-! ### Chunks -/

/-- With which characters a chunk can go on after `c`. -/
def Goes (c : Char) (more : List Char) : Prop :=
  match kind c with
  | .blank | .other => more = []
  | k => k.GoesOn c more

/-- The chunk at the head of `c :: rest`. -/
def chunk (c : Char) (rest : List Char) : List Char :=
  match kind c with
  | .blank | .other => [c]
  | k => k.text c rest

/-- The lexeme of a chunk that begins with `c`. -/
def chunkLexeme? (c : Char) (text : List Char) : Option Lexeme :=
  match kind c with
  | .other => some (.stray c)
  | k => k.lexeme? text

/-- A chunk goes on as it may, and as long as it may. -/
theorem exists_chunk (c : Char) (rest : List Char) :
    ∃ more, chunk c rest = c :: more ∧ more <+: rest ∧ Goes c more ∧
      ∀ other, other <+: rest → Goes c other → other.length ≤ more.length := by
  have hone : ∃ more, [c] = c :: more ∧ more <+: rest ∧ more = [] ∧
      ∀ other, other <+: rest → other = [] → other.length ≤ more.length :=
    ⟨[], rfl, List.nil_prefix, rfl, fun other _ ho => Nat.le_of_eq (congrArg List.length ho)⟩
  unfold chunk Goes
  cases hk : kind c with
  | blank => exact hone
  | other => exact hone
  | _ =>
    have ht := text_eq_cons (c := c) (by rw [hk]; nofun) rest
    rw [hk] at ht
    exact ht

theorem chunk_eq_iff {c : Char} {more rest : List Char} :
    chunk c rest = c :: more ↔ more <+: rest ∧ Goes c more ∧
      ∀ other, other <+: rest → Goes c other → other.length ≤ more.length := by
  obtain ⟨more', hc, hp', hg', hl'⟩ := exists_chunk c rest
  rw [hc, List.cons.injEq, and_iff_right rfl]
  constructor
  · rintro rfl
    exact ⟨hp', hg', hl'⟩
  · rintro ⟨hp, hg, hl⟩
    have hlen : more'.length = more.length := Nat.le_antisymm (hl _ hp' hg') (hl' _ hp hg)
    rw [List.prefix_iff_eq_take.mp hp', hlen, ← List.prefix_iff_eq_take.mp hp]

theorem first?_chunk (c : Char) (rest : List Char) :
    Lexeme.first? c rest = chunkLexeme? c (chunk c rest) := by
  rw [first?_eq, chunkLexeme?, chunk]
  cases kind c <;> rfl

/-- The text of a lexeme is its chunk. -/
theorem text_of_chunkLexeme? {c : Char} {more : List Char} {l : Lexeme} (hg : Goes c more)
    (h : chunkLexeme? c (c :: more) = some l) : l.text = String.ofList (c :: more) := by
  unfold Goes at hg
  unfold chunkLexeme? at h
  have hk := kind_of c
  generalize kind c = k at hk hg h
  cases hk with
  | blank => cases h
  | hash => cases h
  | letter =>
    cases h
    rfl
  | digit =>
    cases h
    rfl
  | symbol hs =>
    cases h
    rw [show more = [] from hg, hs]
    rfl
  | other =>
    cases h
    rw [show more = [] from hg]
    rfl

/-- The text of a numeral. -/
theorem numeral_of_chunkLexeme? {c : Char} {more : List Char} {digits : String} (hg : Goes c more)
    (h : chunkLexeme? c (c :: more) = some (.numeral digits)) : Numeral (c :: more) := by
  unfold Goes at hg
  unfold chunkLexeme? at h
  cases hk : kind c with
  | digit =>
    rw [hk] at hg
    exact hg
  | _ => simp [hk, Kind.lexeme?] at h

/-! ### Where tokens stand -/

theorem scanFrom_skip (pos skip : Nat) (cs : List Char) :
    Token.scanFrom pos skip cs = Token.scanFrom (pos + skip) 0 (cs.drop skip) := by
  induction cs generalizing pos skip with
  | nil => cases skip <;> rfl
  | cons c rest ih =>
    cases skip with
    | zero => rfl
    | succ skip =>
      rw [Token.scanFrom, ih, List.drop_succ_cons]
      congr 1
      omega

theorem scanFrom_shift (k pos skip : Nat) (cs : List Char) :
    Token.scanFrom (pos + k) skip cs =
      (Token.scanFrom pos skip cs).map (Token.move (.shift k)) := by
  induction cs generalizing pos skip with
  | nil => cases skip <;> rfl
  | cons c rest ih =>
    cases skip with
    | succ skip =>
      rw [Token.scanFrom, Token.scanFrom, ← ih]
      congr 1
      omega
    | zero =>
      rw [Token.scanFrom, Token.scanFrom, Nat.add_right_comm]
      cases Lexeme.first? c rest with
      | none => exact ih _ _
      | some l =>
        dsimp only
        rw [ih, List.map_cons, Token.move, Relocation.span_shift, Span.shift, Nat.add_right_comm]

/-- A chunk without a lexeme is layout, which the scanner skips. -/
theorem layoutRest_chunk {c : Char} {more rest : List Char}
    (h : chunk c (more ++ rest) = c :: more) (hl : chunkLexeme? c (c :: more) = none) :
    Token.layoutRest c (more ++ rest) = more.length := by
  unfold chunkLexeme? at hl
  unfold chunk at h
  have hk := kind_of c
  generalize kind c = k at hk hl h
  cases hk with
  | blank hb =>
    have hm : [] = more := (List.cons.inj h).2
    rw [← hm, Token.layoutRest, if_neg]
    · rfl
    · intro hh
      rw [beq_iff_eq.mp hh] at hb
      cases hb
  | hash hh =>
    rw [Token.layoutRest, if_pos (beq_iff_eq.mpr hh)]
    exact congrArg List.length (List.cons.inj h).2
  | letter => cases hl
  | digit => cases hl
  | symbol => cases hl
  | other => cases hl

/-- The scanner takes a chunk, and then what comes after it. -/
theorem scanFrom_chunk {c : Char} {more rest : List Char}
    (h : chunk c (more ++ rest) = c :: more) (pos : Nat) :
    Token.scanFrom pos 0 (c :: (more ++ rest)) =
      ((chunkLexeme? c (c :: more)).map fun l => ⟨l, ⟨pos, pos + (more.length + 1)⟩⟩).toList ++
        Token.scanFrom (pos + (more.length + 1)) 0 rest := by
  have hskip : Token.scanFrom (pos + 1) more.length (more ++ rest) =
      Token.scanFrom (pos + (more.length + 1)) 0 rest := by
    rw [scanFrom_skip, List.drop_left]
    congr 1
    omega
  rw [Token.scanFrom, first?_chunk, h]
  cases hl : chunkLexeme? c (c :: more) with
  | none =>
    dsimp only
    rw [layoutRest_chunk h hl, hskip]
    rfl
  | some l =>
    have hlen : l.length = more.length + 1 := by
      rw [Lexeme.length, text_of_chunkLexeme? (chunk_eq_iff.mp h).2.1 hl, String.length_ofList,
        List.length_cons]
    dsimp only
    rw [hlen, Nat.add_sub_cancel, hskip]
    rfl

/-! ### Cuts -/

/-- A chunk ends after `text`, if `rest` comes next. -/
inductive Cut : List Char → List Char → Prop where
  /-- Nothing has been taken. -/
  | nil {rest : List Char} : Cut [] rest
  /-- A chunk, and then others. -/
  | cons {c : Char} {more text rest : List Char} : chunk c (more ++ (text ++ rest)) = c :: more →
      Cut text rest → Cut (c :: (more ++ text)) rest

theorem chunk_of_append {c : Char} {more rest after : List Char}
    (h : chunk c (more ++ (rest ++ after)) = c :: more) : chunk c (more ++ rest) = c :: more := by
  obtain ⟨-, hg, hl⟩ := chunk_eq_iff.mp h
  rw [← List.append_assoc] at hl
  exact chunk_eq_iff.mpr ⟨List.prefix_append _ _, hg,
    fun other ho hgo => hl other (ho.trans (List.prefix_append _ _)) hgo⟩

/-- A cut stays one if less comes after it. -/
theorem Cut.of_append {text rest after : List Char} (h : Cut text (rest ++ after)) :
    Cut text rest := by
  generalize hr : rest ++ after = r at h
  induction h with
  | nil => exact .nil
  | cons hc _ ih =>
    subst hr
    rw [← List.append_assoc _ rest] at hc
    exact .cons (chunk_of_append hc) (ih rfl)

theorem Cut.append {text text' rest : List Char} (h : Cut text (text' ++ rest))
    (h' : Cut text' rest) : Cut (text ++ text') rest := by
  generalize hr : text' ++ rest = r at h
  induction h with
  | nil => exact h'
  | cons hc _ ih =>
    subst hr
    rw [← List.append_assoc _ text'] at hc
    rw [List.cons_append, List.append_assoc]
    exact .cons hc (ih rfl)

/-- The tokens of a text with a cut are those before it and those after it. -/
theorem Cut.scanFrom {text rest : List Char} (h : Cut text rest) (pos : Nat) :
    Token.scanFrom pos 0 (text ++ rest) =
      Token.scanFrom pos 0 text ++ Token.scanFrom (pos + text.length) 0 rest := by
  induction h generalizing pos with
  | nil => rfl
  | @cons c more text rest hc _ ih =>
    rw [List.cons_append, List.append_assoc, scanFrom_chunk hc, scanFrom_chunk (chunk_of_append hc),
      ih, List.append_assoc, List.length_cons, List.length_append]
    congr 3
    omega

/-- Where a token stands in a text: the text before it, its first character, its other ones, and
the text after it. -/
structure Stands (tok : Token) (pos : Nat) (text : List Char) (c : Char) (more rest : List Char) :
    Prop where
  /-- A chunk ends before it. -/
  cut : Cut text (c :: (more ++ rest))
  /-- It is a chunk. -/
  isChunk : chunk c (more ++ rest) = c :: more
  /-- Its lexeme. -/
  lexeme : chunkLexeme? c (c :: more) = some tok.lexeme
  /-- Its place. -/
  span : tok.span = ⟨pos + text.length, pos + text.length + (more.length + 1)⟩

/-- Of what a chunk and the text after it give, something is the first of it or comes later. -/
theorem toList_append_eq {α : Type} {o : Option α} {l before after : List α} {x : α}
    (h : o.toList ++ l = before ++ x :: after) :
    (o = some x ∧ before = [] ∧ after = l) ∨
      ∃ before', before = o.toList ++ before' ∧ l = before' ++ x :: after := by
  cases o with
  | none => exact .inr ⟨before, rfl, h⟩
  | some y =>
    cases before with
    | nil =>
      obtain ⟨rfl, rfl⟩ := List.cons.inj h
      exact .inl ⟨rfl, rfl, rfl⟩
    | cons z before =>
      obtain ⟨rfl, hl⟩ := List.cons.inj h
      exact .inr ⟨before, rfl, hl⟩

/-- Each token of a text stands somewhere, after the tokens of what comes before it and before those
of what comes after it. -/
theorem scanFrom_eq_append_cons {pos : Nat} {cs : List Char} {before after : List Token}
    {tok : Token} (h : Token.scanFrom pos 0 cs = before ++ tok :: after) :
    ∃ text c more rest, cs = text ++ c :: (more ++ rest) ∧ Stands tok pos text c more rest ∧
      before = Token.scanFrom pos 0 text ∧
      after = Token.scanFrom (pos + text.length + (more.length + 1)) 0 rest := by
  match cs with
  | [] => exact absurd h (by simp [Token.scanFrom])
  | c :: cs =>
    obtain ⟨more, hc, ⟨rest, rfl⟩, -⟩ := exists_chunk c cs
    rw [scanFrom_chunk hc] at h
    rcases toList_append_eq h with ⟨hl, rfl, rfl⟩ | ⟨before', rfl, hrest⟩
    · obtain ⟨l, hl', rfl⟩ := Option.map_eq_some_iff.mp hl
      exact ⟨[], c, more, rest, rfl, ⟨.nil, hc, hl', rfl⟩, rfl, rfl⟩
    · obtain ⟨text, c', more', rest', rfl, hst, rfl, rfl⟩ := scanFrom_eq_append_cons hrest
      have hlen : pos + (c :: (more ++ text)).length = pos + (more.length + 1) + text.length := by
        rw [List.length_cons, List.length_append]
        omega
      refine ⟨c :: (more ++ text), c', more', rest', by simp,
        ⟨.cons hc hst.cut, hst.isChunk, hst.lexeme, ?_⟩, ?_, ?_⟩
      · rw [hst.span, hlen]
      · rw [scanFrom_chunk (chunk_of_append hc)]
      · rw [hlen]
  termination_by cs.length

/-- A chunk ends after a token. -/
theorem Stands.cut_after {tok : Token} {pos : Nat} {text : List Char} {c : Char}
    {more rest : List Char} (h : Stands tok pos text c more rest) :
    Cut (text ++ c :: more) rest := by
  have hc : Cut (c :: (more ++ [])) rest := .cons h.isChunk .nil
  rw [List.append_nil] at hc
  exact Cut.append h.cut hc

/-! ### What comes after a cut -/

theorem Numeral.digit_or_point {cs : List Char} (h : Numeral cs) : ∀ x ∈ cs, Digit x ∨ x = '.' := by
  rcases h with ⟨-, h⟩ | ⟨whole, fraction, rfl, ⟨-, hw⟩, -, hf⟩
  · exact fun x hx => .inl (h x hx)
  · intro x hx
    rcases List.mem_append.mp hx with hx | hx
    · exact .inl (hw x hx)
    · rcases List.mem_cons.mp hx with hx | hx
      · exact .inr hx
      · exact .inl (hf x hx)

theorem Numeral.fraction {whole fraction : List Char} (hne : whole ≠ [])
    (hw : ∀ x ∈ whole, Digit x) (hfne : fraction ≠ []) (hf : ∀ x ∈ fraction, Digit x) :
    Numeral (whole ++ '.' :: fraction) :=
  .inr ⟨whole, fraction, rfl, ⟨hne, hw⟩, hfne, hf⟩

theorem prefix_append_cons (cs more : List Char) (d : Char) : cs ++ [d] <+: cs ++ d :: more :=
  (List.prefix_append_right_inj cs).mpr (List.prefix_append [d] more)

/-- A numeral that goes on can also end one character later, unless this is a point after digits;
then it can end after the digit that follows. -/
theorem Numeral.one_more {cs more : List Char} {d : Char} (hne : cs ≠ [])
    (h : Numeral (cs ++ d :: more)) :
    Numeral (cs ++ [d]) ∨
      d = '.' ∧ (∀ x ∈ cs, Digit x) ∧ ∃ z m, more = z :: m ∧ Numeral (cs ++ ['.', z]) := by
  have hne' {cs : List Char} : cs ++ [d] ≠ [] := by simp
  rcases h with ⟨-, h⟩ | ⟨whole, fraction, hw, ⟨hwne, hwd⟩, hfne, hfd⟩
  · exact .inl (.inl ⟨hne', fun x hx => h x ((prefix_append_cons cs more d).subset hx)⟩)
  · have hpoint (hc : cs = whole) (hd : d :: more = '.' :: fraction) :
        d = '.' ∧ (∀ x ∈ cs, Digit x) ∧ ∃ z m, more = z :: m ∧ Numeral (cs ++ ['.', z]) := by
      obtain ⟨rfl, rfl⟩ := List.cons.inj hd
      obtain ⟨z, m, rfl⟩ := List.exists_cons_of_ne_nil hfne
      subst hc
      refine ⟨rfl, hwd, z, m, rfl, .fraction hne hwd (by simp) fun x hx => ?_⟩
      rw [List.mem_singleton.mp hx]
      exact hfd z List.mem_cons_self
    -- the point is after `d`, at it, or before it
    rcases List.append_eq_append_iff.mp hw with ⟨as, rfl, hd⟩ | ⟨bs, rfl, hd⟩
    · cases as with
      | nil => exact .inr (hpoint (List.append_nil cs).symm hd)
      | cons a as =>
        obtain ⟨rfl, -⟩ := List.cons.inj hd
        exact .inl (.inl ⟨hne', fun x hx => hwd x ((prefix_append_cons cs as d).subset hx)⟩)
    · cases bs with
      | nil => exact .inr (hpoint (List.append_nil whole) hd.symm)
      | cons b bs =>
        obtain ⟨rfl, rfl⟩ := List.cons.inj hd
        rw [List.append_assoc, List.cons_append]
        exact .inl (.fraction hwne hwd hne' fun x hx =>
          hfd x ((prefix_append_cons bs more d).subset hx))

/-- A chunk that goes on can also end one character later, unless this is a point after digits;
then it can end after the digit that follows. -/
theorem Goes.one_more {c d : Char} {cs more : List Char} (h : Goes c (cs ++ d :: more)) :
    Goes c (cs ++ [d]) ∨
      d = '.' ∧ (∀ x ∈ c :: cs, x.isDigit = true) ∧
        ∃ z m, more = z :: m ∧ Goes c (cs ++ ['.', z]) := by
  have hone : ¬ cs ++ d :: more = [] := by simp
  have hsub {x : Char} (hx : x ∈ cs ++ [d]) : x ∈ cs ++ d :: more :=
    (prefix_append_cons cs more d).subset hx
  unfold Goes at h ⊢
  cases hk : kind c with
  | blank =>
    rw [hk] at h
    exact absurd h hone
  | hash =>
    rw [hk] at h
    exact .inl fun x hx => h x (hsub hx)
  | letter =>
    rw [hk] at h
    exact .inl fun x hx => h x (hsub hx)
  | digit =>
    rw [hk] at h
    have hn : Numeral ((c :: cs) ++ d :: more) := h
    rcases hn.one_more (List.cons_ne_nil c cs) with hd | ⟨rfl, hd, z, m, rfl, hz⟩
    · exact .inl hd
    · exact .inr ⟨rfl, fun x hx => digit_iff.mp (hd x hx), z, m, rfl, hz⟩
  | symbol s =>
    rw [hk] at h
    exact absurd h hone
  | other =>
    rw [hk] at h
    exact absurd h hone

/-- What stands at the head of a text may look one character beyond `text`. -/
theorem prefix_of_prefix_cons {cs text rest rest' : List Char} {d : Char}
    (h : cs <+: text ++ d :: rest') (hl : cs.length ≤ text.length + 1) :
    cs <+: text ++ d :: rest := by
  refine List.IsPrefix.trans ?_ (prefix_append_cons text rest d)
  refine List.prefix_of_prefix_length_le h (prefix_append_cons text rest' d) ?_
  rw [List.length_append]
  exact hl

/-- Digits end at the end of `text`, where `rest` comes next. -/
def DigitsEnd (text rest : List Char) : Prop :=
  ∃ before c more, text = before ++ c :: more ∧ Cut before (c :: (more ++ rest)) ∧
    chunk c (more ++ rest) = c :: more ∧ ∀ x ∈ c :: more, x.isDigit = true

/-- A chunk goes on in the same way if what comes after `text` begins with the same character. -/
theorem chunk_next {c d : Char} {more text rest : List Char}
    (h : chunk c (more ++ (text ++ d :: rest)) = c :: more) (rest' : List Char) :
    chunk c (more ++ (text ++ d :: rest')) = c :: more ∨
      d = '.' ∧ text = [] ∧ ∀ x ∈ c :: more, x.isDigit = true := by
  obtain ⟨-, hg, hl⟩ := chunk_eq_iff.mp h
  by_cases hpoint : d = '.' ∧ text = [] ∧ ∀ x ∈ c :: more, x.isDigit = true
  · exact .inr hpoint
  refine .inl (chunk_eq_iff.mpr ⟨List.prefix_append _ _, hg, fun other ho hgo => ?_⟩)
  by_contra hlt
  -- a longer chunk would take the next one or two characters, which are the same as before
  obtain ⟨tail, rfl⟩ : more <+: other :=
    List.prefix_of_prefix_length_le (List.prefix_append _ _) ho (by omega)
  have htail := (List.prefix_append_right_inj more).mp ho
  cases tail with
  | nil => simp at hlt
  | cons y tail =>
    have hsame {cs : List Char} (hcs : cs <+: y :: tail) (hlen : cs.length ≤ text.length + 1)
        (hne : cs ≠ []) : ¬ Goes c (more ++ cs) := by
      intro hgoes
      have hle := hl (more ++ cs)
        ((List.prefix_append_right_inj more).mpr (prefix_of_prefix_cons (hcs.trans htail) hlen))
        hgoes
      have hpos := List.length_pos_iff.mpr hne
      rw [List.length_append] at hle
      omega
    rcases hgo.one_more with hy | ⟨rfl, hdigits, z, m, rfl, hz⟩
    · exact hsame (List.prefix_append [y] tail) (by simp) (by simp) hy
    · cases text with
      | nil =>
        obtain ⟨hd, -⟩ := List.cons_prefix_cons.mp htail
        exact hpoint ⟨hd.symm, rfl, hdigits⟩
      | cons x text => exact hsame (List.prefix_append ['.', z] m) (by simp) (by simp) hz

/-- What comes after a cut can be changed behind its first character, unless this is a point after
digits. -/
theorem Cut.next {text rest : List Char} {d : Char} (h : Cut text (d :: rest)) (rest' : List Char) :
    Cut text (d :: rest') ∨ d = '.' ∧ DigitsEnd text (d :: rest) := by
  generalize hr : d :: rest = r at h
  induction h with
  | nil => exact .inl .nil
  | @cons c more text r hc hcut ih =>
    subst hr
    rcases ih rfl with hnext | ⟨hd, before, c', more', rfl, hbefore, hchunk, hdigits⟩
    · rcases chunk_next hc rest' with hc' | ⟨hd, rfl, hdigits⟩
      · exact .inl (.cons hc' hnext)
      · rw [List.append_nil]
        exact .inr ⟨hd, [], c, more, rfl, .nil, hc, hdigits⟩
    · refine .inr ⟨hd, c :: (more ++ before), c', more', by simp, .cons ?_ hbefore, hchunk, hdigits⟩
      simpa using hc

/-- A point is needed to change what stands before a cut. -/
theorem Cut.next_of_ne {text rest : List Char} {d : Char} (h : Cut text (d :: rest)) (hd : d ≠ '.')
    (rest' : List Char) : Cut text (d :: rest') :=
  (h.next rest').resolve_right fun hpoint => hd hpoint.1

/-! ### What ends a chunk -/

/-- The characters with which a chunk goes on: those of words and numerals, and what is left of a
line in a comment. -/
theorem Goes.mem {c x : Char} {more : List Char} (h : Goes c more) (hx : x ∈ more) :
    isWordPart x = true ∨ x = '.' ∨ c = '#' ∧ x ≠ '\n' := by
  have hnil : ¬ more = [] := List.ne_nil_of_mem hx
  unfold Goes at h
  have hk := kind_of c
  generalize kind c = k at h hk
  cases hk with
  | blank => exact absurd h hnil
  | hash hc => exact .inr (.inr ⟨hc, bne_iff_ne.mp (h x hx)⟩)
  | letter => exact .inl (h x hx)
  | digit =>
    rcases Numeral.digit_or_point h x (List.mem_cons_of_mem c hx) with hd | hd
    · exact .inl (wordPart_iff.mp (.inr hd))
    · exact .inr (.inl hd)
  | symbol => exact absurd h hnil
  | other => exact absurd h hnil

/-- Before a newline there is always a cut. -/
theorem cut_newline (text rest : List Char) : Cut text ('\n' :: rest) := by
  match text with
  | [] => exact .nil
  | c :: text =>
    obtain ⟨more, hc, hp, hg, -⟩ := exists_chunk c (text ++ '\n' :: rest)
    obtain ⟨text', rfl⟩ : more <+: text := by
      obtain ⟨rest', hrest⟩ := hp
      rcases List.append_eq_append_iff.mp hrest with ⟨as, rfl, -⟩ | ⟨bs, rfl, hn⟩
      · exact List.prefix_append _ _
      · cases bs with
        | nil => exact ⟨[], by simp⟩
        | cons b bs =>
          obtain ⟨rfl, -⟩ := List.cons.inj hn
          have hmem := hg.mem (List.mem_append_right text List.mem_cons_self)
          simp [isWordPart] at hmem
    rw [List.append_assoc] at hc
    exact .cons hc (cut_newline text' rest)
  termination_by text.length

/-- A character with which no token goes on. -/
def EndsToken (d : Char) : Prop := isWordPart d = false ∧ d ≠ '.'

theorem Goes.not_mem {c d : Char} {more : List Char} (h : Goes c more) (hc : c ≠ '#')
    (hd : EndsToken d) : d ∉ more := by
  intro hn
  rcases h.mem hn with hw | hp | ⟨hh, -⟩
  · rw [hd.1] at hw
    cases hw
  · exact hd.2 hp
  · exact hc hh

/-- A text that a chunk can have is one, if what comes next cannot belong to it. -/
theorem chunk_of_goes {c : Char} {more rest : List Char} (h : Goes c more) (hc : c ≠ '#')
    (hr : ∀ d ∈ rest.head?, EndsToken d) : chunk c (more ++ rest) = c :: more := by
  refine chunk_eq_iff.mpr ⟨List.prefix_append _ _, h, fun other ho hgo => ?_⟩
  by_contra hlt
  obtain ⟨tail, rfl⟩ : more <+: other :=
    List.prefix_of_prefix_length_le (List.prefix_append _ _) ho (by omega)
  cases tail with
  | nil => simp at hlt
  | cons y tail =>
    obtain ⟨rest', rfl⟩ := (List.prefix_append_right_inj more).mp ho
    exact hgo.not_mem hc (hr y rfl) (List.mem_append_right more List.mem_cons_self)

/-- A spelling of a piece is a chunk. -/
theorem Spells.chunk {t : Piece} {text : List Char} (h : Spells t text) :
    ∃ c more, text = c :: more ∧ Goes c more ∧ c ≠ '#' ∧
      chunkLexeme? c (c :: more) = some t.lexeme := by
  obtain ⟨c, more, rfl⟩ := List.exists_cons_of_ne_nil (Matches.ne_nil (.inr ⟨t, h⟩))
  obtain ⟨hg, hl⟩ := h.goesOn
  have hk := kind_of c
  refine ⟨c, more, rfl, ?_, ?_, ?_⟩
  · unfold Goes
    generalize kind c = k at hg hl hk
    cases hk with
    | blank => cases hl
    | other => cases hl
    | _ => exact hg
  · rintro rfl
    cases hl
  · unfold chunkLexeme?
    generalize kind c = k at hl hk
    cases hk with
    | other => cases hl
    | _ => exact hl

/-- A spelling of a piece is scanned as this piece, if what comes next cannot belong to it. -/
theorem Spells.scanFrom {t : Piece} {text rest : List Char} (h : Spells t text)
    (hr : ∀ d ∈ rest.head?, EndsToken d) (pos : Nat) :
    Token.scanFrom pos 0 (text ++ rest) =
      ⟨t.lexeme, ⟨pos, pos + text.length⟩⟩ :: Token.scanFrom (pos + text.length) 0 rest := by
  obtain ⟨c, more, rfl, hg, hc, hl⟩ := h.chunk
  rw [List.cons_append, scanFrom_chunk (chunk_of_goes hg hc hr), hl]
  rfl

/-- The lexeme of a piece that can be spelt, by its text. -/
def Spelt (l : Lexeme) : Prop := ∃ t, Spells t l.text.toList ∧ t.lexeme = l

theorem spelt_symbol (s : Symbol) : Spelt (.symbol s) :=
  ⟨.symbol s, by simpa [Lexeme.text] using Spells.symbol s, rfl⟩

theorem lexemes_blank (cs : List Char) : lexemes (' ' :: cs) = lexemes cs :=
  lexemes_cons ' ' cs

theorem lexemes_newline (cs : List Char) : lexemes ('\n' :: cs) = lexemes cs :=
  lexemes_cons '\n' cs

theorem Spells.lexemes {t : Piece} {text rest : List Char} (h : Spells t text)
    (hr : ∀ d ∈ rest.head?, EndsToken d) :
    lexemes (text ++ rest) = t.lexeme :: lexemes rest := by
  rw [Grammar.lexemes, h.scanFrom hr, List.map_cons, map_lexeme_scanFrom, List.drop_zero]

/-- Lexemes with a blank between any two of them are scanned as they are. -/
theorem lexemes_intercalate {ls : List Lexeme} (h : ∀ l ∈ ls, Spelt l) :
    lexemes (" ".intercalate (ls.map Lexeme.text)).toList = ls := by
  induction ls with
  | nil => rfl
  | cons l ls ih =>
    obtain ⟨t, ht, htl⟩ := h l List.mem_cons_self
    have hrest := ih fun l' hl' => h l' (List.mem_cons_of_mem l hl')
    cases ls with
    | nil =>
      have hnil : ∀ d ∈ ([] : List Char).head?, EndsToken d := nofun
      have hs := ht.lexemes hnil
      rw [List.append_nil, htl] at hs
      rw [List.map_cons, List.map_nil, String.intercalate_singleton, hs]
      rfl
    | cons l' ls =>
      have hblank : ∀ d ∈ (' ' :: (" ".intercalate ((l' :: ls).map Lexeme.text)).toList).head?,
          EndsToken d := by
        rintro d ⟨⟩
        exact ⟨rfl, by decide⟩
      have hs := ht.lexemes hblank
      rw [htl, lexemes_blank, hrest] at hs
      rw [List.map_cons, List.map_cons, String.intercalate_cons_cons, ← List.map_cons]
      simpa using hs

/-- On a new line, lexemes go on after any text. -/
theorem scan_newline (text : String) {ls : List Lexeme} (h : ∀ l ∈ ls, Spelt l) :
    ∃ toks : List Token, toks.map Token.lexeme = ls ∧
      Token.scan (text ++ "\n" ++ " ".intercalate (ls.map Lexeme.text)) =
        Token.scan text ++ toks := by
  let more := (" ".intercalate (ls.map Lexeme.text)).toList
  refine ⟨Token.scanFrom (0 + text.toList.length) 0 ('\n' :: more), ?_, ?_⟩
  · rw [map_lexeme_scanFrom, List.drop_zero, lexemes_newline, lexemes_intercalate h]
  · rw [Token.scan, String.toList_append, String.toList_append, List.append_assoc]
    exact (cut_newline text.toList more).scanFrom 0

/-! ### Places of tokens -/

/-- The text of a token is the part of the source that it takes. -/
theorem Stands.text_eq {tok : Token} {pos : Nat} {text : List Char} {c : Char}
    {more rest : List Char} (h : Stands tok pos text c more rest) :
    tok.lexeme.text = String.ofList (c :: more) :=
  text_of_chunkLexeme? (chunk_eq_iff.mp h.isChunk).2.1 h.lexeme

theorem mem_scanFrom {pos : Nat} {cs : List Char} {tok : Token}
    (h : tok ∈ Token.scanFrom pos 0 cs) :
    ∃ text c more rest, cs = text ++ c :: (more ++ rest) ∧ Stands tok pos text c more rest := by
  obtain ⟨before, after, hs⟩ := List.append_of_mem h
  obtain ⟨text, c, more, rest, hcs, hst, -⟩ := scanFrom_eq_append_cons hs
  exact ⟨text, c, more, rest, hcs, hst⟩

/-- The text of a span is what stands there. -/
theorem text_slice (before text after : List Char) (source : String)
    (h : source.toList = before ++ (text ++ after)) :
    Span.text ⟨before.length, before.length + text.length⟩ source = String.ofList text := by
  rw [Span.text, h, ← List.append_assoc, ← List.length_append, List.take_left, List.drop_left]

/-- The text at the span of a token is that of the token. -/
theorem span_text {source : String} {tok : Token} (h : tok ∈ Token.scan source) :
    tok.span.text source = tok.lexeme.text := by
  obtain ⟨text, c, more, rest, hcs, hst⟩ := mem_scanFrom h
  rw [hst.text_eq, hst.span, Nat.zero_add]
  exact text_slice text (c :: more) rest source hcs

/-- A numeral among the tokens is one of the grammar. -/
theorem numeral_of_mem_scan {source digits : String} {s : Span}
    (h : ⟨.numeral digits, s⟩ ∈ Token.scan source) : Numeral digits.toList := by
  obtain ⟨text, c, more, rest, hcs, hst⟩ := mem_scanFrom h
  have htext : digits = String.ofList (c :: more) := hst.text_eq
  rw [htext, String.toList_ofList]
  exact numeral_of_chunkLexeme? (chunk_eq_iff.mp hst.isChunk).2.1 hst.lexeme

/-- A token lies in its text and is not empty. -/
theorem scanFrom_bounds {pos : Nat} {cs : List Char} {tok : Token}
    (h : tok ∈ Token.scanFrom pos 0 cs) :
    pos ≤ tok.span.start ∧ tok.span.start < tok.span.stop ∧ tok.span.stop ≤ pos + cs.length := by
  obtain ⟨text, c, more, rest, rfl, hst⟩ := mem_scanFrom h
  rw [hst.span]
  simp
  omega

/-- Tokens follow each other. -/
theorem scanFrom_pairwise (pos : Nat) (cs : List Char) :
    (Token.scanFrom pos 0 cs).Pairwise fun a b => a.span.stop ≤ b.span.start := by
  match cs with
  | [] => exact .nil
  | c :: cs =>
    obtain ⟨more, hc, ⟨rest, rfl⟩, -⟩ := exists_chunk c cs
    rw [scanFrom_chunk hc]
    have hrest := scanFrom_pairwise (pos + (more.length + 1)) rest
    cases chunkLexeme? c (c :: more) with
    | none => exact hrest
    | some l => exact .cons (fun tok htok => (scanFrom_bounds htok).1) hrest
  termination_by cs.length

end Grammar

end NumCheck
