import NumCheck.Proofs.Parsing
import NumCheck.Proofs.Scanning

/-!
# Layout does not matter

Blanks, or a comment with the newline that ends it, can be put into a source wherever they do not
break a token or a comment. The tokens stay the same, and those behind the place move to the right.
So the result stays the same as well: the tree, the refused token or the refusal of the end, with
new offsets.

Such a place is a cut of the source, but it need not be one any more before what is put there: at
the end of a comment, blanks become part of this comment. Nothing of this gives a token. A text is
*silent* before another one if the scanner goes through it without finding a token, and this is what
a comment with blanks after it still is.

Inside of a token or a comment nothing is claimed: there, a blank may cut a token in two, and a
newline brings the rest of a comment to light. A comment that is put in has to end with its newline.
-/

namespace NumCheck

/-- Opening a gap of `k` characters at `p`: what starts there or later moves, and so does what stops
later. -/
def Relocation.gap (p k : Nat) : Relocation :=
  ⟨fun start => if p ≤ start then start + k else start,
    fun stop => if p < stop then stop + k else stop⟩

/-- What becomes of a result if tokens move and the source gets another length. The tree moves, and
so does a refused token; the end of the source and the span of all of it are given by the length. -/
def Relocation.result (m : Relocation) (length : Nat) :
    Except Problem Program → Except Problem Program
  | .ok p => .ok ⟨Stmt.mapSpansList m.span p.statements, ⟨0, length⟩⟩
  | .error (.expectedFound span expected (some text)) =>
    .error (.expectedFound (m.span span) expected (some text))
  | .error (.expectedFound _ expected none) =>
    .error (.expectedFound ⟨length, length⟩ expected none)
  | .error (.custom _ message) => .error (.custom ⟨0, length⟩ message)
  | .error q => .error q

namespace Grammar

/-! ### Places -/

/-- The place `p` is strictly inside of a comment: there is a `#` before it in its line, and the
line goes on after it. No token has a `#` in it, so the first one of a line always starts a comment,
which takes the rest of the line. -/
def InsideComment (source : String) (p : Nat) : Prop :=
  ∃ before line c rest, source.toList = before ++ '#' :: (line ++ c :: rest) ∧ '\n' ∉ line ∧
    c ≠ '\n' ∧ p = before.length + (line.length + 1)

/-- The place `p` is strictly inside of a token. -/
def InsideToken (source : String) (p : Nat) : Prop :=
  ∃ tok ∈ Token.scan source, tok.span.start < p ∧ p < tok.span.stop

/-- Layout of more than one character is a comment. -/
theorem comment_of_chunkLexeme? {c : Char} {more : List Char} (hg : Goes c more) (hne : more ≠ [])
    (hl : chunkLexeme? c (c :: more) = none) : c = '#' ∧ '\n' ∉ more := by
  unfold Goes at hg
  unfold chunkLexeme? at hl
  have hk := kind_of c
  generalize kind c = k at hg hl hk
  cases hk with
  | blank => exact absurd hg hne
  | hash hc => exact ⟨hc, fun hn => bne_iff_ne.mp (hg '\n' hn) rfl⟩
  | letter => cases hl
  | digit => cases hl
  | symbol => cases hl
  | other => cases hl

/-- A place that is no cut is inside of a token or inside of a comment. -/
theorem cut_or_inside (pos : Nat) (before after : List Char) :
    Cut before after ∨
      (∃ tok ∈ Token.scanFrom pos 0 (before ++ after),
        tok.span.start < pos + before.length ∧ pos + before.length < tok.span.stop) ∨
      ∃ start line c rest, before = start ++ '#' :: line ∧ after = c :: rest ∧ '\n' ∉ line ∧
        c ≠ '\n' := by
  match before with
  | [] => exact .inl .nil
  | c :: before =>
    obtain ⟨more, hc, ⟨rest, hrest⟩, hg, -⟩ := exists_chunk c (before ++ after)
    by_cases hlen : more.length ≤ before.length
    · -- the first chunk ends before the place or at it
      obtain ⟨text, rfl⟩ : more <+: before :=
        List.prefix_of_prefix_length_le ⟨rest, hrest⟩ (List.prefix_append before after) hlen
      rw [List.append_assoc] at hc
      have hplace : pos + (c :: (more ++ text)).length =
          pos + (more.length + 1) + text.length := by
        rw [List.length_cons, List.length_append]
        omega
      rcases cut_or_inside (pos + (more.length + 1)) text after with
        hcut | ⟨tok, htok, hin⟩ | ⟨start, line, d, rest, rfl, hafter, hline, hd⟩
      · exact .inl (.cons hc hcut)
      · refine .inr (.inl ⟨tok, ?_, by rwa [hplace]⟩)
        rw [List.cons_append, List.append_assoc, scanFrom_chunk hc]
        exact List.mem_append_right _ htok
      · exact .inr (.inr ⟨c :: (more ++ start), line, d, rest, by simp, hafter, hline, hd⟩)
    · -- the place is inside of it
      obtain ⟨tail, rfl⟩ : before <+: more :=
        List.prefix_of_prefix_length_le (List.prefix_append before after) ⟨rest, hrest⟩ (by omega)
      obtain rfl : tail ++ rest = after := by
        rw [List.append_assoc] at hrest
        exact List.append_cancel_left hrest
      cases tail with
      | nil => simp at hlen
      | cons d tail =>
        cases hl : chunkLexeme? c (c :: (before ++ d :: tail)) with
        | some l =>
          rw [← List.append_assoc] at hc
          refine .inr (.inl ⟨⟨l, ⟨pos, pos + ((before ++ d :: tail).length + 1)⟩⟩, ?_, ?_⟩)
          · rw [List.cons_append, ← List.append_assoc, scanFrom_chunk hc, hl]
            exact List.mem_cons_self
          · simp
        | none =>
          obtain ⟨rfl, hline⟩ := comment_of_chunkLexeme? hg (by simp) hl
          simp only [List.mem_append, List.mem_cons, not_or] at hline
          exact .inr (.inr ⟨[], before, d, tail ++ rest, rfl, rfl, hline.1, Ne.symm hline.2.1⟩)
  termination_by before.length

/-- A place that is neither inside of a token nor inside of a comment is a cut. -/
theorem cut_of_not_inside {source : String} {before after : List Char}
    (h : source.toList = before ++ after) (htoken : ¬ InsideToken source before.length)
    (hcomment : ¬ InsideComment source before.length) : Cut before after := by
  rcases cut_or_inside 0 before after with hcut | ⟨tok, htok, hin⟩ | hinside
  · exact hcut
  · refine absurd ⟨tok, ?_, by simpa using hin⟩ htoken
    rwa [Token.scan, h]
  · obtain ⟨start, line, c, rest, rfl, rfl, hline, hc⟩ := hinside
    exact absurd ⟨start, line, c, rest, by simp [h], hline, hc, by simp⟩ hcomment

/-! ### Silent texts -/

/-- The scanner finds no token in `text` before `rest`. -/
def Silent (text rest : List Char) : Prop :=
  ∀ pos, Token.scanFrom pos 0 (text ++ rest) = Token.scanFrom (pos + text.length) 0 rest

theorem Silent.append {text text' rest : List Char} (h : Silent text (text' ++ rest))
    (h' : Silent text' rest) : Silent (text ++ text') rest := by
  intro pos
  rw [List.append_assoc, h, h', List.length_append, Nat.add_assoc]

theorem silent_blanks {text : List Char} (h : ∀ c ∈ text, isBlank c = true) (rest : List Char) :
    Silent text rest := by
  induction text with
  | nil => exact fun pos => rfl
  | cons c text ih =>
    obtain ⟨hc, htext⟩ := List.forall_mem_cons.mp h
    have hchunk : chunk c ([] ++ (text ++ rest)) = [c] := by
      rw [chunk, kind_blank hc]
    have hlexeme : chunkLexeme? c [c] = none := by
      rw [chunkLexeme?, kind_blank hc]
      rfl
    intro pos
    have hscan := scanFrom_chunk hchunk pos
    rw [hlexeme] at hscan
    rw [List.cons_append, List.length_cons, Nat.add_comm text.length, ← Nat.add_assoc,
      ← ih htext]
    exact hscan

/-- A line ends before `rest`. -/
def LineEnds (rest : List Char) : Prop := ∀ c ∈ rest.head?, c = '\n'

/-- A comment goes on to the end of its line. -/
theorem chunk_comment_iff {line rest : List Char} :
    chunk '#' (line ++ rest) = '#' :: line ↔ '\n' ∉ line ∧ LineEnds rest := by
  have hchunk : chunk '#' (line ++ rest) = '#' :: (line ++ rest).takeWhile (· != '\n') := rfl
  rw [hchunk, List.cons.injEq, and_iff_right rfl]
  constructor
  · intro h
    have hline : ∀ c ∈ line, (c != '\n') = true := by
      rw [← h]
      exact all_takeWhile
    refine ⟨fun hn => bne_iff_ne.mp (hline _ hn) rfl, fun c hc => ?_⟩
    rw [List.takeWhile_append_of_pos hline, List.append_right_eq_self] at h
    obtain ⟨rest, rfl⟩ := List.head?_eq_some_iff.mp hc
    by_contra hne
    simp [hne] at h
  · rintro ⟨hline, hrest⟩
    have hall : ∀ c ∈ line, (c != '\n') = true := by
      intro c hc
      rw [bne_iff_ne]
      rintro rfl
      exact hline hc
    rw [List.takeWhile_append_of_pos hall, List.append_right_eq_self]
    cases rest with
    | nil => rfl
    | cons c rest => rw [hrest c rfl, List.takeWhile_cons_of_neg (by simp)]

theorem silent_comment {line rest : List Char} (hline : '\n' ∉ line) (hrest : LineEnds rest) :
    Silent ('#' :: line) rest :=
  fun pos => scanFrom_chunk (chunk_comment_iff.mpr ⟨hline, hrest⟩) pos

/-! ### Layout in a cut -/

/-- What can be put between tokens: blanks, or a comment with the newline that ends it. -/
inductive Filler : List Char → Prop where
  /-- Blanks. -/
  | blanks {cs : List Char} : (∀ c ∈ cs, Blank c) → Filler cs
  /-- A comment. -/
  | comment {cs : List Char} : '\n' ∉ cs → Filler ('#' :: (cs ++ ['\n']))

theorem Filler.silent {filler : List Char} (h : Filler filler) (rest : List Char) :
    Silent filler rest := by
  cases h with
  | blanks h => exact silent_blanks (fun c hc => blank_iff.mp (h c hc)) rest
  | @comment cs h =>
    have hcomment : Silent ('#' :: cs) (['\n'] ++ rest) := silent_comment h (by simp [LineEnds])
    exact hcomment.append (silent_blanks (by simp [isBlank]) rest)

/-- A filler goes on in its line until this ends, and after that there are only blanks. -/
theorem Filler.split {filler : List Char} (h : Filler filler) :
    ∃ line blanks, filler = line ++ blanks ∧ '\n' ∉ line ∧ LineEnds blanks ∧
      ∀ c ∈ blanks, isBlank c = true := by
  cases h with
  | blanks h =>
    refine ⟨filler.takeWhile (· != '\n'), filler.dropWhile (· != '\n'),
      List.takeWhile_append_dropWhile.symm, fun hn => ?_, fun c hc => ?_, fun c hc => ?_⟩
    · exact bne_iff_ne.mp (all_takeWhile (p := (· != '\n')) _ hn) rfl
    · have hhead := List.head?_dropWhile_not (· != '\n') filler
      rw [Option.mem_def.mp hc] at hhead
      simpa using hhead
    · exact blank_iff.mp (h c ((List.dropWhile_sublist _).subset hc))
  | @comment cs h =>
    exact ⟨'#' :: cs, ['\n'], rfl, by simp [h], by simp [LineEnds], by simp [isBlank]⟩

/-- At the end of a comment, a filler is part of the comment as far as its line goes. -/
theorem Filler.silent_after_comment {filler line rest : List Char} (h : Filler filler)
    (hline : '\n' ∉ line) (hrest : LineEnds rest) : Silent ('#' :: line ++ filler) rest := by
  obtain ⟨more, blanks, rfl, hmore, hends, hblanks⟩ := h.split
  have hcomment : Silent ('#' :: (line ++ more)) (blanks ++ rest) := by
    refine silent_comment (by simp [hline, hmore]) ?_
    cases blanks with
    | nil => exact hrest
    | cons c blanks => exact hends
  have hsilent := hcomment.append (silent_blanks hblanks rest)
  rwa [List.cons_append, List.append_assoc] at hsilent

theorem Filler.endsToken {filler : List Char} {d : Char} (h : Filler (d :: filler)) :
    EndsToken d := by
  generalize hf : d :: filler = cs at h
  cases h with
  | blanks h =>
    subst hf
    rcases h d List.mem_cons_self with rfl | rfl | rfl | rfl | rfl <;>
      exact ⟨rfl, by decide⟩
  | comment _ =>
    cases hf
    exact ⟨rfl, by decide⟩

/-- A chunk other than a comment stays the same before a character that no token has. -/
theorem chunk_append {c d : Char} {more text : List Char} (h : chunk c (more ++ text) = c :: more)
    (hc : c ≠ '#') (hd : EndsToken d) (rest : List Char) :
    chunk c (more ++ (text ++ d :: rest)) = c :: more := by
  obtain ⟨-, hg, hl⟩ := chunk_eq_iff.mp h
  refine chunk_eq_iff.mpr ⟨List.prefix_append _ _, hg, fun other ho hgo => hl other ?_ hgo⟩
  have hnot := hgo.not_mem hc hd
  obtain ⟨rest', hrest⟩ := ho
  rw [← List.append_assoc] at hrest
  rcases List.append_eq_append_iff.mp hrest with ⟨as, has, -⟩ | ⟨bs, rfl, hbs⟩
  · exact ⟨as, has.symm⟩
  · cases bs with
    | nil => simp
    | cons b bs =>
      obtain ⟨rfl, -⟩ := List.cons.inj hbs
      simp at hnot

/-- A chunk stays the same if layout comes later, unless it is a comment and the layout comes right
after it. -/
theorem chunk_filler {c : Char} {more text rest filler : List Char}
    (h : chunk c (more ++ (text ++ rest)) = c :: more) (hfiller : Filler filler)
    (hopen : ¬ (c = '#' ∧ text = [])) : chunk c (more ++ (text ++ (filler ++ rest))) = c :: more := by
  cases filler with
  | nil => exact h
  | cons d filler =>
    by_cases hc : c = '#'
    · subst hc
      obtain ⟨hmore, hends⟩ := chunk_comment_iff.mp h
      refine chunk_comment_iff.mpr ⟨hmore, ?_⟩
      cases text with
      | nil => exact absurd ⟨rfl, rfl⟩ hopen
      | cons x text => exact hends
    · exact chunk_append (chunk_of_append h) hc hfiller.endsToken (filler ++ rest)

/-- Layout can be put into a cut without a change to the tokens before and after it. -/
theorem Cut.scanFrom_filler {text rest filler : List Char} (h : Cut text rest)
    (hfiller : Filler filler) (pos : Nat) :
    Token.scanFrom pos 0 (text ++ (filler ++ rest)) =
      Token.scanFrom pos 0 text ++ Token.scanFrom (pos + text.length + filler.length) 0 rest := by
  induction h generalizing pos with
  | nil => exact hfiller.silent _ pos
  | @cons c more text rest hc _ ih =>
    by_cases hopen : c = '#' ∧ text = []
    · -- the comment goes on into the layout
      obtain ⟨rfl, rfl⟩ := hopen
      rw [List.nil_append] at hc
      obtain ⟨hmore, hends⟩ := chunk_comment_iff.mp hc
      have hnone : Silent ('#' :: more) [] := silent_comment hmore nofun
      have hscan := hnone pos
      have hsilent := hfiller.silent_after_comment hmore hends pos
      rw [List.append_nil] at hscan
      rw [List.append_assoc, List.length_append, ← Nat.add_assoc] at hsilent
      rw [List.append_nil, hsilent, hscan]
      rfl
    · have hc' := chunk_filler hc hfiller hopen
      rw [List.cons_append, List.append_assoc, scanFrom_chunk hc',
        scanFrom_chunk (chunk_of_append hc), ih, List.append_assoc, List.length_cons,
        List.length_append]
      congr 3
      omega

/-! ### Sources with layout put into them -/

/-- Layout in a cut moves the tokens behind it. -/
theorem Cut.scanFrom_gap {before after filler : List Char} (h : Cut before after)
    (hfiller : Filler filler) :
    Token.scanFrom 0 0 (before ++ (filler ++ after)) =
      (Token.scanFrom 0 0 (before ++ after)).map
        (Token.move (.gap before.length filler.length)) := by
  have hbefore : ∀ tok ∈ Token.scanFrom 0 0 before,
      tok.move (.gap before.length filler.length) = tok := by
    intro tok htok
    obtain ⟨-, hlt, hle⟩ := scanFrom_bounds htok
    have hstart : ¬ before.length ≤ tok.span.start := by omega
    have hstop : ¬ before.length < tok.span.stop := by omega
    simp [Token.move, Relocation.span, Relocation.gap, hstart, hstop]
  have hafter : ∀ tok ∈ Token.scanFrom before.length 0 after,
      tok.move (.gap before.length filler.length) = tok.move (.shift filler.length) := by
    intro tok htok
    obtain ⟨hle, hlt, -⟩ := scanFrom_bounds htok
    have hstop : before.length < tok.span.stop := by omega
    simp [Token.move, Relocation.span, Relocation.gap, Relocation.shift, hle, hstop]
  rw [h.scanFrom_filler hfiller, h.scanFrom, List.map_append, Nat.zero_add, scanFrom_shift,
    List.map_congr_left hbefore, List.map_id', List.map_congr_left hafter]

/-- The source with `text` put into it at `p`. -/
def insertText (source : String) (p : Nat) (text : String) : String :=
  String.ofList (source.toList.take p ++ (text.toList ++ source.toList.drop p))

theorem length_insertText (source : String) (p : Nat) (text : String) :
    (insertText source p text).length = source.length + text.length := by
  rw [insertText, String.length_ofList]
  simp only [List.length_append, List.length_take, List.length_drop, String.length_toList]
  omega

/-- Layout between tokens moves those behind it. -/
theorem scan_insert {source filler : String} {p : Nat} (hp : p ≤ source.length)
    (htoken : ¬ InsideToken source p) (hcomment : ¬ InsideComment source p)
    (hfiller : Filler filler.toList) :
    Token.scan (insertText source p filler) =
      (Token.scan source).map (Token.move (.gap p filler.length)) := by
  have hsource := (List.take_append_drop p source.toList).symm
  have hlength : (source.toList.take p).length = p := by
    rw [List.length_take, String.length_toList]
    omega
  have hcut : Cut (source.toList.take p) (source.toList.drop p) :=
    cut_of_not_inside hsource (by rwa [hlength]) (by rwa [hlength])
  have hgap := hcut.scanFrom_gap hfiller
  rw [hlength, ← hsource, String.length_toList] at hgap
  rw [Token.scan, insertText, String.toList_ofList, hgap]
  rfl

/-! ### Results -/

section

variable {m : Relocation} {source source' : String}

theorem read_of_scan_move (h : Token.scan source' = (Token.scan source).map (Token.move m)) :
    Program.read source' =
      match Program.read source with
      | .ok p => .ok ⟨Stmt.mapSpansList m.span p.statements, ⟨0, source'.length⟩⟩
      | .error e => .error (e.move m) := by
  have hrun := Parser.State.run_move m {} (Token.scan source)
  rw [← h] at hrun
  rw [Program.read, Program.read]
  change Parser.State.run {} (Token.scan source') = _ at hrun
  rw [hrun]
  cases Parser.State.run {} (Token.scan source) with
  | error e => rfl
  | ok st =>
    dsimp only
    rw [Parser.State.finish_move]
    cases st.finish <;> rfl

/-- Where tokens stand does not matter for the result, but for the places in it. -/
theorem ofSource_of_scan_move (h : Token.scan source' = (Token.scan source).map (Token.move m)) :
    Program.ofSource source' = m.result source'.length (Program.ofSource source) := by
  have hread := read_of_scan_move h
  rw [Program.ofSource, Program.ofSource]
  rcases parse_cases source with
    ⟨p, hp, hdepth, hparse⟩ | ⟨p, hp, hdepth, hparse⟩ | ⟨⟨found, expected⟩, hp, hparse⟩
  · have hmoved := Stmt.depthList_mapSpans m.span p.statements
    rw [hp] at hread
    rw [hparse, Program.parse, hread]
    dsimp only
    rw [Program.depth, if_pos (hmoved ▸ hdepth)]
    rfl
  · have hmoved := Stmt.depthList_mapSpans m.span p.statements
    rw [hp] at hread
    rw [hparse, Program.parse, hread]
    dsimp only
    rw [Program.depth, if_neg (hmoved ▸ Nat.not_le_of_lt hdepth)]
    rfl
  · rw [hp] at hread
    rw [hparse, Program.parse, hread]
    cases found <;> rfl

end

/-- **Layout does not matter.** Blanks, or a comment with its newline, can be put into a source at
any place that is not inside of a token or inside of a comment. What starts at this place or later
moves by their length, and so does what stops later; the result of reading the source stays the same
otherwise. This includes places behind a token that is refused, where nothing moves. -/
theorem ofSource_insert {source filler : String} {p : Nat} (hp : p ≤ source.length)
    (htoken : ¬ InsideToken source p) (hcomment : ¬ InsideComment source p)
    (hfiller : Filler filler.toList) :
    Program.ofSource (insertText source p filler) =
      Relocation.result (.gap p filler.length) (source.length + filler.length)
        (Program.ofSource source) := by
  rw [← length_insertText source p filler]
  exact ofSource_of_scan_move (scan_insert hp htoken hcomment hfiller)

/-- A comment at the end of a comment, before the token that is refused. -/
theorem ofSource_insert_refused :
    let source := "let # a\nx 1;"
    let filler := "#b\n"
    7 ≤ source.length ∧ ¬ InsideToken source 7 ∧ ¬ InsideComment source 7 ∧
      Filler filler.toList ∧
      Program.ofSource source = .error (.expectedFound ⟨10, 11⟩ ["'='"] (some "1")) ∧
      insertText source 7 filler = "let # a#b\n\nx 1;" ∧
      Program.ofSource (insertText source 7 filler) =
        .error (.expectedFound ⟨13, 14⟩ ["'='"] (some "1")) := by
  intro source filler
  have hlength : 7 ≤ source.length := by decide
  have htoken : ¬ InsideToken source 7 := by
    unfold InsideToken
    decide
  have hcomment : ¬ InsideComment source 7 := by
    rintro ⟨before, line, c, rest, hsource, -, hc, hp⟩
    have hnext : (before ++ '#' :: (line ++ c :: rest))[7]? = some c := by
      rw [hp, List.getElem?_append_right (Nat.le_add_right _ _), Nat.add_sub_cancel_left]
      simp
    rw [← hsource, show source.toList[7]? = some '\n' by decide] at hnext
    exact hc (Option.some.inj hnext).symm
  have hfiller : Filler filler.toList := by
    rw [show filler.toList = '#' :: (['b'] ++ ['\n']) by decide]
    exact .comment (by decide)
  have hrefused : Program.ofSource source =
      .error (.expectedFound ⟨10, 11⟩ ["'='"] (some "1")) := by
    have hread : Program.read source = .error ⟨some ⟨.numeral "1", ⟨10, 11⟩⟩, [.equal]⟩ := by
      subst source
      rfl
    rw [Program.ofSource, Program.parse, hread]
    rfl
  have hinsert := ofSource_insert hlength htoken hcomment hfiller
  rw [hrefused, show filler.length = 3 by decide] at hinsert
  exact ⟨hlength, htoken, hcomment, hfiller, hrefused, by decide, hinsert⟩

end Grammar

end NumCheck
