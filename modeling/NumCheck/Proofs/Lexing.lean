import NumCheck.Proofs.Grammar

/-!
# Tokens as longest matches

What the pieces of a source are is said here without a scanner. Each terminal has its texts, and
so has the layout between tokens. A source is cut from the left, each time at the longest text of
any terminal or of layout (`Longest`), and a word that may be a keyword is one exactly where a
statement can start (`Fits`). Some sources cannot be cut to their end; a source never has two lists
of pieces.

The scanner looks at the first character only to know what it is dealing with. This is enough,
because no two kinds of text that go on differently begin with the same character.

Places are left out: pieces have no offsets, and what the scanner says about these is shown in
`Scanning`.
-/

namespace NumCheck.Grammar

/-! ### Texts -/

/-- `[A-Za-z_]` -/
def Letter (c : Char) : Prop := ('A' ≤ c ∧ c ≤ 'Z') ∨ ('a' ≤ c ∧ c ≤ 'z') ∨ c = '_'

/-- `[0-9]` -/
def Digit (c : Char) : Prop := '0' ≤ c ∧ c ≤ '9'

/-- A blank, a tab, a form feed, a carriage return or a newline. -/
def Blank (c : Char) : Prop := c = ' ' ∨ c = '\t' ∨ c = '\x0c' ∨ c = '\r' ∨ c = '\n'

/-- `[0-9]+`, or two of these with a point between them. -/
def Numeral (cs : List Char) : Prop :=
  (cs ≠ [] ∧ ∀ c ∈ cs, Digit c) ∨
    ∃ whole fraction, cs = whole ++ '.' :: fraction ∧ (whole ≠ [] ∧ ∀ c ∈ whole, Digit c) ∧
      fraction ≠ [] ∧ ∀ c ∈ fraction, Digit c

/-- The texts of the terminals. -/
inductive Spells : Piece → List Char → Prop where
  /-- The keyword `let`. -/
  | letWord : Spells .letWord ['l', 'e', 't']
  /-- The keyword `print`. -/
  | printWord : Spells .printWord ['p', 'r', 'i', 'n', 't']
  /-- `[A-Za-z_][A-Za-z0-9_]*` -/
  | name {c : Char} {rest : List Char} : Letter c → (∀ x ∈ rest, Letter x ∨ Digit x) →
      Spells (.name (String.ofList (c :: rest))) (c :: rest)
  /-- A numeral. -/
  | number {cs : List Char} : Numeral cs → Spells (.number (String.ofList cs)) cs
  /-- The character of a symbol. -/
  | symbol (s : Symbol) : Spells (.symbol s) [s.char]

/-- The texts between tokens. -/
inductive Layout : List Char → Prop where
  /-- Blanks. -/
  | blanks {cs : List Char} : cs ≠ [] → (∀ c ∈ cs, Blank c) → Layout cs
  /-- A comment, which a newline would end. -/
  | comment {cs : List Char} : (∀ c ∈ cs, c ≠ '\n') → Layout ('#' :: cs)

/-- The texts at which a source can be cut. -/
def Matches (cs : List Char) : Prop := Layout cs ∨ ∃ t, Spells t cs

/-- The longest text at the head of `cs`. -/
structure Longest (text cs : List Char) : Prop where
  /-- The source can be cut there. -/
  isMatch : Matches text
  /-- It stands at the head. -/
  head : text <+: cs
  /-- There is no longer one. -/
  longest : ∀ other, Matches other → other <+: cs → other.length ≤ text.length

/-- A statement can start after the piece `prev`, or at the start of the source. -/
def StatementStarts (prev : Option Piece) : Prop :=
  prev = none ∨ prev = some (.symbol .semicolon) ∨ prev = some (.symbol .lbrace) ∨
    prev = some (.symbol .rbrace)

/-- A word that may be a keyword is one after `prev` exactly if a statement can start there. -/
def Fits (prev : Option Piece) : Piece → Prop
  | .letWord | .printWord => StatementStarts prev
  | .name text => text = "let" ∨ text = "print" → ¬ StatementStarts prev
  | _ => True

/-- The pieces of a text after the piece `prev`. -/
inductive Tokenized : Option Piece → List Char → List Piece → Prop where
  /-- Nothing is left. -/
  | nil {prev : Option Piece} : Tokenized prev [] []
  /-- Layout is left out. -/
  | layout {prev : Option Piece} {text rest : List Char} {ts : List Piece} :
      Longest text (text ++ rest) → Layout text → Tokenized prev rest ts →
        Tokenized prev (text ++ rest) ts
  /-- The text of a terminal. -/
  | token {prev : Option Piece} {text rest : List Char} {t : Piece} {ts : List Piece} :
      Longest text (text ++ rest) → Spells t text → Fits prev t → Tokenized (some t) rest ts →
        Tokenized prev (text ++ rest) (t :: ts)

theorem Longest.unique {text text' cs : List Char} (h : Longest text cs) (h' : Longest text' cs) :
    text = text' := by
  have hlen : text.length = text'.length :=
    Nat.le_antisymm (h'.longest text h.isMatch h.head) (h.longest text' h'.isMatch h'.head)
  rw [List.prefix_iff_eq_take.mp h.head, hlen, ← List.prefix_iff_eq_take.mp h'.head]

/-! ### Classes of characters -/

theorem letter_iff {c : Char} : Letter c ↔ isWordStart c = true := by
  unfold isWordStart Char.isAlpha Char.isUpper Char.isLower
  simp [Letter, Char.le_def, or_assoc]

theorem digit_iff {c : Char} : Digit c ↔ c.isDigit = true := by
  simp [Digit, Char.isDigit, Char.le_def]

theorem wordPart_iff {c : Char} : Letter c ∨ Digit c ↔ isWordPart c = true := by
  rw [letter_iff, digit_iff]
  simp [isWordStart, isWordPart, Char.isAlphanum, or_right_comm]

theorem blank_iff {c : Char} : Blank c ↔ isBlank c = true := by
  simp [Blank, isBlank, or_assoc]

/-- What a first character announces. -/
inductive Kind where
  /-- Blanks. -/
  | blank
  /-- A comment. -/
  | hash
  /-- A word. -/
  | letter
  /-- A numeral. -/
  | digit
  /-- A symbol. -/
  | symbol (s : Symbol)
  /-- Nothing. -/
  | other

/-- The kind of text that begins with `c`. -/
def kind (c : Char) : Kind :=
  if isBlank c then .blank
  else if c == '#' then .hash
  else if isWordStart c then .letter
  else if c.isDigit then .digit
  else match Symbol.ofChar? c with
    | some s => .symbol s
    | none => .other

theorem kind_blank {c : Char} (h : isBlank c = true) : kind c = .blank := by
  rw [kind, if_pos h]

theorem kind_symbol (s : Symbol) : kind s.char = .symbol s := by
  cases s <;> rfl

/-- Layout starts neither words nor numerals. -/
theorem layout_start {c : Char} (h : isBlank c = true ∨ (c == '#') = true) :
    isWordStart c = false ∧ c.isDigit = false := by
  rcases h with h | h
  · rcases blank_iff.mpr h with rfl | rfl | rfl | rfl | rfl <;> exact ⟨rfl, rfl⟩
  · rw [beq_iff_eq.mp h]
    exact ⟨rfl, rfl⟩

theorem kind_letter {c : Char} (h : isWordStart c = true) : kind c = .letter := by
  have hlayout : ¬ (isBlank c = true ∨ (c == '#') = true) := by
    intro hc
    rw [(layout_start hc).1] at h
    cases h
  obtain ⟨hb, hh⟩ := not_or.mp hlayout
  rw [kind, if_neg hb, if_neg hh, if_pos h]

theorem not_letter_of_digit {c : Char} (h : c.isDigit = true) : ¬ isWordStart c = true := by
  intro hl
  unfold isWordStart Char.isAlpha Char.isUpper Char.isLower at hl
  simp only [Char.isDigit, Bool.or_eq_true, Bool.and_eq_true, decide_eq_true_eq, beq_iff_eq,
    UInt32.le_iff_toNat_le, ge_iff_le] at h hl
  have h9 : '9'.val.toNat = 57 := rfl
  have hA : 'A'.val.toNat = 65 := rfl
  have ha : 'a'.val.toNat = 97 := rfl
  rcases hl with (hl | hl) | rfl
  · omega
  · omega
  · have hu : '_'.val.toNat = 95 := rfl
    omega

theorem kind_digit {c : Char} (h : c.isDigit = true) : kind c = .digit := by
  have hlayout : ¬ (isBlank c = true ∨ (c == '#') = true) := by
    intro hc
    rw [(layout_start hc).2] at h
    cases h
  obtain ⟨hb, hh⟩ := not_or.mp hlayout
  rw [kind, if_neg hb, if_neg hh, if_neg (not_letter_of_digit h), if_pos h]

/-- With which characters a text of kind `k` goes on after `c`. -/
def Kind.GoesOn (c : Char) (rest : List Char) : Kind → Prop
  | .blank => ∀ x ∈ rest, isBlank x = true
  | .hash => ∀ x ∈ rest, (x != '\n') = true
  | .letter => ∀ x ∈ rest, isWordPart x = true
  | .digit => Numeral (c :: rest)
  | .symbol _ => rest = []
  | .other => False

/-- The lexeme with a text of kind `k`. Layout has none. -/
def Kind.lexeme? (text : List Char) : Kind → Option Lexeme
  | .letter => some (.word (String.ofList text))
  | .digit => some (.numeral (String.ofList text))
  | .symbol s => some (.symbol s)
  | .blank | .hash | .other => none

/-- The lexeme of a piece. -/
def Piece.lexeme : Piece → Lexeme
  | .letWord => .word "let"
  | .printWord => .word "print"
  | .name text => .word text
  | .number text => .numeral text
  | .symbol s => .symbol s

theorem Numeral.head {c : Char} {rest : List Char} (h : Numeral (c :: rest)) :
    c.isDigit = true := by
  rcases h with ⟨-, h⟩ | ⟨whole, fraction, hw, ⟨hne, h⟩, -⟩
  · exact digit_iff.mp (h c List.mem_cons_self)
  · cases whole with
    | nil => exact absurd rfl hne
    | cons w whole =>
      rw [(List.cons.inj hw).1]
      exact digit_iff.mp (h w List.mem_cons_self)

theorem Layout.goesOn {c : Char} {rest : List Char} (h : Layout (c :: rest)) :
    (kind c).GoesOn c rest ∧ (kind c).lexeme? (c :: rest) = none := by
  generalize ht : c :: rest = text at h
  cases h with
  | blanks _ h =>
    subst ht
    rw [kind_blank (blank_iff.mp (h c List.mem_cons_self))]
    exact ⟨fun x hx => blank_iff.mp (h x (List.mem_cons_of_mem c hx)), rfl⟩
  | comment h =>
    cases ht
    exact ⟨fun x hx => bne_iff_ne.mpr (h x hx), rfl⟩

theorem Spells.goesOn {t : Piece} {c : Char} {rest : List Char} (h : Spells t (c :: rest)) :
    (kind c).GoesOn c rest ∧ (kind c).lexeme? (c :: rest) = some t.lexeme := by
  generalize ht : c :: rest = text at h
  cases h with
  | letWord =>
    cases ht
    refine ⟨?_, rfl⟩
    rw [kind_letter (show isWordStart 'l' = true from rfl)]
    exact List.all_eq_true.mp (show ['e', 't'].all isWordPart = true from rfl)
  | printWord =>
    cases ht
    refine ⟨?_, rfl⟩
    rw [kind_letter (show isWordStart 'p' = true from rfl)]
    exact List.all_eq_true.mp (show ['r', 'i', 'n', 't'].all isWordPart = true from rfl)
  | name hc h =>
    cases ht
    rw [kind_letter (letter_iff.mp hc)]
    exact ⟨fun x hx => wordPart_iff.mp (h x hx), rfl⟩
  | number h =>
    subst ht
    rw [kind_digit h.head]
    exact ⟨h, rfl⟩
  | symbol s =>
    cases ht
    rw [kind_symbol]
    exact ⟨rfl, rfl⟩

/-- What the kind of a character says about it. -/
inductive Kind.Of (c : Char) : Kind → Prop where
  /-- A blank. -/
  | blank (h : isBlank c = true) : Kind.Of c .blank
  /-- The start of a comment. -/
  | hash (h : c = '#') : Kind.Of c .hash
  /-- The start of a word. -/
  | letter (h : isWordStart c = true) : Kind.Of c .letter
  /-- The start of a numeral. -/
  | digit (h : c.isDigit = true) : Kind.Of c .digit
  /-- A symbol. -/
  | symbol {s : Symbol} (h : c = s.char) : Kind.Of c (.symbol s)
  /-- None of these. -/
  | other : Kind.Of c .other

theorem kind_of (c : Char) : Kind.Of c (kind c) := by
  rw [kind]
  split
  · next h => exact .blank h
  · split
    · next h => exact .hash (beq_iff_eq.mp h)
    · split
      · next h => exact .letter h
      · split
        · next h => exact .digit h
        · split
          · next s h =>
            have hs := List.find?_some (show Symbol.all.find? (·.char == c) = some s from h)
            exact .symbol (beq_iff_eq.mp hs).symm
          · exact .other

theorem layout_of_goesOn {c : Char} {rest : List Char} (h : (kind c).GoesOn c rest)
    (hl : (kind c).lexeme? (c :: rest) = none) : Layout (c :: rest) := by
  have hk := kind_of c
  generalize kind c = k at h hl hk
  cases hk with
  | blank hc =>
    refine .blanks (List.cons_ne_nil c rest) fun x hx => blank_iff.mpr ?_
    rcases List.mem_cons.mp hx with rfl | hx
    · exact hc
    · exact h x hx
  | hash hc =>
    subst hc
    exact .comment fun x hx => bne_iff_ne.mp (h x hx)
  | letter hc => cases hl
  | digit hc => cases hl
  | symbol hc => cases hl
  | other => exact h.elim

theorem spells_of_goesOn {t : Piece} {c : Char} {rest : List Char} (h : (kind c).GoesOn c rest)
    (hl : (kind c).lexeme? (c :: rest) = some t.lexeme) : Spells t (c :: rest) := by
  have hk := kind_of c
  generalize kind c = k at h hl hk
  cases hk with
  | blank hc => cases hl
  | hash hc => cases hl
  | letter hc =>
    have ht : Lexeme.word (String.ofList (c :: rest)) = t.lexeme := Option.some.inj hl
    cases t with
    | letWord =>
      rw [← String.toList_ofList (l := c :: rest), Lexeme.word.inj ht]
      exact .letWord
    | printWord =>
      rw [← String.toList_ofList (l := c :: rest), Lexeme.word.inj ht]
      exact .printWord
    | name text =>
      rw [← Lexeme.word.inj ht]
      exact .name (letter_iff.mpr hc) fun x hx => wordPart_iff.mpr (h x hx)
    | number text => cases ht
    | symbol s => cases ht
  | digit hc =>
    have ht : Lexeme.numeral (String.ofList (c :: rest)) = t.lexeme := Option.some.inj hl
    cases t with
    | number text =>
      rw [← Lexeme.numeral.inj ht]
      exact .number h
    | letWord => cases ht
    | printWord => cases ht
    | name text => cases ht
    | symbol s => cases ht
  | @symbol s hc =>
    have ht : Lexeme.symbol s = t.lexeme := Option.some.inj hl
    cases t with
    | symbol s' =>
      cases ht
      rw [show rest = [] from h, hc]
      exact .symbol s
    | letWord => cases ht
    | printWord => cases ht
    | name text => cases ht
    | number text => cases ht
  | other => cases hl

/-- The first character decides with which texts it can go on. -/
theorem matches_cons_iff {c : Char} {rest : List Char} :
    Matches (c :: rest) ↔ (kind c).GoesOn c rest := by
  constructor
  · rintro (h | ⟨t, h⟩)
    · exact h.goesOn.1
    · exact h.goesOn.1
  · intro h
    have hk := kind_of c
    cases hl : (kind c).lexeme? (c :: rest) with
    | none => exact .inl (layout_of_goesOn h hl)
    | some l =>
      refine .inr ?_
      generalize hkc : kind c = k at h hl hk
      cases hk with
      | letter hc =>
        exact ⟨.name (String.ofList (c :: rest)), spells_of_goesOn (hkc ▸ h) (hkc ▸ rfl)⟩
      | digit hc =>
        exact ⟨.number (String.ofList (c :: rest)), spells_of_goesOn (hkc ▸ h) (hkc ▸ rfl)⟩
      | @symbol s hc => exact ⟨.symbol s, spells_of_goesOn (hkc ▸ h) (hkc ▸ rfl)⟩
      | blank hc => cases hl
      | hash hc => cases hl
      | other => cases hl

/-! ### The longest text -/

theorem length_le_takeWhile {p : Char → Bool} {text cs : List Char} (hp : text <+: cs)
    (h : ∀ x ∈ text, p x = true) : text.length ≤ (cs.takeWhile p).length := by
  obtain ⟨rest, rfl⟩ := hp
  rw [List.takeWhile_append_of_pos h, List.length_append]
  exact Nat.le_add_right _ _

theorem all_takeWhile {p : Char → Bool} {cs : List Char} : ∀ x ∈ cs.takeWhile p, p x = true :=
  List.all_eq_true.mp List.all_takeWhile

/-- Digits end at a point. -/
theorem span_digits {whole rest : List Char} (h : ∀ x ∈ whole, Char.isDigit x = true) :
    (whole ++ '.' :: rest).takeWhile Char.isDigit = whole ∧
      (whole ++ '.' :: rest).dropWhile Char.isDigit = '.' :: rest := by
  rw [List.takeWhile_append_of_pos h, List.dropWhile_append_of_pos h]
  exact ⟨List.append_nil whole, rfl⟩

/-- With a fraction after the digits, the numeral goes on to its end. -/
theorem numeralPrefix_fraction {whole fraction : List Char} (rest : List Char)
    (hw : ∀ x ∈ whole, Char.isDigit x = true) (hf : ∀ x ∈ fraction, Char.isDigit x = true)
    (hne : fraction ≠ []) :
    Lexeme.numeralPrefix (whole ++ '.' :: (fraction ++ rest)) =
      whole ++ '.' :: (fraction ++ rest.takeWhile Char.isDigit) := by
  have hempty : (fraction ++ rest.takeWhile Char.isDigit).isEmpty = false := by
    cases fraction with
    | nil => exact absurd rfl hne
    | cons x fraction => rfl
  rw [Lexeme.numeralPrefix, (span_digits hw).1, (span_digits hw).2]
  change (if ((fraction ++ rest).takeWhile Char.isDigit).isEmpty then whole
    else whole ++ '.' :: (fraction ++ rest).takeWhile Char.isDigit) = _
  rw [List.takeWhile_append_of_pos hf, hempty, if_neg Bool.false_ne_true]

/-- The numeral at the head of a text is its digits, or these and a fraction. -/
theorem numeralPrefix_cases (cs : List Char) :
    Lexeme.numeralPrefix cs = cs.takeWhile Char.isDigit ∨
      ∃ rest, cs.dropWhile Char.isDigit = '.' :: rest ∧ rest.takeWhile Char.isDigit ≠ [] ∧
        Lexeme.numeralPrefix cs =
          cs.takeWhile Char.isDigit ++ '.' :: rest.takeWhile Char.isDigit := by
  rw [Lexeme.numeralPrefix]
  split
  · next rest hd =>
    dsimp only
    split
    · exact .inl rfl
    · next hf => exact .inr ⟨rest, hd, by simpa using hf, rfl⟩
  · exact .inl rfl

theorem numeralPrefix_prefix (cs : List Char) : Lexeme.numeralPrefix cs <+: cs := by
  have hcs : cs.takeWhile Char.isDigit ++ cs.dropWhile Char.isDigit = cs :=
    List.takeWhile_append_dropWhile
  rcases numeralPrefix_cases cs with h | ⟨rest, hd, -, h⟩
  · rw [h]
    exact ⟨_, hcs⟩
  · refine ⟨rest.dropWhile Char.isDigit, ?_⟩
    rw [h, List.append_assoc, List.cons_append, List.takeWhile_append_dropWhile, ← hd, hcs]

theorem numeral_numeralPrefix {c : Char} (hc : c.isDigit = true) (rest : List Char) :
    Numeral (Lexeme.numeralPrefix (c :: rest)) := by
  have hw : (c :: rest).takeWhile Char.isDigit ≠ [] := by
    rw [List.takeWhile_cons_of_pos hc]
    exact List.cons_ne_nil _ _
  have hall {cs : List Char} : ∀ x ∈ cs.takeWhile Char.isDigit, Digit x :=
    fun x hx => digit_iff.mpr (all_takeWhile x hx)
  rcases numeralPrefix_cases (c :: rest) with h | ⟨rest', -, hf, h⟩
  · rw [h]
    exact .inl ⟨hw, hall⟩
  · rw [h]
    exact .inr ⟨_, _, rfl, ⟨hw, hall⟩, hf, hall⟩

theorem length_numeral_le {text cs : List Char} (hp : text <+: cs) (h : Numeral text) :
    text.length ≤ (Lexeme.numeralPrefix cs).length := by
  rcases h with ⟨-, h⟩ | ⟨whole, fraction, rfl, ⟨-, hw⟩, hne, hf⟩
  · have hle : text.length ≤ (cs.takeWhile Char.isDigit).length :=
      length_le_takeWhile hp fun x hx => digit_iff.mp (h x hx)
    rcases numeralPrefix_cases cs with hn | ⟨rest, -, -, hn⟩
    · rw [hn]
      exact hle
    · rw [hn, List.length_append]
      omega
  · obtain ⟨rest, rfl⟩ := hp
    have hn := numeralPrefix_fraction rest (fun x hx => digit_iff.mp (hw x hx))
      (fun x hx => digit_iff.mp (hf x hx)) hne
    rw [List.append_assoc, List.cons_append, hn]
    simp only [List.length_append, List.length_cons]
    omega

/-- The text of kind `k` at the head of `c :: rest`. -/
def Kind.text (c : Char) (rest : List Char) : Kind → List Char
  | .blank => c :: rest.takeWhile isBlank
  | .hash => c :: rest.takeWhile (· != '\n')
  | .letter => c :: rest.takeWhile isWordPart
  | .digit => Lexeme.numeralPrefix (c :: rest)
  | .symbol _ => [c]
  | .other => []

theorem numeralPrefix_cons {c : Char} (hc : c.isDigit = true) (rest : List Char) :
    ∃ more, Lexeme.numeralPrefix (c :: rest) = c :: more := by
  rcases numeralPrefix_cases (c :: rest) with h | ⟨rest', -, -, h⟩
  · exact ⟨_, by rw [h, List.takeWhile_cons_of_pos hc]⟩
  · exact ⟨_, by rw [h, List.takeWhile_cons_of_pos hc, List.cons_append]⟩

/-- The text of the right kind begins with `c`, goes on as it may, and is the longest to do so. -/
theorem text_eq_cons {c : Char} (hk : kind c ≠ .other) (rest : List Char) :
    ∃ more, (kind c).text c rest = c :: more ∧ more <+: rest ∧ (kind c).GoesOn c more ∧
      ∀ other, other <+: rest → (kind c).GoesOn c other → other.length ≤ more.length := by
  have hof := kind_of c
  generalize kind c = k at hk hof
  cases hof with
  | blank hc =>
    exact ⟨_, rfl, List.takeWhile_prefix _, all_takeWhile, fun _ => length_le_takeWhile⟩
  | hash hc =>
    exact ⟨_, rfl, List.takeWhile_prefix _, all_takeWhile, fun _ => length_le_takeWhile⟩
  | letter hc =>
    exact ⟨_, rfl, List.takeWhile_prefix _, all_takeWhile, fun _ => length_le_takeWhile⟩
  | digit hc =>
    obtain ⟨more, hm⟩ := numeralPrefix_cons hc rest
    have hp := numeralPrefix_prefix (c :: rest)
    have hn := numeral_numeralPrefix hc rest
    rw [hm] at hp hn
    refine ⟨more, hm, (List.cons_prefix_cons.mp hp).2, hn, fun other ho hother => ?_⟩
    have hle := length_numeral_le (List.cons_prefix_cons.mpr ⟨rfl, ho⟩) hother
    rw [hm, List.length_cons, List.length_cons] at hle
    omega
  | symbol hc =>
    refine ⟨[], rfl, List.nil_prefix, rfl, fun other _ hother => ?_⟩
    exact Nat.le_of_eq (congrArg List.length (show other = [] from hother))
  | other => exact absurd rfl hk

/-- The text that the first character announces is the longest one. -/
theorem longest_text {c : Char} (hk : kind c ≠ .other) (rest : List Char) :
    Longest ((kind c).text c rest) (c :: rest) := by
  obtain ⟨more, ht, hp, hg, hlongest⟩ := text_eq_cons hk rest
  rw [ht]
  refine ⟨matches_cons_iff.mpr hg, List.cons_prefix_cons.mpr ⟨rfl, hp⟩, fun other ho hpo => ?_⟩
  cases other with
  | nil => exact Nat.zero_le _
  | cons x other =>
    obtain ⟨rfl, hrest⟩ := List.cons_prefix_cons.mp hpo
    have hle := hlongest other hrest (matches_cons_iff.mp ho)
    rw [List.length_cons, List.length_cons]
    omega

/-! ### The scanner -/

/-- The lexemes that the scanner finds. -/
def lexemes (cs : List Char) : List Lexeme := (Token.scanFrom 0 0 cs).map Token.lexeme

/-- Where the text stands does not matter, and neither do characters that are skipped. -/
theorem map_lexeme_scanFrom (pos skip : Nat) (cs : List Char) :
    (Token.scanFrom pos skip cs).map Token.lexeme = lexemes (cs.drop skip) := by
  induction cs generalizing pos skip with
  | nil => cases skip <;> rfl
  | cons c rest ih =>
    cases skip with
    | succ skip => exact ih (pos + 1) skip
    | zero =>
      rw [List.drop_zero, lexemes, Token.scanFrom, Token.scanFrom]
      cases Lexeme.first? c rest with
      | none => exact (ih _ _).trans (ih _ _).symm
      | some l => exact congrArg (l :: ·) ((ih _ _).trans (ih _ _).symm)

theorem lexemes_cons (c : Char) (rest : List Char) :
    lexemes (c :: rest) =
      match Lexeme.first? c rest with
      | none => lexemes (rest.drop (Token.layoutRest c rest))
      | some l => l :: lexemes (rest.drop (l.length - 1)) := by
  rw [lexemes, Token.scanFrom]
  cases Lexeme.first? c rest with
  | none => exact map_lexeme_scanFrom _ _ _
  | some l => exact congrArg (l :: ·) (map_lexeme_scanFrom _ _ _)

/-- What the scanner finds is decided by the kind of the first character. -/
theorem first?_eq (c : Char) (rest : List Char) :
    Lexeme.first? c rest =
      match kind c with
      | .other => some (.stray c)
      | k => k.lexeme? (k.text c rest) := by
  rw [kind, Lexeme.first?]
  by_cases hb : isBlank c = true
  · simp [hb, Kind.lexeme?]
  · by_cases hh : (c == '#') = true
    · simp [hb, hh, Kind.lexeme?]
    · by_cases hl : isWordStart c = true
      · simp [hb, hh, hl, Kind.lexeme?, Kind.text]
      · by_cases hd : c.isDigit = true
        · simp [hb, hh, hl, hd, Kind.lexeme?, Kind.text]
        · cases hs : Symbol.ofChar? c with
          | some s => simp [hb, hh, hl, hd, Kind.lexeme?]
          | none => simp [hb, hh, hl, hd]

theorem first?_of_kind {c : Char} (hk : kind c ≠ .other) (rest : List Char) :
    Lexeme.first? c rest = (kind c).lexeme? ((kind c).text c rest) := by
  rw [first?_eq]
  cases hkc : kind c with
  | other => exact absurd hkc hk
  | _ => rfl

theorem first?_of_other {c : Char} (hk : kind c = .other) (rest : List Char) :
    Lexeme.first? c rest = some (.stray c) := by
  rw [first?_eq, hk]

theorem lexemes_blanks (cs : List Char) :
    lexemes cs = lexemes (cs.drop (cs.takeWhile isBlank).length) := by
  induction cs with
  | nil => rfl
  | cons c rest ih =>
    by_cases hc : isBlank c = true
    · have hk : kind c = .blank := kind_blank hc
      have hf := first?_of_kind (c := c) (by rw [hk]; nofun) rest
      have hr : Token.layoutRest c rest = 0 := by
        rw [Token.layoutRest, if_neg]
        intro hh
        rw [beq_iff_eq.mp hh] at hc
        cases hc
      rw [hk] at hf
      rw [List.takeWhile_cons_of_pos hc, List.length_cons, List.drop_succ_cons, ← ih,
        lexemes_cons, hf]
      dsimp only [Kind.lexeme?]
      rw [hr, List.drop_zero]
    · rw [List.takeWhile_cons_of_neg hc]
      rfl

/-- The scanner takes the text that the first character announces. -/
theorem lexemes_text {c : Char} (hk : kind c ≠ .other) (rest : List Char) :
    lexemes (c :: rest) = ((kind c).lexeme? ((kind c).text c rest)).toList ++
      lexemes ((c :: rest).drop ((kind c).text c rest).length) := by
  have hf := first?_of_kind hk rest
  have hof := kind_of c
  obtain ⟨more, ht, -⟩ := text_eq_cons hk rest
  have hc := lexemes_cons c rest
  rw [hf] at hc
  generalize hkc : kind c = k at hof ht hc
  cases hof with
  | blank h =>
    rw [lexemes_blanks, List.takeWhile_cons_of_pos h]
    rfl
  | hash h =>
    subst h
    exact hc
  | letter h =>
    rw [hc]
    simp [Kind.lexeme?, Kind.text, Lexeme.length, Lexeme.text]
  | digit h =>
    rw [hc, ht]
    simp [Kind.lexeme?, Lexeme.length, Lexeme.text]
  | symbol h =>
    rw [hc]
    simp [Kind.lexeme?, Kind.text, Lexeme.length, Lexeme.text]
  | other => exact absurd hkc hk

/-- Each piece fits after the one before it, and the first one after `prev`. -/
def Keyed : Option Piece → List Piece → Prop
  | _, [] => True
  | prev, t :: ts => Fits prev t ∧ Keyed (some t) ts

theorem Piece.lexeme_ne_stray (t : Piece) (c : Char) : t.lexeme ≠ .stray c := by
  cases t <;> nofun

theorem Matches.ne_nil {text : List Char} (h : Matches text) : text ≠ [] := by
  rintro rfl
  rcases h with h | ⟨t, h⟩
  · generalize hn : ([] : List Char) = text at h
    cases h with
    | blanks hne _ => exact hne hn.symm
    | comment _ => cases hn
  · generalize hn : ([] : List Char) = text at h
    cases h with
    | number h =>
      subst hn
      rcases h with ⟨hne, -⟩ | ⟨whole, fraction, hw, -⟩
      · exact hne rfl
      · exact absurd hw (by simp)
    | _ => cases hn

/-- The longest text is the one that the first character announces, and the scanner takes it. -/
theorem Longest.lexemes_append {text rest : List Char} (h : Longest text (text ++ rest)) :
    ∃ c more, text = c :: more ∧ kind c ≠ .other ∧
      lexemes (text ++ rest) = ((kind c).lexeme? text).toList ++ lexemes rest := by
  cases text with
  | nil => exact absurd rfl h.isMatch.ne_nil
  | cons c more =>
    have hk : kind c ≠ .other := by
      intro hk
      have hg := matches_cons_iff.mp h.isMatch
      rw [hk] at hg
      exact hg
    have ht := h.unique (longest_text hk (more ++ rest))
    refine ⟨c, more, rfl, hk, ?_⟩
    rw [List.cons_append, lexemes_text hk, ← ht, ← List.cons_append, List.drop_left]

theorem Tokenized.lexemes_eq {prev : Option Piece} {cs : List Char} {ts : List Piece}
    (h : Tokenized prev cs ts) : lexemes cs = ts.map Piece.lexeme ∧ Keyed prev ts := by
  induction h with
  | nil => exact ⟨rfl, trivial⟩
  | layout hlong hlayout _ ih =>
    obtain ⟨c, more, rfl, -, hl⟩ := hlong.lexemes_append
    rw [hlayout.goesOn.2] at hl
    exact ⟨hl.trans ih.1, ih.2⟩
  | token hlong hspells hfits _ ih =>
    obtain ⟨c, more, rfl, -, hl⟩ := hlong.lexemes_append
    rw [hspells.goesOn.2, ih.1] at hl
    exact ⟨hl, hfits, ih.2⟩

theorem tokenized_of_lexemes (cs : List Char) {prev : Option Piece} {ts : List Piece}
    (h : lexemes cs = ts.map Piece.lexeme) (hk : Keyed prev ts) : Tokenized prev cs ts := by
  match cs with
  | [] =>
    rw [List.map_eq_nil_iff.mp h.symm]
    exact .nil
  | c :: rest =>
    by_cases hc : kind c = .other
    · -- the scanner finds a character that belongs to no piece
      rw [lexemes_cons, first?_of_other hc] at h
      cases ts with
      | nil => cases h
      | cons t ts => exact absurd (List.cons.inj h).1.symm (t.lexeme_ne_stray c)
    · have hlong := longest_text hc rest
      obtain ⟨more, ht, ⟨rest', hrest⟩, hg, -⟩ := text_eq_cons hc rest
      have hl := lexemes_text hc rest
      rw [ht] at hlong hl
      subst hrest
      rw [← List.cons_append] at hlong hl h ⊢
      rw [List.drop_left, h] at hl
      cases hlex : (kind c).lexeme? (c :: more) with
      | none =>
        rw [hlex] at hl
        have hrec := tokenized_of_lexemes rest' hl.symm hk
        exact .layout hlong (layout_of_goesOn hg hlex) hrec
      | some l =>
        rw [hlex] at hl
        cases ts with
        | nil => cases hl
        | cons t ts =>
          obtain ⟨hlt, hl⟩ := List.cons.inj hl
          have hrec := tokenized_of_lexemes rest' hl.symm hk.2
          exact .token hlong (spells_of_goesOn hg (hlex.trans (congrArg some hlt.symm))) hk.1 hrec
  termination_by cs.length

/-- The pieces of a text are those whose lexemes the scanner finds, if they fit. -/
theorem tokenized_iff {prev : Option Piece} {cs : List Char} {ts : List Piece} :
    Tokenized prev cs ts ↔ lexemes cs = ts.map Piece.lexeme ∧ Keyed prev ts :=
  ⟨Tokenized.lexemes_eq, fun h => tokenized_of_lexemes cs h.1 h.2⟩

/-- A keyword is a name where no statement can start. -/
example : Tokenized none "let let=1; # one".toList
    [.letWord, .name "let", .symbol .equal, .number "1", .symbol .semicolon] :=
  tokenized_iff.mpr ⟨by decide +kernel, by simp [Keyed, Fits, StatementStarts]⟩

/-- A word is a keyword or a name, not both. -/
theorem Fits.eq_of_lexeme {prev : Option Piece} {t t' : Piece} (h : Fits prev t) (h' : Fits prev t')
    (hl : t.lexeme = t'.lexeme) : t = t' := by
  cases t with
  | letWord =>
    cases t' with
    | letWord => rfl
    | name text => exact absurd h (h' (.inl (Lexeme.word.inj hl).symm))
    | _ => simp [Piece.lexeme] at hl
  | printWord =>
    cases t' with
    | printWord => rfl
    | name text => exact absurd h (h' (.inr (Lexeme.word.inj hl).symm))
    | _ => simp [Piece.lexeme] at hl
  | name text =>
    cases t' with
    | letWord => exact absurd h' (h (.inl (Lexeme.word.inj hl)))
    | printWord => exact absurd h' (h (.inr (Lexeme.word.inj hl)))
    | name text' => rw [Lexeme.word.inj hl]
    | _ => simp [Piece.lexeme] at hl
  | number text =>
    cases t' with
    | number text' => rw [Lexeme.numeral.inj hl]
    | _ => simp [Piece.lexeme] at hl
  | symbol s =>
    cases t' with
    | symbol s' => rw [Lexeme.symbol.inj hl]
    | _ => simp [Piece.lexeme] at hl

theorem Keyed.eq_of_lexemes {prev : Option Piece} {ts ts' : List Piece} (h : Keyed prev ts)
    (h' : Keyed prev ts') (hl : ts.map Piece.lexeme = ts'.map Piece.lexeme) : ts = ts' := by
  induction ts generalizing prev ts' with
  | nil => exact (List.map_eq_nil_iff.mp hl.symm).symm
  | cons t ts ih =>
    cases ts' with
    | nil => cases hl
    | cons t' ts' =>
      obtain ⟨hlt, hls⟩ := List.cons.inj hl
      obtain rfl := h.1.eq_of_lexeme h'.1 hlt
      rw [ih h.2 h'.2 hls]

/-- No text has two lists of pieces. -/
theorem Tokenized.unique {prev : Option Piece} {cs : List Char} {ts ts' : List Piece}
    (h : Tokenized prev cs ts) (h' : Tokenized prev cs ts') : ts = ts' :=
  h.lexemes_eq.2.eq_of_lexemes h'.lexemes_eq.2 (h.lexemes_eq.1.symm.trans h'.lexemes_eq.1)

end NumCheck.Grammar
