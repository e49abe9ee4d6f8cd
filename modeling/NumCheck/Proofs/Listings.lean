import NumCheck.Proofs.Printing
import NumCheck.Proofs.SixDigits
import NumCheck.Typed.Listing
import NumCheck.Typed.Outline

/-!
# Listings can be read in one way

In a listing, a name or a number ends at the colon before its type, and an operator is in parentheses
with its symbol, so that its operands are found one after the other: what comes after the first of them
says whether there is a second. A variable may be called `let` or `block`, but such a word only opens a
statement right after a parenthesis, where an expression has a symbol. A block goes on as long as lines
stand farther to the right than its own.

The texts are described by relations to outlines, from which uniqueness is shown together with what may
come after a text. The lines of a text are found because no line is empty.

A listing does not tell everything. It has no places, the two operators that are written as a minus
look alike in it, and numbers with the same six digits have the same text. An outline leaves out the
same things. Trees with names that are no words of the language, with other types or with numbers
that are not finite are not considered.
-/

namespace NumCheck.Typed

/-! ### Words -/

/-- The characters that a listing has around names, numbers and symbols. -/
def marks : List Char := [':', ' ', '(', ')', '\n']

/-- A text without marks ends where a mark comes. -/
theorem append_mark_inj {mark : Char} (hm : mark ∈ marks) {a b rest rest' : List Char}
    (ha : ∀ c ∈ a, c ∉ marks) (hb : ∀ c ∈ b, c ∉ marks)
    (heq : a ++ mark :: rest = b ++ mark :: rest') : a = b ∧ rest = rest' := by
  induction a generalizing b with
  | nil =>
    cases b with
    | nil => exact ⟨rfl, (List.cons.inj heq).2⟩
    | cons c b =>
      obtain ⟨rfl, -⟩ := List.cons.inj heq
      exact absurd hm (hb _ List.mem_cons_self)
  | cons x a ih =>
    cases b with
    | nil =>
      obtain ⟨rfl, -⟩ := List.cons.inj heq
      exact absurd hm (ha _ List.mem_cons_self)
    | cons c b =>
      obtain ⟨rfl, htail⟩ := List.cons.inj heq
      obtain ⟨rfl, hrest⟩ := ih (fun y hy => ha y (List.mem_cons_of_mem _ hy))
        (fun y hy => hb y (List.mem_cons_of_mem _ hy)) htail
      exact ⟨rfl, hrest⟩

/-- The text of a name or of a number. The flag says which: whether it starts with a letter. -/
structure Word (text : List Char) (letter : Bool) : Prop where
  /-- The first character. -/
  head : ∃ c rest, text = c :: rest ∧ isWordStart c = letter
  /-- There are no marks in it. -/
  unmarked : ∀ c ∈ text, c ∉ marks

theorem Word.letter_eq {text : List Char} {letter letter' : Bool} (h : Word text letter)
    (h' : Word text letter') : letter = letter' := by
  obtain ⟨c, rest, rfl, hc⟩ := h.head
  obtain ⟨c', rest', heq, hc'⟩ := h'.head
  rw [← hc, ← hc', (List.cons.inj heq).1]

theorem unmarked_of_isWordPart {c : Char} (h : isWordPart c = true) : c ∉ marks := by
  intro hm
  simp only [marks, List.mem_cons, List.not_mem_nil, or_false] at hm
  rcases hm with rfl | rfl | rfl | rfl | rfl <;> cases h

theorem word_of_isName {s : String} (h : Bare.isName s = true) : Word s.toList true := by
  obtain ⟨c, rest, hs, hc, hrest⟩ := Bare.exists_of_isName h
  refine ⟨⟨c, rest, hs, hc⟩, ?_⟩
  rw [hs]
  intro x hx
  rcases List.mem_cons.mp hx with rfl | hx
  · exact unmarked_of_isWordPart (Grammar.wordPart_iff.mp (.inl (Grammar.letter_iff.mpr hc)))
  · exact unmarked_of_isWordPart (hrest x hx)

/-! ### Numbers -/

/-- The characters of numbers. -/
def IsNumberChar (c : Char) : Prop := c.isDigit = true ∨ c ∈ ['-', '+', '.', 'e']

theorem unmarked_of_isNumberChar {c : Char} (h : IsNumberChar c) : c ∉ marks := by
  intro hm
  simp only [marks, List.mem_cons, List.not_mem_nil, or_false] at hm
  rcases hm with rfl | rfl | rfl | rfl | rfl <;> rcases h with h | h <;> simp at h

theorem isNumberChar_of_parts {text whole fraction : List Char} (h : Parts text whole fraction)
    {c : Char} (hc : c ∈ text) : IsNumberChar c := by
  rcases h.mem hc with hd | rfl
  · exact .inl hd
  · exact .inr (by simp)

theorem isNumberChar_of_writes {n : ℕ} {power : ℤ} {body : List Char} (h : Writes n power body)
    {c : Char} (hc : c ∈ body) : IsNumberChar c := by
  have hform := h.form
  split_ifs at hform
  · obtain ⟨digit, fraction, mantissa, sign, digits, rfl, hp, -, -, hsign, hdigits, -⟩ := hform
    rcases List.mem_append.mp hc with hc | hc
    · exact isNumberChar_of_parts hp hc
    · rcases List.mem_cons.mp hc with rfl | hc
      · exact .inr (by simp)
      · rcases List.mem_cons.mp hc with rfl | hc
        · rcases hsign with rfl | rfl <;> exact .inr (by simp)
        · exact .inl (hdigits c hc)
  · obtain ⟨whole, fraction, hp, -⟩ := hform
    exact isNumberChar_of_parts hp hc

theorem not_wordStart {c : Char} (h : c = '-' ∨ c.isDigit = true) : isWordStart c = false := by
  rcases h with rfl | h
  · rfl
  · exact Bool.eq_false_iff.mpr (Grammar.not_letter_of_digit h)

/-- The text of a number starts with a digit or a sign. -/
theorem word_of_isNumberChar {c : Char} {cs : List Char} (hc : c = '-' ∨ c.isDigit = true)
    (hcs : ∀ x ∈ cs, IsNumberChar x) : Word (c :: cs) false := by
  refine ⟨⟨c, cs, rfl, not_wordStart hc⟩, fun x hx => unmarked_of_isNumberChar ?_⟩
  rcases List.mem_cons.mp hx with rfl | hx
  · exact hc.symm.imp_right fun h => by simp [h]
  · exact hcs x hx

/-- A sign before the text of a number. -/
theorem word_signed {body : List Char} (hne : ∃ c cs, body = c :: cs ∧ c.isDigit = true)
    (hbody : ∀ x ∈ body, IsNumberChar x) (negative : Bool) :
    Word (if negative then '-' :: body else body) false := by
  cases negative with
  | false =>
    obtain ⟨c, cs, rfl, hc⟩ := hne
    exact word_of_isNumberChar (.inr hc) fun x hx => hbody x (List.mem_cons_of_mem c hx)
  | true => exact word_of_isNumberChar (.inl rfl) hbody

/-- The text of a finite number. -/
theorem word_render {x : Binary64} (h : x.isFinite = true) : Word x.render.toList false := by
  by_cases hx : x.units = 0
  · have hzero : x.render.toList = if x.isNegative then '-' :: ['0'] else ['0'] := by
      unfold Binary64.render
      rw [Binary64.isNaN_of_isFinite h, h]
      cases x.isNegative <;> simp [hx]
    rw [hzero]
    exact word_signed ⟨'0', [], rfl, rfl⟩ (by simp [IsNumberChar]) _
  · obtain ⟨-, -, -, -, hn⟩ := Binary64.exists_rounded hx
    have hw := Binary64.writes_magnitudeText hn
    rw [Binary64.render_eq h hx]
    exact word_signed hw.head (fun _ => isNumberChar_of_writes hw) _

/-! ### Expressions -/

/-- A type after an expression. -/
def typeText (ty : Ty) : List Char := ':' :: ' ' :: ty.name.toList

theorem isPlainType_cases {ty : Ty} (h : isPlainType ty = true) :
    ty = ⟨"Num"⟩ ∨ ty = ⟨"Bool"⟩ ∨ ty = ⟨"Str"⟩ := by
  cases ty
  simpa [isPlainType, or_assoc] using h

/-- No type is the start of another one. -/
theorem typeText_unique {ty ty' : Ty} (h : isPlainType ty = true) (h' : isPlainType ty' = true)
    {rest rest' : List Char} (heq : typeText ty ++ rest = typeText ty' ++ rest') :
    ty = ty' ∧ rest = rest' := by
  rcases isPlainType_cases h with rfl | rfl | rfl <;>
    rcases isPlainType_cases h' with rfl | rfl | rfl <;> simp_all [typeText]

theorem exists_symbol (op : Operation) :
    ∃ c, op.symbol.toList = [c] ∧ c ∉ marks ∧ c.isAlpha = false := by
  cases op with
  | unary op =>
    cases op
    exact ⟨'-', rfl, by decide, rfl⟩
  | binary op =>
    cases op with
    | add => exact ⟨'+', rfl, by decide, rfl⟩
    | sub => exact ⟨'-', rfl, by decide, rfl⟩
    | mul => exact ⟨'*', rfl, by decide, rfl⟩
    | div => exact ⟨'/', rfl, by decide, rfl⟩

theorem symbol_unmarked (op : Operation) : ∀ c ∈ op.symbol.toList, c ∉ marks := by
  obtain ⟨d, hd, hm, -⟩ := exists_symbol op
  rw [hd]
  intro c hc
  rwa [List.mem_singleton.mp hc]

/-- A leaf of an outline: a variable or a number. -/
def leaf (letter : Bool) (text : String) (ty : Ty) : Outline.Expr :=
  if letter then .var text ty else .number text ty

/-- The text of an expression, by its outline. -/
inductive Lists : Outline.Expr → List Char → Prop where
  /-- A name or a number. -/
  | leaf {letter : Bool} {text : String} {ty : Ty} : Word text.toList letter →
      isPlainType ty = true → Lists (leaf letter text ty) (text.toList ++ typeText ty)
  /-- A symbol and its operand. -/
  | prefixed {operand : Outline.Expr} {text : List Char} {ty : Ty} (op : Operation) :
      Lists operand text → isPlainType ty = true →
      Lists (.prefixed op.symbol operand ty)
        ('(' :: (op.symbol.toList ++ ' ' :: (text ++ ')' :: typeText ty)))
  /-- A symbol and its operands. -/
  | binary {lhs rhs : Outline.Expr} {text text' : List Char} {ty : Ty} (op : Operation) :
      Lists lhs text → Lists rhs text' → isPlainType ty = true →
      Lists (.binary op.symbol lhs rhs ty)
        ('(' :: (op.symbol.toList ++ ' ' :: (text ++ ' ' :: (text' ++ ')' :: typeText ty))))

theorem Word.not_paren {text : List Char} {letter : Bool} (h : Word text letter)
    (rest rest' : List Char) : text ++ rest ≠ '(' :: rest' := by
  obtain ⟨c, cs, rfl, -⟩ := h.head
  rintro ⟨⟩
  exact h.unmarked '(' List.mem_cons_self (by decide)

/-- A symbol can be told from its operands. -/
theorem symbol_unique {op op' : Operation} {rest rest' : List Char}
    (heq : '(' :: (op.symbol.toList ++ ' ' :: rest) = '(' :: (op'.symbol.toList ++ ' ' :: rest')) :
    op.symbol = op'.symbol ∧ rest = rest' := by
  obtain ⟨hsymbol, hrest⟩ := append_mark_inj (by decide) (symbol_unmarked op) (symbol_unmarked op')
    (List.cons.inj heq).2
  exact ⟨String.toList_inj.mp hsymbol, hrest⟩

/-- An expression ends where its text can be seen to end. -/
theorem Lists.unique {e e' : Outline.Expr} {text text' rest rest' : List Char} (h : Lists e text)
    (h' : Lists e' text') (heq : text ++ rest = text' ++ rest') : e = e' ∧ rest = rest' := by
  induction h generalizing e' text' rest rest' with
  | leaf hw ht =>
    rw [List.append_assoc] at heq
    cases h' with
    | leaf hw' ht' =>
      rw [List.append_assoc] at heq
      obtain ⟨htext, htype⟩ := append_mark_inj (by decide) hw.unmarked hw'.unmarked heq
      obtain ⟨rfl, hrest⟩ := typeText_unique ht ht' (congrArg (':' :: ·) htype)
      obtain rfl := String.toList_inj.mp htext
      obtain rfl := hw.letter_eq hw'
      exact ⟨rfl, hrest⟩
    | prefixed op' hl' ht' => exact absurd heq (hw.not_paren _ _)
    | binary op' hl' hr' ht' => exact absurd heq (hw.not_paren _ _)
  | prefixed op hl ht ih =>
    cases h' with
    | leaf hw' ht' =>
      rw [List.append_assoc] at heq
      exact absurd heq.symm (hw'.not_paren _ _)
    | prefixed op' hl' ht' =>
      simp only [List.cons_append, List.append_assoc] at heq
      obtain ⟨hsymbol, hoperand⟩ := symbol_unique heq
      obtain ⟨rfl, htype⟩ := ih hl' hoperand
      obtain ⟨rfl, hrest⟩ := typeText_unique ht ht' (List.cons.inj htype).2
      exact ⟨by rw [hsymbol], hrest⟩
    | binary op' hl' hr' ht' =>
      -- the operand of one ends before a parenthesis, that of the other before a blank
      simp only [List.cons_append, List.append_assoc] at heq
      obtain ⟨-, hrest⟩ := ih hl' (symbol_unique heq).2
      cases hrest
  | binary op hl hr ht ihl ihr =>
    cases h' with
    | leaf hw' ht' =>
      rw [List.append_assoc] at heq
      exact absurd heq.symm (hw'.not_paren _ _)
    | prefixed op' hl' ht' =>
      simp only [List.cons_append, List.append_assoc] at heq
      obtain ⟨-, hrest⟩ := ihl hl' (symbol_unique heq).2
      cases hrest
    | binary op' hl' hr' ht' =>
      simp only [List.cons_append, List.append_assoc] at heq
      obtain ⟨hsymbol, hoperands⟩ := symbol_unique heq
      obtain ⟨rfl, hright⟩ := ihl hl' hoperands
      obtain ⟨rfl, htype⟩ := ihr hr' (List.cons.inj hright).2
      obtain ⟨rfl, hrest⟩ := typeText_unique ht ht' (List.cons.inj htype).2
      exact ⟨by rw [hsymbol], hrest⟩

/-! ### Lines -/

theorem symbol_not_keyword {op : Operation} {c : Char} (hc : c.isAlpha = true)
    (rest rest' : List Char) : '(' :: (op.symbol.toList ++ rest) ≠ '(' :: c :: rest' := by
  obtain ⟨d, hd, -, halpha⟩ := exists_symbol op
  rw [hd]
  rintro ⟨⟩
  rw [hc] at halpha
  cases halpha

/-- An expression is no statement of another kind: there is no letter after its parenthesis. -/
theorem Lists.not_keyword {e : Outline.Expr} {text : List Char} (h : Lists e text) {c : Char}
    (hc : c.isAlpha = true) (rest : List Char) : text ≠ '(' :: c :: rest := by
  cases h with
  | leaf hw _ => exact hw.not_paren _ _
  | prefixed op _ _ => exact symbol_not_keyword hc _ _
  | binary op _ _ _ => exact symbol_not_keyword hc _ _

theorem Lists.newline_not_mem {e : Outline.Expr} {text : List Char} (h : Lists e text) :
    '\n' ∉ text := by
  have hmark : '\n' ∈ marks := by decide
  have htype {ty : Ty} (ht : isPlainType ty = true) : '\n' ∉ typeText ty := by
    rcases isPlainType_cases ht with rfl | rfl | rfl <;> decide
  have hsymbol (op : Operation) : '\n' ∉ op.symbol.toList := fun hn => symbol_unmarked op _ hn hmark
  induction h with
  | leaf hw ht =>
    have hword : '\n' ∉ _ := fun hn => hw.unmarked _ hn hmark
    simp [hword, htype ht]
  | prefixed op hl ht ih => simp [hsymbol op, ih, htype ht]
  | binary op hl hr ht ihl ihr => simp [hsymbol op, ihl, ihr, htype ht]

/-- The line of a statement that is no block, without its indentation. -/
inductive Line : Outline.Stmt → List Char → Prop where
  /-- An expression. -/
  | expr {e : Outline.Expr} {text : List Char} : Lists e text → Line (.expr e) text
  /-- A variable and its value. -/
  | bind {name : String} {e : Outline.Expr} {text : List Char} : Word name.toList true →
      Lists e text →
      Line (.bind name e) ("(let ".toList ++ (name.toList ++ ' ' :: (text ++ [')'])))
  /-- An expression whose value is printed. -/
  | print {e : Outline.Expr} {text : List Char} : Lists e text →
      Line (.print e) ("(print ".toList ++ (text ++ [')']))

theorem Lists.eq_of_eq {e e' : Outline.Expr} {text text' rest : List Char} (h : Lists e text)
    (h' : Lists e' text') (heq : text ++ rest = text' ++ rest) : e = e' :=
  (h.unique h' heq).1

theorem Line.unique {s s' : Outline.Stmt} {text text' : List Char} (h : Line s text)
    (h' : Line s' text') (heq : text = text') : s = s' := by
  cases h with
  | expr hl =>
    cases h' with
    | expr hl' => rw [hl.eq_of_eq hl' (congrArg (· ++ []) heq)]
    | bind hw' hl' => exact absurd heq (hl.not_keyword (c := 'l') rfl _)
    | print hl' => exact absurd heq (hl.not_keyword (c := 'p') rfl _)
  | bind hw hl =>
    cases h' with
    | expr hl' => exact absurd heq.symm (hl'.not_keyword (c := 'l') rfl _)
    | bind hw' hl' =>
      obtain ⟨hname, hvalue⟩ := append_mark_inj (by decide) hw.unmarked hw'.unmarked
        (List.append_cancel_left heq)
      rw [hl.eq_of_eq hl' hvalue, String.toList_inj.mp hname]
    | print hl' => cases heq
  | print hl =>
    cases h' with
    | expr hl' => exact absurd heq.symm (hl'.not_keyword (c := 'p') rfl _)
    | bind hw' hl' => cases heq
    | print hl' => rw [hl.eq_of_eq hl' (List.append_cancel_left heq)]

theorem Line.not_block {s : Outline.Stmt} {text : List Char} (h : Line s text) :
    text ≠ "(block".toList := by
  cases h with
  | expr hl => exact hl.not_keyword (c := 'b') rfl _
  | bind hw hl =>
    intro heq
    cases heq
  | print hl =>
    intro heq
    cases heq

theorem Line.newline_not_mem {s : Outline.Stmt} {text : List Char} (h : Line s text) :
    '\n' ∉ text := by
  cases h with
  | expr hl => exact hl.newline_not_mem
  | bind hw hl =>
    have hword : '\n' ∉ _ := fun hn => hw.unmarked _ hn (by decide)
    simp [hword, hl.newline_not_mem]
  | print hl => simp [hl.newline_not_mem]

theorem Line.ne_nil {s : Outline.Stmt} {text : List Char} (h : Line s text) : text ≠ [] := by
  cases h with
  | expr hl =>
    cases hl with
    | leaf hw ht => simp [typeText]
    | prefixed op hl ht => simp
    | binary op hl hr ht => simp
  | bind hw hl => simp
  | print hl => simp

/-! ### Lists of statements -/

/-- The indentation inside of so many blocks. -/
def blanks (depth : ℕ) : List Char := List.replicate (2 * depth) ' '

/-- The lines of statements that stand inside of so many blocks. -/
inductive Lines : ℕ → List Outline.Stmt → List (List Char) → Prop where
  /-- There is none. -/
  | nil {depth : ℕ} : Lines depth [] []
  /-- A statement of one line. -/
  | line {depth : ℕ} {s : Outline.Stmt} {l : List Outline.Stmt} {text : List Char}
      {lines : List (List Char)} : Line s text → Lines depth l lines →
      Lines depth (s :: l) ((blanks depth ++ text) :: lines)
  /-- A block. -/
  | block {depth : ℕ} {body l : List Outline.Stmt} {lines lines' : List (List Char)} :
      Lines (depth + 1) body lines → Lines depth l lines' →
      Lines depth (.block body :: l)
        ((blanks depth ++ "(block".toList) :: (lines ++ (blanks depth ++ [')']) :: lines'))

/-- There is no line, or the first one stands farther to the left than statements inside of so many
blocks. -/
def Ended (depth : ℕ) (lines : List (List Char)) : Prop :=
  ∀ line ∈ lines.head?, ¬ blanks depth <+: line

/-- The closing line of a block stands to the left of its statements. -/
theorem ended_close (depth : ℕ) (lines : List (List Char)) :
    Ended (depth + 1) ((blanks depth ++ [')']) :: lines) := by
  rintro line ⟨⟩ hpre
  have hlen := hpre.length_le
  simp [blanks] at hlen
  omega

/-- Where the statements have ended, there are none. -/
theorem Lines.eq_nil {depth : ℕ} {l : List Outline.Stmt} {lines rest rest' : List (List Char)}
    (h : Lines depth l lines) (heq : lines ++ rest = rest') (hr : Ended depth rest') :
    l = [] ∧ lines = [] := by
  subst heq
  cases h with
  | nil => exact ⟨rfl, rfl⟩
  | line hs hl => exact absurd (List.prefix_append _ _) (hr _ rfl)
  | block hb hl => exact absurd (List.prefix_append _ _) (hr _ rfl)

/-- Statements end where a line stands farther to the left. -/
theorem Lines.unique {depth : ℕ} {l l' : List Outline.Stmt}
    {lines lines' rest rest' : List (List Char)} (h : Lines depth l lines) (h' : Lines depth l' lines')
    (hr : Ended depth rest) (hr' : Ended depth rest') (heq : lines ++ rest = lines' ++ rest') :
    l = l' ∧ rest = rest' := by
  induction h generalizing l' lines' rest rest' with
  | nil =>
    obtain ⟨rfl, rfl⟩ := h'.eq_nil heq.symm hr
    exact ⟨rfl, heq⟩
  | line hs hl ih =>
    cases h' with
    | nil => cases ((Lines.line hs hl).eq_nil heq hr').1
    | line hs' hl' =>
      obtain ⟨hline, hlines⟩ := List.cons.inj heq
      obtain rfl := hs.unique hs' (List.append_cancel_left hline)
      obtain ⟨rfl, hrest⟩ := ih hl' hr hr' hlines
      exact ⟨rfl, hrest⟩
    | block hb' hl' =>
      exact absurd (List.append_cancel_left (List.cons.inj heq).1) hs.not_block
  | block hb hl ihb ih =>
    cases h' with
    | nil => cases ((Lines.block hb hl).eq_nil heq hr').1
    | line hs' hl' =>
      exact absurd (List.append_cancel_left (List.cons.inj heq).1.symm) hs'.not_block
    | block hb' hl' =>
      -- what is left after the statements of both blocks starts with a closing line
      simp only [List.cons_append, List.append_assoc] at heq
      obtain ⟨rfl, hclose⟩ := ihb hb' (ended_close _ _) (ended_close _ _) (List.cons.inj heq).2
      obtain ⟨rfl, hrest⟩ := ih hl' hr hr' (List.cons.inj hclose).2
      exact ⟨rfl, hrest⟩

/-! ### The lines of a text -/

theorem newline_not_mem_blanks (depth : ℕ) : '\n' ∉ blanks depth := by
  simp [blanks]

/-- A line has something on it and no line feed. -/
theorem Lines.isLine {depth : ℕ} {l : List Outline.Stmt} {lines : List (List Char)}
    (h : Lines depth l lines) : ∀ line ∈ lines, '\n' ∉ line ∧ line ≠ [] := by
  induction h with
  | nil => simp
  | @line depth s l text lines hs hl ih =>
    intro line hm
    rcases List.mem_cons.mp hm with rfl | hm
    · simp [newline_not_mem_blanks, hs.newline_not_mem, hs.ne_nil]
    · exact ih line hm
  | @block depth body l lines lines' hb hl ihb ih =>
    intro line hm
    rcases List.mem_cons.mp hm with rfl | hm
    · simp [newline_not_mem_blanks]
    · rcases List.mem_append.mp hm with hm | hm
      · exact ihb line hm
      · rcases List.mem_cons.mp hm with rfl | hm
        · simp [newline_not_mem_blanks]
        · exact ih line hm

theorem intercalate_ne_nil {lines : List (List Char)}
    (h : ∀ line ∈ lines, '\n' ∉ line ∧ line ≠ []) (hne : lines ≠ []) :
    ['\n'].intercalate lines ≠ [] := by
  intro hnil
  have hsplit := List.splitOn_intercalate '\n' (fun line hm => (h line hm).1) hne
  rw [hnil, List.splitOn_nil] at hsplit
  exact (h [] (hsplit ▸ List.mem_cons_self)).2 rfl

/-- A text that has something on each line says what its lines are. -/
theorem intercalate_inj {lines lines' : List (List Char)}
    (h : ∀ line ∈ lines, '\n' ∉ line ∧ line ≠ []) (h' : ∀ line ∈ lines', '\n' ∉ line ∧ line ≠ [])
    (heq : ['\n'].intercalate lines = ['\n'].intercalate lines') : lines = lines' := by
  by_cases hnil : lines = []
  · subst hnil
    by_contra hne
    exact intercalate_ne_nil h' (Ne.symm hne) heq.symm
  · by_cases hnil' : lines' = []
    · subst hnil'
      exact absurd heq (intercalate_ne_nil h hnil)
    · rw [← List.splitOn_intercalate '\n' (fun line hm => (h line hm).1) hnil, heq,
        List.splitOn_intercalate '\n' (fun line hm => (h' line hm).1) hnil']

/-! ### Listings -/

@[simp] theorem toString_string (s : String) : toString s = s := rfl

theorem Expr.lists {e : Expr} (h : e.isPlain = true) :
    ∃ text, e.listing = .ok text ∧ Lists e.outline text.toList := by
  induction e with
  | var name ty span =>
    rw [Expr.isPlain, Bool.and_eq_true] at h
    refine ⟨_, rfl, ?_⟩
    have hl := Lists.leaf (word_of_isName h.1) h.2
    simpa [typeText, leaf, Expr.outline] using hl
  | literal value ty span =>
    rw [Expr.isPlain, Bool.and_eq_true] at h
    refine ⟨_, rfl, ?_⟩
    have hl := Lists.leaf (word_render h.1) h.2
    simpa [typeText, leaf, Expr.outline] using hl
  | prefixed op opSpan operand ty span ih =>
    rw [Expr.isPlain, Bool.and_eq_true] at h
    obtain ⟨text, htext, hl⟩ := ih h.1
    rw [Expr.listing, htext]
    refine ⟨_, rfl, ?_⟩
    simpa [typeText, Expr.outline] using Lists.prefixed op hl h.2
  | binary op opSpan lhs rhs ty span ihl ihr =>
    rw [Expr.isPlain, Bool.and_eq_true, Bool.and_eq_true] at h
    obtain ⟨text, htext, hl⟩ := ihl h.1.1
    obtain ⟨text', htext', hr⟩ := ihr h.1.2
    rw [Expr.listing, htext, htext']
    refine ⟨_, rfl, ?_⟩
    simpa [typeText, Expr.outline] using Lists.binary op hl hr h.2
  | stray kind => cases h

theorem toList_indent (depth : ℕ) : (indent depth).toList = blanks depth := by
  rw [indent, String.toList_ofList]
  rfl

mutual
/-- The lines of a statement come before those of other statements. -/
theorem Stmt.lines : ∀ {s : Stmt}, s.isPlain = true → ∀ depth, ∃ lines, s.listing depth = .ok lines ∧
    ∀ {l : List Outline.Stmt} {more : List (List Char)}, Lines depth l more →
      Lines depth (s.outline :: l) (lines.map String.toList ++ more)
  | .expr e span, h, depth => by
    obtain ⟨text, htext, hl⟩ := Expr.lists h
    rw [Stmt.listing, htext]
    refine ⟨_, rfl, fun hmore => ?_⟩
    simpa [toList_indent, Stmt.outline] using Lines.line (.expr hl) hmore
  | .block statements span, h, depth => by
    obtain ⟨lines, hlines, hb⟩ := Stmt.linesList h (depth + 1)
    rw [Stmt.listing, hlines]
    refine ⟨_, rfl, fun hmore => ?_⟩
    simpa [toList_indent, Stmt.outline] using Lines.block hb hmore
  | .bind name value span, h, depth => by
    rw [Stmt.isPlain, Bool.and_eq_true] at h
    obtain ⟨text, htext, hl⟩ := Expr.lists h.2
    rw [Stmt.listing, htext]
    refine ⟨_, rfl, fun hmore => ?_⟩
    simpa [toList_indent, Stmt.outline] using Lines.line (.bind (word_of_isName h.1) hl) hmore
  | .print e span, h, depth => by
    obtain ⟨text, htext, hl⟩ := Expr.lists h
    rw [Stmt.listing, htext]
    refine ⟨_, rfl, fun hmore => ?_⟩
    simpa [toList_indent, Stmt.outline] using Lines.line (.print hl) hmore
theorem Stmt.linesList : ∀ {l : List Stmt}, Stmt.isPlainList l = true → ∀ depth,
    ∃ lines, Stmt.listingList depth l = .ok lines ∧
      Lines depth (Stmt.outlineList l) (lines.map String.toList)
  | [], _, depth => ⟨[], rfl, .nil⟩
  | s :: rest, h, depth => by
    rw [Stmt.isPlainList, Bool.and_eq_true] at h
    obtain ⟨lines, hlines, hs⟩ := Stmt.lines h.1 depth
    obtain ⟨more, hmore, hrest⟩ := Stmt.linesList h.2 depth
    rw [Stmt.listingList, hlines, hmore]
    refine ⟨_, rfl, ?_⟩
    rw [List.map_append]
    exact hs hrest
end

/-- **A listing can be read in one way.** Plain programs have listings, and those with the same listing
have the same outline: they differ only in places, in which of the two operators a minus is, and in
numbers that have the same text. -/
theorem listing_determines_outline {p q : Program} (hp : p.isPlain = true) (hq : q.isPlain = true) :
    (∃ text, p.listing = .ok text) ∧ (p.listing = q.listing → p.outline = q.outline) := by
  obtain ⟨lines, hlines, hl⟩ := Stmt.linesList hp 0
  obtain ⟨lines', hlines', hl'⟩ := Stmt.linesList hq 0
  have hlisting : p.listing = .ok ("\n".intercalate lines) := by
    rw [Program.listing, Typed.listing, hlines]
    rfl
  have hlisting' : q.listing = .ok ("\n".intercalate lines') := by
    rw [Program.listing, Typed.listing, hlines']
    rfl
  refine ⟨⟨_, hlisting⟩, fun heq => ?_⟩
  rw [hlisting, hlisting'] at heq
  have htext := congrArg String.toList (Except.ok.inj heq)
  rw [String.toList_intercalate, String.toList_intercalate] at htext
  have hsame := intercalate_inj hl.isLine hl'.isLine htext
  have hended : Ended 0 [] := by simp [Ended]
  exact (hl.unique hl' hended hended (congrArg (· ++ []) hsame)).1

/-- Names that are words of the listing, a block with nothing in it, a minus of either kind, and two
neighbouring numbers. -/
theorem listing_determines_outline_names :
    let program (op : Operation) (value : Binary64) (span : Span) : Program :=
      ⟨[.block [.bind ⟨"let", span⟩ (.prefixed op span (.literal value .num span) .num span) span,
          .block [] span] span,
        .expr (.var ⟨"block", span⟩ ⟨"Str"⟩ span) span], span⟩
    let p := program (.unary .neg) ⟨0x3FB999999999999A⟩ ⟨0, 0⟩
    let q := program (.binary .sub) ⟨0x3FB999999999999B⟩ ⟨1, 2⟩
    p.isPlain = true ∧ q.isPlain = true ∧ p.listing = q.listing ∧ (∃ text, p.listing = .ok text) ∧
      p.outline = q.outline := by
  intro program p q
  have hp : p.isPlain = true := by decide
  have hq : q.isPlain = true := by decide
  have hsame : p.listing = q.listing := by decide +kernel
  have hread := listing_determines_outline hp hq
  exact ⟨hp, hq, hsame, hread.1, hread.2 hsame⟩

end NumCheck.Typed
