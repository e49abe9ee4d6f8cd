import Mathlib.Data.List.Forall2
import NumCheck.Json.Reader

/-!
# JSON texts can be read back

The text of a value determines the value: the reader takes every text that is written back to the
value it was written from, also with blanks after it. So whatever is shown as JSON can be told from
the characters on the output alone. These are printable characters of ASCII, all on one line.

A text is followed piece by piece. Each piece leads the reader on from what it has read before, with
anything at all open around it. Where a piece ends with a number, only the next character says that
the number is complete; `Leads` leaves this open and `Arrives` does not. The items of a list and the
fields of an object are read alike, as rows of pieces between commas and brackets.

Only texts that `render` writes are considered. What the reader makes of other texts, and that it
refuses those that are no JSON, is not proved.
-/

namespace NumCheck

theorem Text.hexValue?_hexDigit : ∀ {n : Nat}, n < 16 → hexValue? (hexDigit n) = some n := by
  decide

namespace Json

/-! ### Units -/

/-- No character is half of a pair. -/
theorem toNat_bounds (c : Char) : c.toNat < 0xd800 ∨ 0xdfff < c.toNat ∧ c.toNat < 0x110000 :=
  c.valid

theorem units_lt {c : Char} {n : Nat} (h : n ∈ units c) : n < 0x10000 := by
  have hbounds := toNat_bounds c
  rw [units] at h
  split at h
  · rw [List.mem_singleton] at h
    omega
  · rw [List.mem_pair] at h
    omega

/-- A character is read back from its units, one or a pair. -/
theorem ofUnits?_units_append (c : Char) (rest : List Nat) :
    ofUnits? (units c ++ rest) = (ofUnits? rest).map (c :: ·) := by
  have hbounds := toNat_bounds c
  rw [units]
  split
  · rw [List.singleton_append, ofUnits?.eq_def]
    dsimp only
    rw [if_neg (by omega), if_neg (by omega), Char.ofNat_toNat]
  · have hjoin : 0x10000 + (0xd800 + (c.toNat - 0x10000) / 0x400 - 0xd800) * 0x400 +
        (0xdc00 + (c.toNat - 0x10000) % 0x400 - 0xdc00) = c.toNat := by omega
    rw [List.cons_append, List.singleton_append, ofUnits?, if_pos (by omega), if_pos (by omega),
      hjoin, Char.ofNat_toNat]

theorem ofUnits?_flatMap_units (cs : List Char) : ofUnits? (cs.flatMap units) = some cs := by
  induction cs with
  | nil => rfl
  | cons c cs ih => rw [List.flatMap_cons, ofUnits?_units_append, ih, Option.map_some]

namespace Reader

/-! ### Runs -/

@[simp] theorem State.run_nil (s : State) : s.run [] = some s := rfl

@[simp] theorem State.run_cons (s : State) (c : Char) (cs : List Char) :
    s.run (c :: cs) = (s.step c).bind (·.run cs) :=
  List.foldlM_cons ..

@[simp] theorem State.run_append (s : State) (cs ds : List Char) :
    s.run (cs ++ ds) = (s.run cs).bind (·.run ds) :=
  List.foldlM_append ..

variable {p q q' : Progress} {cs ds : List Char} {c : Char}

/-- The characters lead from `p` to `q`, unless a word at their end goes on. -/
def Leads (p : Progress) (cs : List Char) (q : Progress) : Prop :=
  ∃ s, (State.between p).run cs = some s ∧ s.settle = some q

/-- The characters lead from `p` to `q`, whatever comes next. -/
def Arrives (p : Progress) (cs : List Char) (q : Progress) : Prop :=
  (State.between p).run cs = some (.between q)

theorem Arrives.leads (h : Arrives p cs q) : Leads p cs q := ⟨.between q, h, rfl⟩

theorem Arrives.append (h : Arrives p cs q) (h' : Arrives q ds q') : Arrives p (cs ++ ds) q' := by
  rw [Arrives, State.run_append, h, Option.bind_some, h']

theorem Arrives.appendLeads (h : Arrives p cs q) (h' : Leads q ds q') : Leads p (cs ++ ds) q' := by
  obtain ⟨s, hs, hsettle⟩ := h'
  refine ⟨s, ?_, hsettle⟩
  rw [State.run_append, h, Option.bind_some, hs]

/-- A character that is no part of a word completes the word before it. -/
theorem State.step_of_settle {s : State} (h : s.settle = some q) (hc : isWordPart c = false) :
    s.step c = State.start q c := by
  cases s with
  | between p =>
    cases h
    rfl
  | word p letters => simp [State.step, hc, h]
  | text | escape | unit => cases h

theorem Leads.next (h : Leads p cs q) (hc : isWordPart c = false)
    (hstart : State.start q c = some (.between q')) : Arrives p (cs ++ [c]) q' := by
  obtain ⟨s, hs, hsettle⟩ := h
  simp [Arrives, hs, State.step_of_settle hsettle hc, hstart]

theorem isWordPart_of_isBlank (h : isBlank c = true) : isWordPart c = false := by
  simp only [isBlank, Bool.or_eq_true, beq_iff_eq] at h
  rcases h with ((rfl | rfl) | rfl) | rfl <;> rfl

theorem Leads.blank (h : Leads p cs q) (hc : isBlank c = true) : Arrives p (cs ++ [c]) q :=
  h.next (isWordPart_of_isBlank hc) (by rw [State.start, if_pos hc])

theorem Leads.blanks (h : Leads p cs q) (hds : ∀ c ∈ ds, isBlank c = true) :
    Leads p (cs ++ ds) q := by
  induction ds generalizing cs with
  | nil => rwa [List.append_nil]
  | cons c ds ih =>
    rw [List.forall_mem_cons] at hds
    rw [List.append_cons]
    exact ih (h.blank hds.1).leads hds.2

/-- The character is read as a mark. -/
def IsMark (c : Char) : Prop :=
  isWordPart c = false ∧ ∀ q, State.start q c = (q.mark c).map .between

theorem Leads.mark (h : Leads p cs q) (hc : IsMark c) (hmark : q.mark c = some q') :
    Arrives p (cs ++ [c]) q' :=
  h.next hc.1 (by rw [hc.2, hmark, Option.map_some])

/-! ### Strings -/

variable {us : List Nat}

theorem run_hex {n : Nat} (h : n < 0x10000) :
    (State.unit p us 3 0).run (Text.hex 4 n) = some (.text p (n :: us)) := by
  have hdigit : ∀ m, Text.hexValue? (Text.hexDigit (m % 16)) = some (m % 16) :=
    fun m => Text.hexValue?_hexDigit (Nat.mod_lt m (by decide))
  have hn : 16 * (16 * (16 * (n / 16 / 16 / 16 % 16) + n / 16 / 16 % 16) + n / 16 % 16) + n % 16 =
      n := by omega
  simp [Text.hex, State.step, hdigit, hn]

theorem run_units {ns : List Nat} (h : ∀ n ∈ ns, n < 0x10000) :
    (State.text p us).run (ns.flatMap fun n => '\\' :: 'u' :: Text.hex 4 n) =
      some (.text p (ns.reverse ++ us)) := by
  induction ns generalizing us with
  | nil => rfl
  | cons n ns ih =>
    rw [List.forall_mem_cons] at h
    have hfirst : (State.text p us).run ('\\' :: 'u' :: Text.hex 4 n) = some (.text p (n :: us)) :=
      run_hex h.1
    rw [List.flatMap_cons, State.run_append, hfirst, Option.bind_some, ih h.2]
    simp

/-- A character in a string is read back as its units, in whatever form it stands there. -/
theorem run_escape (c : Char) :
    (State.text p us).run (escape c) = some (.text p ((units c).reverse ++ us)) := by
  rw [escape]
  -- the characters that have a letter of their own
  iterate 7
    split
    · rename_i h
      cases beq_iff_eq.mp h
      rfl
  split
  · rename_i hquote hbackslash _ _ _ _ _ hprintable
    simp only [Bool.and_eq_true, decide_eq_true_eq] at hprintable
    have hunits : units c = [c.toNat] := if_pos (by omega)
    simp [State.step, hquote, hbackslash, hunits, Nat.not_lt.mpr hprintable.1]
  · exact run_units fun n hn => units_lt hn

theorem run_escapes (cs : List Char) :
    (State.text p us).run (cs.flatMap escape) =
      some (.text p ((cs.flatMap units).reverse ++ us)) := by
  induction cs generalizing us with
  | nil => rfl
  | cons c cs ih => simp [run_escape, ih]

theorem toList_quote (s : String) :
    (quote s).toList = '"' :: (s.toList.flatMap escape ++ ['"']) := by
  simp [quote]

theorem arrives_quote (opened : List Opened) (s : String) :
    Arrives ⟨none, opened⟩ (quote s).toList ⟨some (.str s), opened⟩ := by
  have hopen : (State.between ⟨none, opened⟩).step '"' = some (.text ⟨none, opened⟩ []) := rfl
  have hclose : (State.text ⟨none, opened⟩ (s.toList.flatMap units).reverse).step '"' =
      some (.between ⟨some (.str s), opened⟩) := by
    simp [State.step, ofUnits?_flatMap_units, Progress.give]
  rw [Arrives, toList_quote, State.run_cons, hopen, Option.bind_some, State.run_append, run_escapes,
    List.append_nil, Option.bind_some, State.run_cons, hclose]
  rfl

/-! ### Words -/

theorem start_of_isWordPart (h : isWordPart c = true) : State.start p c = some (.word p [c]) := by
  have hblank : isBlank c = false := by
    rw [← Bool.not_eq_true]
    intro hb
    rw [isWordPart_of_isBlank hb] at h
    cases h
  have hquote : (c == '"') = false := by
    rw [beq_eq_false_iff_ne]
    rintro rfl
    cases h
  simp [State.start, hblank, hquote, h]

theorem run_word {letters : List Char} (h : ∀ c ∈ cs, isWordPart c = true) :
    (State.word p letters).run cs = some (.word p (cs.reverse ++ letters)) := by
  induction cs generalizing letters with
  | nil => rfl
  | cons c cs ih =>
    rw [List.forall_mem_cons] at h
    simp [State.step, h.1, ih h.2]

theorem leads_word {v : Json} (opened : List Opened) (hparts : ∀ c ∈ cs, isWordPart c = true)
    (hvalue : ofWord? cs = some v) : Leads ⟨none, opened⟩ cs ⟨some v, opened⟩ := by
  refine ⟨.word ⟨none, opened⟩ cs.reverse, ?_, by simp [State.settle, hvalue, Progress.give]⟩
  cases cs with
  | nil => cases hvalue
  | cons c cs =>
    rw [List.forall_mem_cons] at hparts
    have hfirst : (State.between ⟨none, opened⟩).step c = some (.word ⟨none, opened⟩ [c]) :=
      start_of_isWordPart hparts.1
    simp [hfirst, run_word hparts.2]

theorem natural?_toDigits (n : Nat) : natural? (Nat.toDigits 10 n) = some n := by
  have hdigits : (Nat.toDigits 10 n).all Char.isDigit = true := by
    rw [List.all_eq_true]
    exact fun c hc => Nat.isDigit_of_mem_toDigits (by decide) (by decide) hc
  rw [natural?, if_pos ⟨Nat.toDigits_ne_nil, hdigits⟩,
    Nat.ofDigitChars_toDigits (by decide) (by decide)]

theorem toList_int (n : Int) : ∃ m : Nat, (n = m ∧ (toString n).toList = Nat.toDigits 10 m) ∨
    n = -m ∧ (toString n).toList = '-' :: Nat.toDigits 10 m := by
  cases n with
  | ofNat m => exact ⟨m, .inl ⟨rfl, Nat.toList_repr⟩⟩
  | negSucc m => exact ⟨m + 1, .inr ⟨rfl, by simp [Int.toString_eq_repr, Int.repr]⟩⟩

theorem isWordPart_of_mem_int {n : Int} (h : c ∈ (toString n).toList) : isWordPart c = true := by
  have hdigits : ∀ m, c ∈ Nat.toDigits 10 m → isWordPart c = true := by
    intro m hm
    have hdigit : c.isDigit = true := Nat.isDigit_of_mem_toDigits (by decide) (by decide) hm
    simp [isWordPart, hdigit]
  obtain ⟨m, ⟨-, hchars⟩ | ⟨-, hchars⟩⟩ := toList_int n
  · rw [hchars] at h
    exact hdigits m h
  · rw [hchars, List.mem_cons] at h
    rcases h with rfl | h
    · rfl
    · exact hdigits m h

theorem ofWord?_int (n : Int) : ofWord? (toString n).toList = some (.int n) := by
  obtain ⟨m, ⟨rfl, hchars⟩ | ⟨rfl, hchars⟩⟩ := toList_int n
  · rw [hchars]
    simp [ofWord?, natural?_toDigits]
  · have hminus : natural? ('-' :: Nat.toDigits 10 m) = none := by
      rw [natural?, if_neg (by simp)]
    rw [hchars]
    simp [ofWord?, hminus, natural?_toDigits]

/-! ### Rows -/

/-- Pieces in a row, between brackets and with commas, and what has been read at each place. -/
structure Row {α : Type} (Piece : String → α → Prop) where
  /-- What has been read before the row. -/
  start : Progress
  /-- What has been read before a piece. The pieces before it are there, the latest first. -/
  before : List α → Progress
  /-- What has been read after a piece. -/
  after : α → List α → Progress
  /-- What has been read after the row. -/
  closed : List α → Progress
  /-- The bracket before the row. -/
  opening : Char
  /-- The bracket after it. -/
  closing : Char
  isMark : IsMark opening ∧ IsMark closing
  opens : start.mark opening = some (before [])
  piece : ∀ {text a}, Piece text a → ∀ done, Leads (before done) text.toList (after a done)
  comma : ∀ a done, (after a done).mark ',' = some (before (a :: done))
  closes : ∀ a done, (after a done).mark closing = some (closed (a :: done).reverse)
  closesEmpty : (before []).mark closing = some (closed [])

variable {α : Type} {Piece : String → α → Prop}

theorem Row.arrives_pieces (row : Row Piece) {texts : List String} {l : List α}
    (h : List.Forall₂ Piece texts l) (hne : l ≠ []) (done : List α) :
    Arrives (row.before done) ((", ".intercalate texts).toList ++ [row.closing])
      (row.closed (done.reverse ++ l)) := by
  induction h generalizing done with
  | nil => exact absurd rfl hne
  | @cons text a texts l hfirst hrest ih =>
    have hafter := row.piece hfirst done
    cases hrest with
    | nil =>
      rw [String.intercalate_singleton, ← List.reverse_cons]
      exact hafter.mark row.isMark.2 (row.closes a done)
    | cons =>
      have hnext : Arrives (row.before done) (text.toList ++ [','] ++ [' '])
          (row.before (a :: done)) :=
        (hafter.mark ⟨rfl, fun _ => rfl⟩ (row.comma a done)).leads.blank rfl
      have hall := hnext.append (ih (List.cons_ne_nil _ _) (a :: done))
      simpa [String.intercalate_cons_cons] using hall

theorem Row.arrives (row : Row Piece) {texts : List String} {l : List α}
    (h : List.Forall₂ Piece texts l) :
    Arrives row.start (row.opening :: (", ".intercalate texts).toList ++ [row.closing])
      (row.closed l) := by
  have hstart : Arrives row.start [] row.start := rfl
  have hopen : Arrives row.start [row.opening] (row.before []) :=
    hstart.leads.mark row.isMark.1 row.opens
  by_cases hl : l = []
  · subst hl
    cases h
    exact hopen.leads.mark row.isMark.2 row.closesEmpty
  · exact hopen.append (row.arrives_pieces h hl [])

/-! ### Values -/

/-- The text is read as the value, wherever a value may stand. -/
def Reads (text : String) (v : Json) : Prop :=
  ∀ opened, Leads ⟨none, opened⟩ text.toList ⟨some v, opened⟩

/-- The text is read as the field, wherever a field may stand. -/
def ReadsField (text : String) (f : String × Json) : Prop :=
  ∀ done opened, Leads ⟨none, .fields done :: opened⟩ text.toList
    ⟨some f.2, .field f.1 done :: opened⟩

/-- The items of a list. -/
def itemRow (opened : List Opened) : Row Reads where
  start := ⟨none, opened⟩
  before done := ⟨none, .items done :: opened⟩
  after v done := ⟨some v, .items done :: opened⟩
  closed items := ⟨some (.arr items), opened⟩
  opening := '['
  closing := ']'
  isMark := ⟨⟨rfl, fun _ => rfl⟩, ⟨rfl, fun _ => rfl⟩⟩
  opens := rfl
  piece h _ := h _
  comma _ _ := rfl
  closes _ _ := rfl
  closesEmpty := rfl

/-- The fields of an object. -/
def fieldRow (opened : List Opened) : Row ReadsField where
  start := ⟨none, opened⟩
  before done := ⟨none, .fields done :: opened⟩
  after f done := ⟨some f.2, .field f.1 done :: opened⟩
  closed fields := ⟨some (.obj fields), opened⟩
  opening := '\x7b'
  closing := '\x7d'
  isMark := ⟨⟨rfl, fun _ => rfl⟩, ⟨rfl, fun _ => rfl⟩⟩
  opens := rfl
  piece h _ := h _ _
  comma _ _ := rfl
  closes _ _ := rfl
  closesEmpty := rfl

theorem reads_arr {texts : List String} {items : List Json} (h : List.Forall₂ Reads texts items) :
    Reads ("[" ++ ", ".intercalate texts ++ "]") (.arr items) := by
  intro opened
  have hrow := ((itemRow opened).arrives h).leads
  simpa [itemRow] using hrow

theorem reads_obj {texts : List String} {fields : List (String × Json)}
    (h : List.Forall₂ ReadsField texts fields) :
    Reads ("\x7b" ++ ", ".intercalate texts ++ "\x7d") (.obj fields) := by
  intro opened
  have hrow := ((fieldRow opened).arrives h).leads
  simpa [fieldRow] using hrow

theorem readsField {text : String} {v : Json} (name : String) (h : Reads text v) :
    ReadsField (quote name ++ ": " ++ text) (name, v) := by
  intro done opened
  have hname := arrives_quote (.fields done :: opened) name
  have hcolon : Arrives ⟨none, .fields done :: opened⟩ ((quote name).toList ++ [':'] ++ [' '])
      ⟨none, .field name done :: opened⟩ :=
    (hname.leads.mark ⟨rfl, fun _ => rfl⟩ rfl).leads.blank rfl
  simpa using hcolon.appendLeads (h (.field name done :: opened))

mutual
/-- The text of a value is read as the value. -/
theorem reads_render : ∀ v : Json, Reads v.render v
  | .null => fun _ => ⟨_, rfl, rfl⟩
  | .int n => fun opened => leads_word opened (fun _ => isWordPart_of_mem_int) (ofWord?_int n)
  | .str s => fun opened => (arrives_quote opened s).leads
  | .arr items => reads_arr (reads_renderList items)
  | .obj fields => reads_obj (reads_renderFields fields)
theorem reads_renderList : ∀ items : List Json, List.Forall₂ Reads (renderList items) items
  | [] => .nil
  | v :: rest => .cons (reads_render v) (reads_renderList rest)
theorem reads_renderFields : ∀ fields : List (String × Json),
    List.Forall₂ ReadsField (renderFields fields) fields
  | [] => .nil
  | f :: rest => .cons (reads_renderField f) (reads_renderFields rest)
theorem reads_renderField : ∀ f : String × Json, ReadsField (renderField f) f
  | (name, v) => readsField name (reads_render v)
end

end Reader

/-- **JSON can be read back.** The text of a value, with any blanks after it, stands for that value
and no other. -/
theorem read?_render (v : Json) {blanks : String} (h : ∀ c ∈ blanks.toList, isBlank c = true) :
    read? (v.render ++ blanks) = some v := by
  obtain ⟨s, hrun, hsettle⟩ := (Reader.reads_render v []).blanks h
  have hstart : (Reader.State.between {}).run (v.render ++ blanks).toList = some s := by
    rw [String.toList_append]
    exact hrun
  rw [read?, hstart, Option.bind_some, Reader.State.finish, hsettle]

-- Other writers may put their blanks elsewhere, and use digits of either case.
example : read? " \x7b\"a\" :[-1,\"\\uD83d\\uDE00\"]\x7d" =
    some (.obj [("a", .arr [.int (-1), .str "😀"])]) := by
  cbv

/-! ### Characters -/

/-- A printable character of ASCII. -/
def IsPrintable (c : Char) : Prop := 0x20 ≤ c.toNat ∧ c.toNat < 0x7f

/-- The text has only printable characters of ASCII. In particular it is one line. -/
def PrintableAscii (text : String) : Prop := ∀ c ∈ text.toList, IsPrintable c

theorem PrintableAscii.append {s t : String} (hs : PrintableAscii s) (ht : PrintableAscii t) :
    PrintableAscii (s ++ t) := by
  intro c hc
  rw [String.toList_append, List.mem_append] at hc
  exact hc.elim (hs c) (ht c)

theorem PrintableAscii.row {texts : List String} (h : ∀ t ∈ texts, PrintableAscii t) :
    PrintableAscii (", ".intercalate texts) := by
  induction texts with
  | nil => simp [PrintableAscii]
  | cons t texts ih =>
    rw [List.forall_mem_cons] at h
    cases texts with
    | nil => simpa using h.1
    | cons t' texts =>
      rw [String.intercalate_cons_cons]
      exact (h.1.append (by simp [PrintableAscii, IsPrintable])).append (ih h.2)

theorem isPrintable_of_isWordPart {c : Char} (h : isWordPart c = true) : IsPrintable c := by
  unfold isWordPart Char.isDigit Char.isLower at h
  simp [UInt32.le_iff_toNat_le] at h
  rw [IsPrintable]
  rcases h with (rfl | h) | h
  · decide
  · omega
  · omega

theorem isPrintable_of_mem_hex {c : Char} {width n : Nat} (h : c ∈ Text.hex width n) :
    IsPrintable c := by
  have hdigit : ∀ m < 16, 0x20 ≤ (Text.hexDigit m).toNat ∧ (Text.hexDigit m).toNat < 0x7f := by
    decide
  induction width generalizing n with
  | zero => simp [Text.hex] at h
  | succ width ih =>
    rw [Text.hex, List.mem_append, List.mem_singleton] at h
    rcases h with h | rfl
    · exact ih h
    · exact hdigit _ (Nat.mod_lt n (by decide))

theorem isPrintable_of_mem_escape {c c' : Char} (h : c' ∈ escape c) : IsPrintable c' := by
  rw [escape] at h
  -- the characters that have a letter of their own
  iterate 7
    split at h
    · rw [List.mem_pair] at h
      rcases h with rfl | rfl <;> exact ⟨by decide, by decide⟩
  split at h
  · rename_i hprintable
    rw [List.mem_singleton] at h
    simpa [IsPrintable, h] using hprintable
  · simp only [List.mem_flatMap, List.mem_cons] at h
    obtain ⟨n, -, rfl | rfl | h⟩ := h
    · exact ⟨by decide, by decide⟩
    · exact ⟨by decide, by decide⟩
    · exact isPrintable_of_mem_hex h

theorem printableAscii_quote (s : String) : PrintableAscii (quote s) := by
  intro c hc
  rw [Reader.toList_quote, List.mem_cons, List.mem_append, List.mem_flatMap,
    List.mem_singleton] at hc
  rcases hc with rfl | ⟨c', -, hc⟩ | rfl
  · exact ⟨by decide, by decide⟩
  · exact isPrintable_of_mem_escape hc
  · exact ⟨by decide, by decide⟩

mutual
/-- **JSON is written on one line**, in printable characters of ASCII. -/
theorem printableAscii_render : ∀ v : Json, PrintableAscii v.render
  | .null => by simp [PrintableAscii, IsPrintable, render]
  | .int n => fun c hc => isPrintable_of_isWordPart (Reader.isWordPart_of_mem_int hc)
  | .str s => printableAscii_quote s
  | .arr items => by
    have hrow := PrintableAscii.row (printableAscii_renderList items)
    exact (PrintableAscii.append (by simp [PrintableAscii, IsPrintable]) hrow).append
      (by simp [PrintableAscii, IsPrintable])
  | .obj fields => by
    have hrow := PrintableAscii.row (printableAscii_renderFields fields)
    exact (PrintableAscii.append (by simp [PrintableAscii, IsPrintable]) hrow).append
      (by simp [PrintableAscii, IsPrintable])
theorem printableAscii_renderList : ∀ items : List Json, ∀ t ∈ renderList items, PrintableAscii t
  | [] => by simp [renderList]
  | v :: rest => by
    rw [renderList, List.forall_mem_cons]
    exact ⟨printableAscii_render v, printableAscii_renderList rest⟩
theorem printableAscii_renderFields : ∀ fields : List (String × Json),
    ∀ t ∈ renderFields fields, PrintableAscii t
  | [] => by simp [renderFields]
  | f :: rest => by
    rw [renderFields, List.forall_mem_cons]
    exact ⟨printableAscii_renderField f, printableAscii_renderFields rest⟩
theorem printableAscii_renderField : ∀ f : String × Json, PrintableAscii (renderField f)
  | (name, v) => by
    have hname : PrintableAscii (quote name ++ ": ") :=
      (printableAscii_quote name).append (by simp [PrintableAscii, IsPrintable])
    exact hname.append (printableAscii_render v)
end

end Json

end NumCheck
