import NumCheck.Proofs.Slices

/-!
# One source after another

Two sources with a newline between them are read as the statements of the first and then those of
the second, which have only moved. The newline ends whatever the first source ends with, a comment
included. After the statements of the first source the parser is where it is at the start of
a source: a statement can start, and nothing waits for it.

Both sources have to be programs by themselves. Nothing is said of a block that is opened in one of
them and closed in the other, nor of the errors in sources that are refused.
-/

namespace NumCheck

theorem Stmt.depthList_append (l m : List Stmt) :
    Stmt.depthList (l ++ m) = max (Stmt.depthList l) (Stmt.depthList m) := by
  induction l with
  | nil => simp [depthList]
  | cons s l ih => rw [List.cons_append, depthList, ih, depthList, Nat.max_assoc]

namespace Parser

/-! ### Statements after statements -/

/-- Statements can be followed by others. -/
theorem ListReads.append {ts us : List Token} {l m : List Stmt} (h : ListReads ts l)
    (h' : ListReads us m) : ListReads (ts ++ us) (l ++ m) := by
  induction h with
  | nil => exact h'
  | bind name a b c d hx _ ih =>
    simp only [List.cons_append, List.append_assoc]
    exact .bind name a b c d hx ih
  | print a d hx _ ih =>
    simp only [List.cons_append, List.append_assoc]
    exact .print a d hx ih
  | block a d hb _ _ ih =>
    simp only [List.cons_append, List.append_assoc]
    exact .block a d hb ih
  | bare d hx hk _ ih =>
    rw [List.append_assoc]
    exact .bare d hx hk ih

theorem NoKeyword.move {ts : List Token} (h : NoKeyword ts) (m : Relocation) :
    NoKeyword (ts.map (Token.move m)) := by
  intro tok htok
  rw [List.head?_map] at htok
  obtain ⟨tok', htok', rfl⟩ := Option.map_eq_some_iff.mp htok
  exact h tok' htok'

/-- Statements can be read at another place. -/
theorem ListReads.move {ts : List Token} {l : List Stmt} (h : ListReads ts l) (m : Relocation) :
    ListReads (ts.map (Token.move m)) (Stmt.mapSpansList m.span l) := by
  induction h with
  | nil => exact .nil
  | bind name a b c d hx _ ih =>
    simp only [List.map_cons, List.map_append]
    exact .bind name (m.span a) (m.span b) (m.span c) (m.span d) (hx.move m) ih
  | print a d hx _ ih =>
    simp only [List.map_cons, List.map_append]
    exact .print (m.span a) (m.span d) (hx.move m) ih
  | block a d _ _ ihb ih =>
    simp only [List.map_cons, List.map_append]
    exact .block (m.span a) (m.span d) ihb ih
  | bare d hx hk _ ih =>
    rw [List.map_append]
    exact .bare (m.span d) (hx.move m) (hk.move m) ih

end Parser

namespace Grammar

/-! ### Sources -/

/-- A newline ends everything before it and starts nothing. -/
theorem scan_newline_append (source source' : String) :
    Token.scan (source ++ "\n" ++ source') =
      Token.scan source ++ (Token.scan source').map (Token.move (.shift (source.length + 1))) := by
  have hchars : (source ++ "\n" ++ source').toList =
      source.toList ++ '\n' :: source'.toList := by simp
  have hnewline (pos : Nat) :
      Token.scanFrom pos 0 ('\n' :: source'.toList) = Token.scanFrom (pos + 1) 0 source'.toList :=
    rfl
  have hshift := scanFrom_shift (source.length + 1) 0 0 source'.toList
  rw [Nat.zero_add] at hshift
  rw [Token.scan, hchars, (cut_newline source.toList source'.toList).scanFrom, hnewline,
    Nat.zero_add, String.length_toList, hshift]
  rfl

/-- **Reading goes from one source to the next.** Two sources with a newline between them are read
as the statements of the first, and then those of the second, as far to the right as its text has
moved. -/
theorem parse_newline_append {source source' : String} {p p' : Program}
    (h : Program.parse source = .ok p) (h' : Program.parse source' = .ok p') :
    Program.parse (source ++ "\n" ++ source') =
      .ok ⟨p.statements ++ Stmt.mapSpansList (Span.shift (source.length + 1)) p'.statements,
        ⟨0, source.length + 1 + source'.length⟩⟩ := by
  obtain ⟨hread, hdepth⟩ := parse_eq_ok_iff.mp h
  obtain ⟨hread', hdepth'⟩ := parse_eq_ok_iff.mp h'
  have hreads := (listReads_of_read hread).append
    ((listReads_of_read hread').move (.shift (source.length + 1)))
  rw [← scan_newline_append] at hreads
  have hlength : (source ++ "\n" ++ source').length = source.length + 1 + source'.length := by
    rw [String.length_append, String.length_append]
    rfl
  rw [← hlength]
  refine parse_of_listReads hreads ?_
  rw [Stmt.depthList_append, Stmt.depthList_mapSpans]
  exact Nat.max_le.mpr ⟨hdepth, hdepth'⟩

/-- After a comment that goes on to the end of the first source, a statement starts, and `let` is a
keyword again. -/
theorem parse_newline_append_comment :
    let source := "\x7b1;\x7d # let"
    let source' := "let let=2;"
    let first : Stmt := .block [.expr (.literal (Binary64.ofNumeral ['1']) ⟨1, 2⟩) ⟨1, 3⟩] ⟨0, 4⟩
    let second : Stmt := .bind ⟨"let", ⟨4, 7⟩⟩ (.literal (Binary64.ofNumeral ['2']) ⟨8, 9⟩) ⟨0, 10⟩
    Program.parse source = .ok ⟨[first], ⟨0, 10⟩⟩ ∧
      Program.parse source' = .ok ⟨[second], ⟨0, 10⟩⟩ ∧
      Program.parse (source ++ "\n" ++ source') =
        .ok ⟨[first, second.mapSpans (Span.shift 11)], ⟨0, 21⟩⟩ := by
  intro source source' first second
  have hparse : Program.parse source = .ok ⟨[first], ⟨0, 10⟩⟩ := by
    refine parse_eq_ok_iff.mpr ⟨?_, by decide⟩
    subst source first
    rfl
  have hparse' : Program.parse source' = .ok ⟨[second], ⟨0, 10⟩⟩ := by
    refine parse_eq_ok_iff.mpr ⟨?_, by decide⟩
    subst source' second
    rfl
  have hboth := parse_newline_append hparse hparse'
  rw [show source.length = 10 by decide, show source'.length = 10 by decide] at hboth
  exact ⟨hparse, hparse', hboth⟩

end Grammar

end NumCheck
