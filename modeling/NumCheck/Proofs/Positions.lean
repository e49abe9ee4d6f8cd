import Mathlib.Data.List.Induction
import NumCheck.Position

/-!
# Places and offsets

Line and column of an offset are found by two searches through the text before it: how many line
feeds there are, and how far back the last of them is. A character moves the place on: a line feed
to the start of the next line, any other character by one column. So places come in the order of
their offsets, line first.

The other way round, a line and a column have an offset as soon as the source has such a line and
the column is at most one past its end. It is the length of the lines before, with their line feeds,
and of what stands before the column.

A line ends with a line feed only, and a column counts characters, not what is seen of them: a tab
or a combining mark is one column.
-/

namespace NumCheck.Position

/-! ### The order of places -/

/-- An earlier line, or the same line and an earlier column. -/
def Precedes (p q : Position) : Prop := p.line < q.line ∨ p.line = q.line ∧ p.column < q.column

theorem Precedes.trans {p q r : Position} (hpq : p.Precedes q) (hqr : q.Precedes r) :
    p.Precedes r := by
  unfold Precedes at *
  omega

/-- The place after the character `c`. -/
def advance (p : Position) (c : Char) : Position :=
  if c = '\n' then ⟨p.line + 1, 1⟩ else ⟨p.line, p.column + 1⟩

theorem precedes_advance (p : Position) (c : Char) : p.Precedes (p.advance c) := by
  unfold Precedes advance
  by_cases hc : c = '\n' <;> simp [hc]

theorem after_concat (before : List Char) (c : Char) :
    after (before ++ [c]) = (after before).advance c := by
  by_cases hc : c = '\n' <;> simp [after, advance, hc]

/-- The step from one offset to the next. -/
theorem precedes_after_succ {text : List Char} {k : Nat} (hk : k < text.length) :
    (after (text.take k)).Precedes (after (text.take (k + 1))) := by
  rw [List.take_succ_eq_append_getElem hk, after_concat]
  exact precedes_advance _ _

/-- Places come in the order of their offsets. -/
theorem precedes_after {text : List Char} {a b : Nat} (hab : a < b) (hb : b ≤ text.length) :
    (after (text.take a)).Precedes (after (text.take b)) := by
  induction hab with
  | refl => exact precedes_after_succ hb
  | step _ ih => exact (ih (Nat.le_of_succ_le hb)).trans (precedes_after_succ hb)

/-! ### The places of a text -/

/-- The text has such a line, and the column is at most one past its end. -/
def Within (text : List Char) (p : Position) : Prop :=
  (1 ≤ p.line ∧ p.line ≤ 1 + text.count '\n') ∧
    1 ≤ p.column ∧ p.column ≤ 1 + ((text.splitOn '\n').getD (p.line - 1) []).length

/-- How many characters stand before a place: the lines before its own, each with its line feed,
and what comes before its column. -/
def offsetIn (text : List Char) (p : Position) : Nat :=
  (((text.splitOn '\n').take (p.line - 1)).flatMap (· ++ ['\n'])).length + (p.column - 1)

/-- A line feed in front makes an empty line; any other character goes to the first line. -/
theorem splitOn_cons (c : Char) (text : List Char) :
    ∃ first others, text.splitOn '\n' = first :: others ∧
      (c :: text).splitOn '\n' = if c = '\n' then [] :: first :: others else (c :: first) :: others := by
  cases hs : text.splitOn '\n' with
  | nil => exact absurd hs (List.splitOn_ne_nil _ _)
  | cons first others =>
    refine ⟨first, others, rfl, ?_⟩
    simp [List.splitOn_cons_eq_if_modifyHead, hs]

/-- With a line feed in front a place is one line further down; with another character it stays,
or is one column further to the right if it is in the first line. -/
def behind (c : Char) (p : Position) : Position :=
  if c = '\n' then ⟨p.line + 1, p.column⟩ else if p.line = 1 then ⟨1, p.column + 1⟩ else p

theorem one_le_line_after (before : List Char) : 1 ≤ (after before).line :=
  Nat.le_add_left 1 _

/-- What comes in front and what comes at the end do not interfere. -/
theorem behind_advance {p : Position} (hp : 1 ≤ p.line) (c d : Char) :
    (p.advance d).behind c = (p.behind c).advance d := by
  unfold advance behind
  by_cases hc : c = '\n' <;> by_cases hd : d = '\n' <;> by_cases hone : p.line = 1 <;>
    simp [hc, hd, hone]
  omega

theorem after_cons (c : Char) (before : List Char) :
    after (c :: before) = (after before).behind c := by
  induction before using List.reverseRecOn with
  | nil => by_cases hc : c = '\n' <;> simp [after, behind, hc]
  | append_singleton before d ih =>
    rw [← List.cons_append, after_concat, after_concat, ih,
      behind_advance (one_le_line_after before)]

/-- A place behind the character `c` is one of a longer text. -/
theorem Within.behind {text : List Char} {p : Position} (h : Within text p) (c : Char) :
    Within (c :: text) (p.behind c) := by
  obtain ⟨first, others, hs, hcons⟩ := splitOn_cons c text
  unfold Within at *
  rw [hs] at h
  rw [hcons]
  unfold Position.behind
  by_cases hc : c = '\n'
  · obtain ⟨line, hline⟩ : ∃ line, p.line = line + 1 := ⟨p.line - 1, by omega⟩
    simp [hc, hline] at h ⊢
    omega
  · obtain ⟨line, hline⟩ : ∃ line, p.line = line + 1 := ⟨p.line - 1, by omega⟩
    cases line with
    | zero =>
      simp [hc, hline] at h ⊢
      omega
    | succ line =>
      simp [hc, hline] at h ⊢
      omega

/-- The place of an offset is one of the text. -/
theorem within_after {text : List Char} {k : Nat} (hk : k ≤ text.length) :
    Within text (after (text.take k)) := by
  induction text generalizing k with
  | nil => simp [Within, after]
  | cons c text ih =>
    cases k with
    | zero => simp [Within, after]
    | succ k =>
      rw [List.take_succ_cons, after_cons]
      exact (ih (Nat.le_of_succ_le_succ hk)).behind c

/-- Behind the character `c` the offset is one more. -/
theorem offsetIn_behind {text : List Char} {p : Position} (h : Within text p) (c : Char) :
    offsetIn (c :: text) (p.behind c) = offsetIn text p + 1 := by
  obtain ⟨first, others, hs, hcons⟩ := splitOn_cons c text
  unfold offsetIn
  unfold Within at h
  rw [hs] at h ⊢
  rw [hcons]
  unfold Position.behind
  obtain ⟨line, hline⟩ : ∃ line, p.line = line + 1 := ⟨p.line - 1, by omega⟩
  by_cases hc : c = '\n'
  · simp [hc, hline]
    omega
  · cases line with
    | zero =>
      simp [hc, hline] at h ⊢
      omega
    | succ line =>
      simp [hc, hline]
      omega

/-- The place of an offset has this offset. -/
theorem offsetIn_after {text : List Char} {k : Nat} (hk : k ≤ text.length) :
    offsetIn text (after (text.take k)) = k := by
  induction text generalizing k with
  | nil => simp_all [offsetIn, after]
  | cons c text ih =>
    cases k with
    | zero => simp [offsetIn, after]
    | succ k =>
      have hk := Nat.le_of_succ_le_succ hk
      rw [List.take_succ_cons, after_cons, offsetIn_behind (within_after hk), ih hk]

/-- A place of a text is its start, or it stands behind the first character. -/
theorem Within.start_or_behind {c : Char} {text : List Char} {p : Position}
    (h : Within (c :: text) p) : p = ⟨1, 1⟩ ∨ ∃ q, Within text q ∧ p = q.behind c := by
  obtain ⟨first, others, hs, hcons⟩ := splitOn_cons c text
  obtain ⟨line, column⟩ := p
  unfold Within at *
  rw [hcons] at h
  rw [hs]
  obtain ⟨line, rfl⟩ : ∃ l, line = l + 1 := ⟨line - 1, by simp only at h; omega⟩
  obtain ⟨column, rfl⟩ : ∃ k, column = k + 1 := ⟨column - 1, by simp only at h; omega⟩
  by_cases hc : c = '\n'
  · cases line with
    | zero =>
      left
      simp [hc] at h
      simp [h]
    | succ line =>
      right
      refine ⟨⟨line + 1, column + 1⟩, ?_, by simp [Position.behind, hc]⟩
      simp [hc] at h ⊢
      omega
  · cases line with
    | zero =>
      cases column with
      | zero => exact .inl rfl
      | succ column =>
        right
        refine ⟨⟨1, column + 1⟩, ?_, by simp [Position.behind, hc]⟩
        simp [hc] at h ⊢
        omega
    | succ line =>
      right
      refine ⟨⟨line + 1 + 1, column + 1⟩, ?_, by simp [Position.behind, hc]⟩
      simp [hc] at h ⊢
      omega

/-- Each place of a text is the place of an offset. -/
theorem Within.exists_offset {text : List Char} {p : Position} (h : Within text p) :
    ∃ k, k ≤ text.length ∧ after (text.take k) = p := by
  induction text generalizing p with
  | nil =>
    obtain ⟨line, column⟩ := p
    obtain rfl : line = 1 := by simp [Within] at h; omega
    obtain rfl : column = 1 := by simp [Within] at h; omega
    exact ⟨0, Nat.le_refl 0, rfl⟩
  | cons c text ih =>
    rcases h.start_or_behind with rfl | ⟨q, hq, rfl⟩
    · exact ⟨0, Nat.zero_le _, rfl⟩
    · obtain ⟨k, hk, rfl⟩ := ih hq
      exact ⟨k + 1, Nat.succ_le_succ hk, by rw [List.take_succ_cons, after_cons]⟩

/-! ### The places of a source -/

theorem ofOffset_natCast (source : String) (k : Nat) :
    ofOffset source k = after (source.toList.take k) := by
  rw [ofOffset, Int.toNat_natCast]

/-- **The offsets of a source and its places correspond to each other.** A later offset has a later
place. The places are those with a line of the source, and a column up to one past the end of this
line; the offset is the length of the lines before, with their line feeds, and one less than the
column. An offset outside of the source has the place of the nearer end. -/
theorem ofOffset_bijective (source : String) :
    (∀ a b : Nat, a < b → b ≤ source.length →
      (ofOffset source a).Precedes (ofOffset source b)) ∧
    (∀ p : Position, (∃ k : Nat, k ≤ source.length ∧ ofOffset source k = p) ↔
      (1 ≤ p.line ∧ p.line ≤ 1 + source.toList.count '\n') ∧
        1 ≤ p.column ∧ p.column ≤ 1 + ((source.toList.splitOn '\n').getD (p.line - 1) []).length) ∧
    (∀ k : Nat, k ≤ source.length →
      k = (((source.toList.splitOn '\n').take ((ofOffset source k).line - 1)).flatMap
        (· ++ ['\n'])).length + ((ofOffset source k).column - 1)) ∧
    ∀ offset : Int, (offset < 0 → ofOffset source offset = ofOffset source 0) ∧
      (source.length < offset → ofOffset source offset = ofOffset source source.length) := by
  rw [← String.length_toList]
  refine ⟨fun a b hab hb => ?_, fun p => ?_, fun k hk => ?_, fun offset => ⟨fun h => ?_, fun h => ?_⟩⟩
  · rw [ofOffset_natCast, ofOffset_natCast]
    exact precedes_after hab hb
  · constructor
    · rintro ⟨k, hk, rfl⟩
      rw [ofOffset_natCast]
      exact within_after hk
    · intro h
      obtain ⟨k, hk, hp⟩ := Within.exists_offset h
      exact ⟨k, hk, by rw [ofOffset_natCast, hp]⟩
  · rw [ofOffset_natCast]
    exact (offsetIn_after hk).symm
  · rw [ofOffset, ofOffset, Int.toNat_of_nonpos (Int.le_of_lt h), Int.toNat_zero]
  · rw [ofOffset_natCast, List.take_length, ofOffset, List.take_of_length_le (by omega)]

-- The end of a source that ends with a line feed is a line of its own.
example :
    [-1, 0, 2, 3, 5, 6, 9].map (ofOffset "ab\n\ncd\n") =
      [⟨1, 1⟩, ⟨1, 1⟩, ⟨1, 3⟩, ⟨2, 1⟩, ⟨3, 2⟩, ⟨3, 3⟩, ⟨4, 1⟩] := by
  decide

end NumCheck.Position
