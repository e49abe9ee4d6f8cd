import Mathlib.Algebra.Order.Field.Power
import Mathlib.Data.List.TakeWhile
import NumCheck.Number.FreeForm
import NumCheck.Proofs.Binary64
import NumCheck.Proofs.Slices
import NumCheck.Syntax.LabelledTree

/-!
# The numbers of numerals

A numeral denotes a rational number, its digits without the point over a power of ten, and a literal
has the double-precision number that is nearest to this. There are two readers. The one of sources
takes only numerals and forms the quotient at once. The one of labelled trees takes texts of a wider
form; it drops the zeros in front, and where the place of the first digit shows that a number is
infinite or zero it does not form the quotient at all. On numerals they agree.

Texts of the wider form that are no numerals, with signs, exponents or separators, are not given a
meaning here. Nearest is meant among all numbers of the format, and a number halfway goes to the one
with an even last bit.
-/

namespace NumCheck

/-! ### What digits denote -/

/-- The rational number that digits denote, with a point among them or without. -/
def decimalValue (text : List Char) : ℚ :=
  let whole := text.takeWhile Char.isDigit
  let fraction := (text.dropWhile Char.isDigit).drop 1
  Nat.ofDigitChars 10 whole 0 + Nat.ofDigitChars 10 fraction 0 / 10 ^ fraction.length

theorem digitsValue_eq (digits : List Char) : digitsValue digits = Nat.ofDigitChars 10 digits 0 := by
  rw [Nat.ofDigitChars_eq_foldl]
  rfl

theorem digitsValue_append (ds es : List Char) :
    digitsValue (ds ++ es) = digitsValue ds * 10 ^ es.length + digitsValue es := by
  rw [digitsValue_eq, digitsValue_eq, digitsValue_eq, Nat.ofDigitChars_append,
    Nat.ofDigitChars_eq_ofDigitChars_zero, Nat.mul_comm]

theorem digitsValue_zeros (k : ℕ) : digitsValue (List.replicate k '0') = 0 := by
  rw [digitsValue_eq, Nat.ofDigitChars_replicate_zero, Nat.mul_zero]

/-- The first digit counts the power of ten that is as long as the rest. -/
theorem digitsValue_cons (c : Char) (ds : List Char) :
    digitsValue (c :: ds) = (c.toNat - 48) * 10 ^ ds.length + digitsValue ds := by
  have hsplit := digitsValue_append [c] ds
  simpa [digitsValue] using hsplit

theorem isDigit_bounds {c : Char} (h : c.isDigit = true) : 48 ≤ c.toNat ∧ c.toNat ≤ 57 := by
  obtain ⟨hlow, hhigh⟩ := Grammar.digit_iff.mpr h
  rw [Char.le_def, UInt32.le_iff_toNat_le] at hlow hhigh
  exact ⟨hlow, hhigh⟩

theorem isDigit_zeros (k : ℕ) : ∀ c ∈ List.replicate k '0', c.isDigit = true := by
  intro c hc
  rw [List.eq_of_mem_replicate hc]
  rfl

theorem digitsValue_lt {ds : List Char} (h : ∀ c ∈ ds, c.isDigit = true) :
    digitsValue ds < 10 ^ ds.length := by
  induction ds with
  | nil => simp [digitsValue]
  | cons c ds ih =>
    have hc := isDigit_bounds (h c List.mem_cons_self)
    have hds := ih fun x hx => h x (List.mem_cons_of_mem c hx)
    have hfirst : (c.toNat - 48) * 10 ^ ds.length ≤ 9 * 10 ^ ds.length :=
      Nat.mul_le_mul_right _ (by omega)
    rw [digitsValue_cons, List.length_cons, pow_succ]
    omega

/-- Digits that do not start with a zero. -/
theorem le_digitsValue {c : Char} {ds : List Char} (hc : c.isDigit = true) (hne : c ≠ '0') :
    10 ^ ds.length ≤ digitsValue (c :: ds) := by
  have hb := isDigit_bounds hc
  have hzero : c.toNat ≠ 48 := fun h => hne (Char.toNat_inj.mp h)
  have hfirst := Nat.mul_le_mul_right (10 ^ ds.length) (show 1 ≤ c.toNat - 48 by omega)
  rw [digitsValue_cons]
  omega

/-- Zeros in front count nothing. -/
theorem digitsValue_dropWhile (ds : List Char) :
    digitsValue (ds.dropWhile (· == '0')) = digitsValue ds := by
  induction ds with
  | nil => rfl
  | cons c ds ih =>
    by_cases hc : c = '0'
    · subst hc
      rw [List.dropWhile_cons_of_pos (by simp), ih, digitsValue_cons]
      simp
    · rw [List.dropWhile_cons_of_neg (by simpa using hc)]

/-! ### The parts of a numeral -/

/-- The digits of a numeral before and after its point, if it has one. -/
structure Parts (text whole fraction : List Char) : Prop where
  /-- There are digits before the point. -/
  ne_nil : whole ≠ []
  /-- These are digits. -/
  isDigit_whole : ∀ c ∈ whole, c.isDigit = true
  /-- So are those after the point. -/
  isDigit_fraction : ∀ c ∈ fraction, c.isDigit = true
  /-- Where they stand. -/
  place : text = whole ∧ fraction = [] ∨ text = whole ++ '.' :: fraction ∧ fraction ≠ []

theorem Parts.numeral {text whole fraction : List Char} (h : Parts text whole fraction) :
    Grammar.Numeral text := by
  have hw : ∀ c ∈ whole, Grammar.Digit c := fun c hc => Grammar.digit_iff.mpr (h.isDigit_whole c hc)
  have hf : ∀ c ∈ fraction, Grammar.Digit c := fun c hc =>
    Grammar.digit_iff.mpr (h.isDigit_fraction c hc)
  rcases h.place with ⟨rfl, -⟩ | ⟨rfl, hne⟩
  · exact .inl ⟨h.ne_nil, hw⟩
  · exact .inr ⟨whole, fraction, rfl, ⟨h.ne_nil, hw⟩, hne, hf⟩

theorem exists_parts {text : List Char} (h : Grammar.Numeral text) :
    ∃ whole fraction, Parts text whole fraction := by
  rcases h with ⟨hne, hd⟩ | ⟨whole, fraction, rfl, ⟨hne, hw⟩, hfne, hf⟩
  · exact ⟨text, [], hne, fun c hc => Grammar.digit_iff.mp (hd c hc), by simp, .inl ⟨rfl, rfl⟩⟩
  · exact ⟨whole, fraction, hne, fun c hc => Grammar.digit_iff.mp (hw c hc),
      fun c hc => Grammar.digit_iff.mp (hf c hc), .inr ⟨rfl, hfne⟩⟩

namespace Parts

variable {text whole fraction : List Char}

theorem takeWhile (h : Parts text whole fraction) : text.takeWhile Char.isDigit = whole := by
  rcases h.place with ⟨rfl, -⟩ | ⟨rfl, -⟩
  · exact List.takeWhile_eq_self_iff.mpr h.isDigit_whole
  · exact (Grammar.span_digits h.isDigit_whole).1

theorem dropWhile (h : Parts text whole fraction) :
    text.dropWhile Char.isDigit = if fraction = [] then [] else '.' :: fraction := by
  rcases h.place with ⟨rfl, rfl⟩ | ⟨rfl, hne⟩
  · rw [if_pos rfl]
    exact List.dropWhile_eq_nil_iff.mpr h.isDigit_whole
  · rw [if_neg hne, (Grammar.span_digits h.isDigit_whole).2]

theorem drop (h : Parts text whole fraction) : (text.dropWhile Char.isDigit).drop 1 = fraction := by
  rw [h.dropWhile]
  by_cases hf : fraction = [] <;> simp [hf]

/-- The digits without the point are those of the number times a power of ten. -/
theorem decimalValue_eq (h : Parts text whole fraction) :
    decimalValue text = digitsValue (whole ++ fraction) / (10 ^ fraction.length : ℕ) := by
  have hpos : (10 ^ fraction.length : ℚ) ≠ 0 := by positivity
  rw [decimalValue, h.takeWhile, h.drop, digitsValue_append, digitsValue_eq, digitsValue_eq]
  push_cast
  rw [add_div, mul_div_cancel_right₀ _ hpos]

theorem ofNumeral_eq (h : Parts text whole fraction) :
    Binary64.ofNumeral text =
      Binary64.ofRatio (digitsValue (whole ++ fraction)) (10 ^ fraction.length) := by
  rw [Binary64.ofNumeral, h.takeWhile, h.drop]
  rfl

/-- A numeral has no other characters than digits and a point. -/
theorem mem (h : Parts text whole fraction) {c : Char} (hc : c ∈ text) :
    c.isDigit = true ∨ c = '.' := by
  rcases h.place with ⟨rfl, -⟩ | ⟨rfl, -⟩
  · exact .inl (h.isDigit_whole c hc)
  · rcases List.mem_append.mp hc with hc | hc
    · exact .inl (h.isDigit_whole c hc)
    · rcases List.mem_cons.mp hc with rfl | hc
      · exact .inr rfl
      · exact .inl (h.isDigit_fraction c hc)

/-- A numeral with a point has a fraction. -/
theorem point_mem_iff (h : Parts text whole fraction) : '.' ∈ text ↔ fraction ≠ [] := by
  rcases h.place with ⟨rfl, hf⟩ | ⟨rfl, hf⟩
  · have hpoint : '.' ∉ text := fun hm => by cases h.isDigit_whole '.' hm
    simp [hpoint, hf]
  · simp [hf]

theorem eq_of_not_mem (h : Parts text whole fraction) (hpoint : '.' ∉ text) :
    whole = text ∧ fraction = [] := by
  rcases h.place with ⟨rfl, hf⟩ | ⟨rfl, -⟩
  · exact ⟨rfl, hf⟩
  · simp at hpoint

/-- A numeral starts with a digit. -/
theorem head (h : Parts text whole fraction) : ∃ c rest, text = c :: rest ∧ c.isDigit = true := by
  obtain ⟨c, cs, rfl⟩ := List.exists_cons_of_ne_nil h.ne_nil
  have hc := h.isDigit_whole c List.mem_cons_self
  rcases h.place with ⟨rfl, -⟩ | ⟨rfl, -⟩
  · exact ⟨c, cs, rfl, hc⟩
  · exact ⟨c, _, rfl, hc⟩

end Parts

/-! ### The number of a numeral -/

namespace Binary64

theorem ofNumeral_nearest {text : List Char} (h : Grammar.Numeral text) :
    Nearest (decimalValue text) (ofNumeral text) := by
  obtain ⟨whole, fraction, hp⟩ := exists_parts h
  rw [hp.decimalValue_eq, hp.ofNumeral_eq]
  exact nearest_ofRatio _ (by positivity)

theorem ofNumeral_mono {text other : List Char} (h : Grammar.Numeral text)
    (h' : Grammar.Numeral other) (hle : decimalValue text ≤ decimalValue other) :
    (ofNumeral text).AtMost (ofNumeral other) := by
  obtain ⟨whole, fraction, hp⟩ := exists_parts h
  obtain ⟨whole', fraction', hp'⟩ := exists_parts h'
  rw [hp.decimalValue_eq, hp'.decimalValue_eq] at hle
  rw [hp.ofNumeral_eq, hp'.ofNumeral_eq]
  exact ofRatio_mono (by positivity) (by positivity) hle

theorem ofNumeral_congr {text other : List Char} (h : Grammar.Numeral text)
    (h' : Grammar.Numeral other) (heq : decimalValue text = decimalValue other) :
    ofNumeral text = ofNumeral other := by
  obtain ⟨whole, fraction, hp⟩ := exists_parts h
  obtain ⟨whole', fraction', hp'⟩ := exists_parts h'
  rw [hp.decimalValue_eq, hp'.decimalValue_eq] at heq
  rw [hp.ofNumeral_eq, hp'.ofNumeral_eq]
  exact ofRatio_congr (by positivity) (by positivity) heq

/-! ### Free form -/

theorem digitValue?_of_isDigit {c : Char} (h : c.isDigit = true) :
    Text.digitValue? c = some (c.toNat - 48) := by
  have hb := isDigit_bounds h
  unfold Text.digitValue? Text.zeroDigits
  rw [List.find?_cons_of_pos (by simp; omega)]
  rfl

theorem isBlank_of_isDigit {c : Char} (h : c.isDigit = true) : Text.isBlank c = false := by
  have hb := isDigit_bounds h
  simp [Text.isBlank]
  omega

theorem dropSeparators_eq_some {cs : List Char} (h : '_' ∉ cs) (afterDigit : Bool) :
    dropSeparators afterDigit cs = some cs := by
  induction cs generalizing afterDigit with
  | nil => rfl
  | cons c cs ih =>
    rw [List.mem_cons, not_or] at h
    rw [dropSeparators, ih h.2]
    · rfl
    · exact fun hc => h.1 hc.symm

theorem dropWhile_eq_self {p : Char → Bool} {cs : List Char} (h : ∀ c ∈ cs, p c = false) :
    cs.dropWhile p = cs := by
  cases cs with
  | nil => rfl
  | cons c cs => rw [List.dropWhile_cons_of_neg (by simp [h c List.mem_cons_self])]

/-- A numeral in free form is a magnitude, without blanks, signs or low lines. -/
theorem ofText?_eq_magnitude? {text : String} (h : Grammar.Numeral text.toList) :
    ofText? text = magnitude? text.toList := by
  obtain ⟨whole, fraction, hp⟩ := exists_parts h
  have hmap (f : Char → Char) (hf : ∀ c ∈ text.toList, f c = c) :
      text.toList.map f = text.toList := by
    rw [List.map_congr_left hf, List.map_id']
  have hblank : ∀ c ∈ text.toList, Text.isBlank c = false := by
    intro c hc
    rcases hp.mem hc with hd | rfl
    · exact isBlank_of_isDigit hd
    · rfl
  have hline : '_' ∉ text.toList := by
    intro hc
    rcases hp.mem hc with hd | hd <;> cases hd
  obtain ⟨c, rest, hcons, hc⟩ := hp.head
  unfold ofText?
  rw [hmap]
  · dsimp only
    rw [dropWhile_eq_self hblank, dropWhile_eq_self (by simpa using hblank), List.reverse_reverse,
      dropSeparators_eq_some hline, Option.bind_some, hcons]
    -- the first character is no sign
    split
    · next heq =>
      cases heq
      cases hc
    · next heq =>
      cases heq
      cases hc
    · rfl
  · intro x hx
    rcases hp.mem hx with hd | rfl
    · have hb := isDigit_bounds hd
      rw [digitValue?_of_isDigit hd]
      show Char.ofNat (48 + (x.toNat - 48)) = x
      rw [Nat.add_sub_cancel' hb.1, Char.ofNat_toNat]
    · rfl

theorem toLower_of_isDigit {c : Char} (h : c.isDigit = true) : c.toLower = c := by
  have hb := isDigit_bounds h
  unfold Char.toLower
  rw [dif_neg]
  intro hupper
  rw [ge_iff_le, UInt32.le_iff_toNat_le] at hupper
  have hlow : 65 ≤ c.toNat := hupper.1
  omega

/-- The magnitude of a numeral. -/
theorem magnitude?_eq {text whole fraction : List Char} (h : Parts text whole fraction) :
    magnitude? text = some (ofScientific (whole ++ fraction) whole.length) := by
  obtain ⟨c, rest, hcons, hc⟩ := h.head
  have hword (word : String) (hw : ∀ d ∈ word.toList.head?, d.isDigit = false) :
      (String.ofList (text.map Char.toLower) == word) = false := by
    rw [beq_eq_false_iff_ne]
    rintro rfl
    have hfirst := hw c (by simp [hcons, toLower_of_isDigit hc])
    rw [hc] at hfirst
    cases hfirst
  have hne : whole.isEmpty = false := List.isEmpty_eq_false_iff.mpr h.ne_nil
  unfold magnitude?
  dsimp only
  rw [hword "inf" (by simp), hword "infinity" (by simp), hword "nan" (by simp), h.takeWhile, h.dropWhile]
  by_cases hf : fraction = []
  · subst hf
    simp [hne, exponent?]
  · have htake : fraction.takeWhile Char.isDigit = fraction :=
      List.takeWhile_eq_self_iff.mpr h.isDigit_fraction
    have hdrop : fraction.dropWhile Char.isDigit = [] :=
      List.dropWhile_eq_nil_iff.mpr h.isDigit_fraction
    simp [hf, hne, htake, hdrop, exponent?]

/-- A power of ten, as a quotient of powers without sign. -/
theorem pow_div_pow (e : ℤ) : (10 ^ e.toNat / 10 ^ (-e).toNat : ℚ) = 10 ^ e := by
  rw [← zpow_natCast, ← zpow_natCast, ← zpow_sub₀ (by norm_num)]
  congr 1
  omega

/-- Digits that do not start with a zero, by the place of the first. -/
theorem leading_bounds {c : Char} {ds : List Char} (h : ∀ x ∈ c :: ds, x.isDigit = true)
    (hc : c ≠ '0') (leading : ℤ) :
    (10 : ℚ) ^ (leading - 1) ≤ digitsValue (c :: ds) * 10 ^ (leading - (c :: ds).length) ∧
      (digitsValue (c :: ds) * 10 ^ (leading - (c :: ds).length) : ℚ) < 10 ^ leading := by
  have hlow : (10 ^ ds.length : ℚ) ≤ digitsValue (c :: ds) := by
    exact_mod_cast le_digitsValue (h c List.mem_cons_self) hc
  have hhigh : (digitsValue (c :: ds) : ℚ) < 10 ^ (c :: ds).length := by
    exact_mod_cast digitsValue_lt h
  constructor
  · calc (10 : ℚ) ^ (leading - 1) = 10 ^ ds.length * 10 ^ (leading - (c :: ds).length) := by
          rw [← zpow_natCast, ← zpow_add₀ (by norm_num)]
          congr 1
          rw [List.length_cons]
          push_cast
          ring
      _ ≤ digitsValue (c :: ds) * 10 ^ (leading - (c :: ds).length) := by gcongr
  · calc (digitsValue (c :: ds) * 10 ^ (leading - (c :: ds).length) : ℚ)
        < 10 ^ (c :: ds).length * 10 ^ (leading - (c :: ds).length) := by gcongr
      _ = 10 ^ leading := by
          rw [← zpow_natCast, ← zpow_add₀ (by norm_num)]
          congr 1
          omega

/-- From `10 ^ 310` on a number is infinite. -/
theorem infinite_of_pow_le {q : ℚ} (h : 10 ^ (310 : ℕ) ≤ q) : 2 ^ 1024 - 2 ^ 970 ≤ q := by
  have hpow : (2 : ℕ) ^ 1024 ≤ 10 ^ 310 := by decide +kernel
  have hcast : (2 ^ 1024 : ℚ) ≤ 10 ^ 310 := by exact_mod_cast hpow
  exact (sub_le_self _ (by positivity)).trans (hcast.trans h)

/-- Below `10 ^ -330` a number is zero. -/
theorem zero_of_le_pow {q : ℚ} (h : q ≤ 1 / 10 ^ (330 : ℕ)) : q ≤ 1 / 2 ^ 1075 := by
  have hpow : (2 : ℕ) ^ 1075 ≤ 10 ^ 330 := by decide +kernel
  have hcast : (2 ^ 1075 : ℚ) ≤ 10 ^ 330 := by exact_mod_cast hpow
  exact h.trans (one_div_le_one_div_of_le (by positivity) hcast)

/-- Digits with a point are rounded, also where the size alone decides. -/
theorem ofScientific_eq {digits : List Char} (h : ∀ c ∈ digits, c.isDigit = true) {point : ℤ}
    {num den : ℕ} (hden : 0 < den)
    (hq : (num / den : ℚ) = digitsValue digits * 10 ^ (point - digits.length)) :
    ofScientific digits point = ofRatio num den := by
  have hsub := List.dropWhile_sublist (l := digits) (· == '0')
  have hle := hsub.length_le
  have hvalue := digitsValue_dropWhile digits
  have hdigits : ∀ c ∈ digits.dropWhile (· == '0'), c.isDigit = true := fun c hc =>
    h c (hsub.subset hc)
  have hhead := List.head?_dropWhile_not (· == '0') digits
  unfold ofScientific
  dsimp only
  generalize digits.dropWhile (· == '0') = significant at *
  obtain ⟨leading, hleading⟩ :
      ∃ leading : ℤ, leading = point - (digits.length - significant.length : ℕ) := ⟨_, rfl⟩
  have hexp : point - digits.length = leading - significant.length := by omega
  rw [← hleading]
  rw [← hvalue, hexp] at hq
  cases significant with
  | nil =>
    rw [List.isEmpty_nil, if_pos rfl]
    refine ofRatio_congr one_pos hden ?_
    rw [hq]
    simp [digitsValue]
  | cons c ds =>
    have hc : c ≠ '0' := by simpa using hhead
    -- the first digit that counts is at `10 ^ (leading - 1)`, which bounds the quotient
    obtain ⟨hlow, hhigh⟩ := leading_bounds hdigits hc leading
    rw [← hq] at hlow hhigh
    rw [if_neg (by simp)]
    split_ifs with hlarge hsmall
    · refine (((nearest_ofRatio num hden).infinite).mpr (infinite_of_pow_le ?_)).symm
      refine le_trans ?_ hlow
      rw [← zpow_natCast]
      exact zpow_le_zpow_right₀ (by norm_num) (by omega)
    · refine (ofRatio_eq_zero hden (zero_of_le_pow (hhigh.le.trans ?_))).symm
      rw [one_div, ← zpow_natCast, ← zpow_neg]
      exact zpow_le_zpow_right₀ (by norm_num) (by omega)
    · refine ofRatio_congr (Nat.pow_pos (by norm_num)) hden ?_
      rw [hq, ← pow_div_pow, mul_div_assoc']
      simp only [Nat.pow_eq]
      push_cast
      rfl

/-- The reader of free forms agrees with that of numerals. -/
theorem ofText?_numeral {text : String} (h : Grammar.Numeral text.toList) :
    ofText? text = some (ofNumeral text.toList) := by
  obtain ⟨whole, fraction, hp⟩ := exists_parts h
  rw [ofText?_eq_magnitude? h, magnitude?_eq hp, hp.ofNumeral_eq, Option.some_inj]
  refine ofScientific_eq ?_ (by positivity) ?_
  · exact List.forall_mem_append.mpr ⟨hp.isDigit_whole, hp.isDigit_fraction⟩
  · have hexp : (whole.length - (whole ++ fraction).length : ℤ) = -fraction.length := by
      rw [List.length_append]
      omega
    rw [hexp, zpow_neg, zpow_natCast, div_eq_mul_inv]
    push_cast
    rfl

end Binary64

/-! ### Zeros that count nothing -/

namespace Parts

variable {text whole fraction : List Char}

theorem leadingZeros (h : Parts text whole fraction) (k : ℕ) :
    Parts (List.replicate k '0' ++ text) (List.replicate k '0' ++ whole) fraction where
  ne_nil := by simp [h.ne_nil]
  isDigit_whole := List.forall_mem_append.mpr ⟨isDigit_zeros k, h.isDigit_whole⟩
  isDigit_fraction := h.isDigit_fraction
  place := by
    rcases h.place with ⟨rfl, hf⟩ | ⟨rfl, hf⟩
    · exact .inl ⟨rfl, hf⟩
    · exact .inr ⟨(List.append_assoc _ _ _).symm, hf⟩

theorem decimalValue_leadingZeros (h : Parts text whole fraction) (k : ℕ) :
    decimalValue (List.replicate k '0' ++ text) = decimalValue text := by
  rw [(h.leadingZeros k).decimalValue_eq, h.decimalValue_eq, List.append_assoc, digitsValue_append,
    digitsValue_zeros, Nat.zero_mul, Nat.zero_add]

/-- Zeros after the last digit of the fraction. -/
theorem trailingZeros (h : Parts text whole fraction) (hf : fraction ≠ []) (k : ℕ) :
    Parts (text ++ List.replicate k '0') whole (fraction ++ List.replicate k '0') where
  ne_nil := h.ne_nil
  isDigit_whole := h.isDigit_whole
  isDigit_fraction := List.forall_mem_append.mpr ⟨h.isDigit_fraction, isDigit_zeros k⟩
  place := by
    rcases h.place with ⟨rfl, hnil⟩ | ⟨rfl, -⟩
    · exact absurd hnil hf
    · exact .inr ⟨by simp, by simp [hf]⟩

theorem decimalValue_trailingZeros (h : Parts text whole fraction) (hf : fraction ≠ []) (k : ℕ) :
    decimalValue (text ++ List.replicate k '0') = decimalValue text := by
  have hpos : (10 ^ k : ℚ) ≠ 0 := by positivity
  rw [(h.trailingZeros hf k).decimalValue_eq, h.decimalValue_eq, ← List.append_assoc,
    digitsValue_append, digitsValue_zeros, Nat.add_zero, List.length_replicate, List.length_append,
    List.length_replicate, pow_add]
  push_cast
  exact mul_div_mul_right _ _ hpos

/-- A fraction of zeros. -/
theorem zeroFraction (h : Parts whole whole []) (k : ℕ) :
    Parts (whole ++ '.' :: List.replicate (k + 1) '0') whole (List.replicate (k + 1) '0') where
  ne_nil := h.ne_nil
  isDigit_whole := h.isDigit_whole
  isDigit_fraction := isDigit_zeros (k + 1)
  place := .inr ⟨rfl, by simp⟩

theorem decimalValue_zeroFraction (h : Parts whole whole []) (k : ℕ) :
    decimalValue (whole ++ '.' :: List.replicate (k + 1) '0') = decimalValue whole := by
  have hpos : (10 ^ (k + 1) : ℚ) ≠ 0 := by positivity
  rw [(h.zeroFraction k).decimalValue_eq, h.decimalValue_eq, digitsValue_append, digitsValue_zeros,
    List.length_replicate, List.append_nil]
  push_cast
  rw [add_zero, mul_div_cancel_right₀ _ hpos, List.length_nil, pow_zero, div_one]

end Parts

/-! ### Literals -/

namespace Grammar

open NumCheck.Parser (Reads)

/-- The number `v` is what the numeral `text` gives wherever it is read. -/
structure Stored (text : String) (v : Binary64) : Prop where
  /-- In a source, whatever is around it. -/
  parsed : ∀ {source : String} {p : Program} {value : Binary64} {span : Span},
    Program.parse source = .ok p → .literal value span ∈ p.exprNodes → span.text source = text →
      value = v
  /-- As the only expression of a source. -/
  alone : Program.parse (text ++ ";") =
    .ok ⟨[.expr (.literal v ⟨0, text.length⟩) ⟨0, text.length + 1⟩], ⟨0, text.length + 1⟩⟩
  /-- As the token of a node in a labelled tree. -/
  built : ∀ (kind : String) (start stop : Option ℤ) (bounds : Option (ℤ × ℤ))
    (more : List LabelledTree),
    let tree := LabelledTree.node "number" bounds (.leaf kind text start stop :: more)
    tree.toExpr = tree.span.map (Expr.literal v)

theorem Stored.unique {text : String} {v w : Binary64} (h : Stored text v) (h' : Stored text w) :
    v = w := by
  have heq := h.alone.symm.trans h'.alone
  simpa using heq

/-- A literal stands where its numeral stands, also in parentheses. -/
theorem numeral_of_reads {level : Parser.Level} {ts : List Token} {x : Parser.Operand}
    (h : Reads level ts x) {value : Binary64} {span : Span} (hx : x.expr = .literal value span) :
    ∃ text, ⟨.numeral text, span⟩ ∈ ts ∧ value = .ofNumeral text.toList := by
  induction h with
  | number text s =>
    cases hx
    exact ⟨text, List.mem_cons_self, rfl⟩
  | name text s => cases hx
  | parens a b _ ih =>
    obtain ⟨text, hm, hv⟩ := ih hx
    exact ⟨text, List.mem_cons_of_mem _ (List.mem_append_left _ hm), hv⟩
  | atom _ ih => exact ih hx
  | neg s _ _ => cases hx
  | unary _ ih => exact ih hx
  | times op s _ _ _ _ => cases hx
  | product _ ih => exact ih hx
  | plus op s _ _ _ _ => cases hx

theorem literal_eq {source : String} {p : Program} {value : Binary64} {span : Span}
    (h : Program.parse source = .ok p) (hm : .literal value span ∈ p.exprNodes) :
    value = .ofNumeral (span.text source).toList := by
  obtain ⟨us, hus, hr⟩ := (listReads_of_read (parse_eq_ok_iff.mp h).1).exprNode hm
  obtain ⟨text, htok, rfl⟩ := numeral_of_reads hr rfl
  rw [show span.text source = text from span_text (hus.subset htok)]

/-- The tokens of a numeral and a semicolon. -/
theorem scan_numeral {text : String} (h : Numeral text.toList) :
    Token.scan (text ++ ";") = [⟨.numeral text, ⟨0, text.length⟩⟩,
      ⟨.symbol .semicolon, ⟨text.length, text.length + 1⟩⟩] := by
  have hends : ∀ d ∈ [';'].head?, EndsToken d := by
    rintro d ⟨⟩
    exact ⟨rfl, by decide⟩
  have hnumber := (Spells.number h).scanFrom hends 0
  rw [String.ofList_toList, Nat.zero_add, String.length_toList] at hnumber
  rw [Token.scan, String.toList_append, show ";".toList = [';'] from rfl, hnumber]
  rfl

theorem stored_ofNumeral {text : String} (h : Numeral text.toList) :
    Stored text (.ofNumeral text.toList) where
  parsed := by
    intro source p value span hp hm htext
    have hvalue := literal_eq hp hm
    rwa [htext] at hvalue
  alone := by
    have hr : Reads .sum [⟨.numeral text, ⟨0, text.length⟩⟩] _ :=
      (Reads.number text ⟨0, text.length⟩).loosen (Nat.zero_le _)
    have hk : Parser.NoKeyword [⟨.numeral text, ⟨0, text.length⟩⟩] := by
      rintro tok ⟨⟩
      simp
    have hl := Parser.ListReads.bare ⟨text.length, text.length + 1⟩ hr hk .nil
    rw [List.singleton_append, ← scan_numeral h] at hl
    have hparse := parse_of_listReads hl (by simp [Stmt.depthList, Stmt.depth, Expr.depth])
    rwa [String.length_append] at hparse
  built := by
    intro kind start stop bounds more tree
    have hnumber : LabelledTree.numberOf (.leaf kind text start stop :: more) =
        .ok (.ofNumeral text.toList) := by
      rw [LabelledTree.numberOf, LabelledTree.firstChild]
      simp only [pure_bind, Binary64.ofText?_numeral h]
      rfl
    simp only [tree, LabelledTree.toExpr, ↓reduceIte, hnumber]
    generalize LabelledTree.span _ = span
    cases span <;> rfl

/-- So many zeros. -/
def zeros (k : ℕ) : String := String.ofList (List.replicate k '0')

/-- Another numeral of the same value has the same number. -/
theorem stored_of_decimalValue_eq {text other : String} (h : Numeral text.toList)
    (h' : Numeral other.toList) (heq : decimalValue other.toList = decimalValue text.toList) :
    Stored other (.ofNumeral text.toList) :=
  Binary64.ofNumeral_congr h' h heq ▸ stored_ofNumeral h'

/-- **A literal has the number nearest to its numeral.** It has this number wherever its numeral is
read; a numeral of a greater value does not have a smaller number, and zeros before a numeral or
after its fraction do not count. -/
theorem stored_nearest {text : String} (h : Numeral text.toList) :
    ∃ v, Stored text v ∧ v.Nearest (decimalValue text.toList) ∧
      (∀ other w, Numeral other.toList → Stored other w →
        decimalValue text.toList ≤ decimalValue other.toList → v.AtMost w) ∧
      ∀ k, Stored (zeros k ++ text) v ∧ ('.' ∈ text.toList → Stored (text ++ zeros k) v) ∧
        ('.' ∉ text.toList → Stored (text ++ "." ++ zeros (k + 1)) v) := by
  refine ⟨.ofNumeral text.toList, stored_ofNumeral h, Binary64.ofNumeral_nearest h, ?_, ?_⟩
  · intro other w h' hw hle
    obtain rfl : w = .ofNumeral other.toList := hw.unique (stored_ofNumeral h')
    exact Binary64.ofNumeral_mono h h' hle
  · intro k
    obtain ⟨whole, fraction, hp⟩ := exists_parts h
    refine ⟨?_, fun hpoint => ?_, fun hpoint => ?_⟩
    · have htext : (zeros k ++ text).toList = List.replicate k '0' ++ text.toList := by simp [zeros]
      refine stored_of_decimalValue_eq h ?_ ?_ <;> rw [htext]
      · exact (hp.leadingZeros k).numeral
      · exact hp.decimalValue_leadingZeros k
    · have hf : fraction ≠ [] := hp.point_mem_iff.mp hpoint
      have htext : (text ++ zeros k).toList = text.toList ++ List.replicate k '0' := by simp [zeros]
      refine stored_of_decimalValue_eq h ?_ ?_ <;> rw [htext]
      · exact (hp.trailingZeros hf k).numeral
      · exact hp.decimalValue_trailingZeros hf k
    · obtain ⟨rfl, rfl⟩ := hp.eq_of_not_mem hpoint
      have htext : (text ++ "." ++ zeros (k + 1)).toList =
          text.toList ++ '.' :: List.replicate (k + 1) '0' := by simp [zeros]
      refine stored_of_decimalValue_eq h ?_ ?_ <;> rw [htext]
      · exact (hp.zeroFraction k).numeral
      · exact hp.decimalValue_zeroFraction k

/-- Halfway between two numbers the one with the even significand is taken. -/
theorem stored_nearest_tie :
    let text := "9007199254740993"
    Numeral text.toList ∧ ∃ v, v.code = 0x4340000000000000 ∧ Stored text v ∧
      Stored (text ++ "." ++ zeros 2) v ∧ v.Nearest (decimalValue text.toList) := by
  intro text
  have hdigits : text.toList.all Char.isDigit = true := by decide
  have h : Numeral text.toList :=
    .inl ⟨by decide, fun c hc => digit_iff.mpr (List.all_eq_true.mp hdigits c hc)⟩
  obtain ⟨v, hv, hnearest, -, hzeros⟩ := stored_nearest h
  refine ⟨h, v, ?_, hv, (hzeros 1).2.2 (by decide), hnearest⟩
  rw [hv.unique (stored_ofNumeral h)]
  decide +kernel

end Grammar

end NumCheck
