import Mathlib.Data.List.DropRight
import NumCheck.Number.SixDigits
import NumCheck.Proofs.Numerals
import NumCheck.Typed.Listing

/-!
# The nearest six digits

A number is written with six significant digits. The place of its first digit says what the sixth one
counts, and the number is rounded to a multiple of this. Other decimal numbers with six digits or fewer
are such multiples too, or they are below the power of ten at the first digit, which the number has
reached; so none of them is nearer.

If all digits are carried over, the rounded number is the next power of ten. Its first digit is at the
place above, and it is this place that says which form the text has.

Zero, the infinite numbers and those that are none have texts of their own and are left out. That no
shorter text would do is not claimed: the number is rounded to six digits, and only zeros at the end
are dropped.
-/

namespace NumCheck

/-! ### Decimal numbers with six digits -/

/-- A decimal number with at most six significant digits. -/
def SixDigits (r : ℚ) : Prop := ∃ (n : ℤ) (place : ℤ), |n| < 10 ^ 6 ∧ r = n * 10 ^ place

/-- A sign, as a factor. -/
def signFactor (negative : Bool) : ℚ := if negative then -1 else 1

theorem abs_signFactor_mul (negative : Bool) (a : ℚ) : |signFactor negative * a| = |a| := by
  cases negative <;> simp [signFactor]

/-- A sign can be moved to the other side. -/
theorem abs_signFactor_mul_sub (negative : Bool) (a r : ℚ) :
    |signFactor negative * a - r| = |a - signFactor negative * r| := by
  cases negative with
  | false => simp [signFactor]
  | true => rw [← abs_neg, signFactor, if_pos rfl]; ring_nf

theorem signFactor_mul_self (negative : Bool) (a : ℚ) :
    signFactor negative * (signFactor negative * a) = a := by
  cases negative <;> simp [signFactor]

theorem SixDigits.signFactor {r : ℚ} (h : SixDigits r) (negative : Bool) :
    SixDigits (signFactor negative * r) := by
  obtain ⟨n, place, hn, rfl⟩ := h
  cases negative with
  | false => exact ⟨n, place, hn, by simp [NumCheck.signFactor]⟩
  | true => exact ⟨-n, place, by rwa [abs_neg], by simp [NumCheck.signFactor]⟩

/-- The number `a`, whose first digit counts `10 ^ place`, is `m` after rounding, counted in steps of
the sixth digit. -/
structure Rounded (a : ℚ) (place : ℤ) (m : ℕ) : Prop where
  /-- The first digit is not zero. -/
  reached : 10 ^ place ≤ a
  /-- There is no digit before it. -/
  below : a < 10 ^ (place + 1)
  /-- The steps. -/
  rounds : Rounds (a / 10 ^ (place - 5)) m

namespace Rounded

variable {a : ℚ} {place : ℤ} {m : ℕ}

theorem pow_place (place : ℤ) (k : ℕ) : (10 ^ k * 10 ^ (place - 5) : ℚ) = 10 ^ (place - 5 + k) := by
  rw [zpow_add₀ (by norm_num), zpow_natCast, mul_comm]

/-- The first digit counts so many steps of the sixth. -/
theorem pow_five (place : ℤ) : (10 ^ 5 * 10 ^ (place - 5) : ℚ) = 10 ^ place := by
  rw [pow_place]
  congr 1
  omega

theorem pow_six (place : ℤ) : (10 ^ 6 * 10 ^ (place - 5) : ℚ) = 10 ^ (place + 1) := by
  rw [pow_place]
  congr 1
  omega

/-- There are six digits. Only if all of them are carried over are there seven. -/
theorem bounds (h : Rounded a place m) : 10 ^ 5 ≤ m ∧ m ≤ 10 ^ 6 := by
  have hpos : (0 : ℚ) < 10 ^ (place - 5) := by positivity
  constructor
  · refine h.rounds.ge_of_ge ?_
    rw [le_div_iff₀ hpos, Nat.cast_pow, Nat.cast_ofNat, pow_five]
    exact h.reached
  · refine h.rounds.le_of_le ?_
    rw [div_le_iff₀ hpos, Nat.cast_pow, Nat.cast_ofNat, pow_six]
    exact h.below.le

/-- A decimal number is a multiple of the sixth digit's step, or is less than `10 ^ place`. -/
theorem multiple_or_below (place : ℤ) {r : ℚ} (hr : SixDigits r) :
    (∃ k : ℤ, r = k * 10 ^ (place - 5)) ∨ r < (10 ^ 5 : ℤ) * 10 ^ (place - 5) := by
  obtain ⟨n, e, hn, rfl⟩ := hr
  rcases le_or_gt (place - 5) e with hle | hlt
  · left
    obtain ⟨j, hj⟩ := Int.eq_ofNat_of_zero_le (show 0 ≤ e - (place - 5) by omega)
    refine ⟨n * 10 ^ j, ?_⟩
    have he : e = place - 5 + j := by omega
    rw [he, ← pow_place]
    push_cast
    ring
  · -- its digits start below `10 ^ place`, as there are only six of them
    right
    have hn' : (n : ℚ) < 10 ^ 6 := by exact_mod_cast (abs_lt.mp hn).2
    calc (n : ℚ) * 10 ^ e < 10 ^ 6 * 10 ^ e := by gcongr
      _ ≤ 10 ^ 6 * 10 ^ (place - 5 - 1) := by
        gcongr
        · norm_num
        · omega
      _ = (10 ^ 5 : ℤ) * 10 ^ (place - 5) := by
        rw [zpow_sub_one₀ (by norm_num)]
        push_cast
        ring

/-- What is less than `10 ^ place` is farther away. -/
theorem nearer (h : Rounded a place m) {r : ℚ} (hr : r < (10 ^ 5 : ℤ) * 10 ^ (place - 5)) :
    |a - m * 10 ^ (place - 5)| < |a - r| := by
  refine h.rounds.nearer (by positivity) ?_ hr
  rw [Int.cast_pow, Int.cast_ofNat, pow_five]
  exact h.reached

/-- Of all decimal numbers with six digits, none is nearer. -/
theorem nearest (h : Rounded a place m) {r : ℚ} (hr : SixDigits r) :
    |a - m * 10 ^ (place - 5)| ≤ |a - r| := by
  rcases multiple_or_below place hr with ⟨k, rfl⟩ | hlt
  · exact h.rounds.nearest (by positivity) k
  · exact (h.nearer hlt).le

/-- If another one is as near, the last digit is even. -/
theorem even_of_tie (h : Rounded a place m) {r : ℚ} (hr : SixDigits r)
    (hne : r ≠ m * 10 ^ (place - 5)) (htie : |a - m * 10 ^ (place - 5)| = |a - r|) :
    m % 2 = 0 := by
  rcases multiple_or_below place hr with ⟨k, rfl⟩ | hlt
  · refine h.rounds.even_of_tie (by positivity) (k := k) ?_ htie
    rintro rfl
    exact hne (by push_cast; rfl)
  · exact absurd htie (h.nearer hlt).ne

/-- With a seventh digit, the first six are taken. -/
theorem carry (h : Rounded a place m) {lead : ℕ × ℤ}
    (hlead : lead = if m = 10 ^ 6 then (10 ^ 5, place + 1) else (m, place)) :
    lead.1 * 10 ^ (lead.2 - 5) = (m * 10 ^ (place - 5) : ℚ) ∧ 10 ^ 5 ≤ lead.1 ∧
      lead.1 < 10 ^ 6 := by
  have hb := h.bounds
  subst hlead
  split_ifs with hm
  · refine ⟨?_, le_refl _, by norm_num⟩
    rw [hm, Nat.cast_pow, Nat.cast_pow, Nat.cast_ofNat, pow_five, pow_six]
  · exact ⟨rfl, hb.1, by omega⟩

end Rounded

/-! ### The leading digits -/

theorem decimalLog_bounds {n : ℕ} (hn : 0 < n) :
    10 ^ decimalLog n ≤ n ∧ n < 10 ^ (decimalLog n + 1) := by
  fun_induction decimalLog n with
  | case1 n hlt => simp; omega
  | case2 n hge ih =>
    have hdiv := ih (by omega)
    rw [pow_succ, pow_succ]
    omega

namespace Binary64

/-- The digits of a quotient that is scaled so far that six of them are before the point. -/
theorem rounded_roundDiv {u p s : ℕ} (hu : 0 < u) (hp : 0 < p) (h : p * 10 ^ 5 ≤ 10 ^ s) :
    let power := decimalLog (u * 10 ^ s / p)
    Rounded (u / p) (power - s) (roundDiv (u * 10 ^ s) (p * 10 ^ (power - 5))) := by
  intro power
  have hq : 10 ^ 5 ≤ u * 10 ^ s / p := by
    rw [Nat.le_div_iff_mul_le hp, mul_comm]
    exact h.trans (Nat.le_mul_of_pos_left _ hu)
  obtain ⟨hlow, hhigh⟩ := decimalLog_bounds (n := u * 10 ^ s / p) (by omega)
  obtain ⟨t, ht⟩ : ∃ t, power = t + 5 := by
    have hlt : 10 ^ 5 < 10 ^ (power + 1) := hq.trans_lt hhigh
    have := (Nat.pow_lt_pow_iff_right (by norm_num)).mp hlt
    exact ⟨power - 5, by omega⟩
  rw [Nat.le_div_iff_mul_le hp] at hlow
  rw [Nat.div_lt_iff_lt_mul hp] at hhigh
  have hp' : (0 : ℚ) < p := by exact_mod_cast hp
  have hpow (b : ℕ) : (10 ^ (b - s : ℤ) : ℚ) = 10 ^ b / 10 ^ s := by
    rw [zpow_sub₀ (by norm_num), zpow_natCast, zpow_natCast]
  refine ⟨?_, ?_, ?_⟩
  · rw [hpow, div_le_div_iff₀ (by positivity) hp']
    exact_mod_cast hlow
  · have hplace : (power - s + 1 : ℤ) = (power + 1 : ℕ) - s := by push_cast; ring
    rw [hplace, hpow, div_lt_div_iff₀ hp' (by positivity)]
    exact_mod_cast hhigh
  · have hplace : (power - s - 5 : ℤ) = t - s := by omega
    have hdiv : (u / p / 10 ^ (power - s - 5 : ℤ) : ℚ) =
        (u * 10 ^ s : ℕ) / (p * 10 ^ (power - 5) : ℕ) := by
      rw [hplace, hpow, ht, Nat.add_sub_cancel]
      push_cast
      field_simp
    rw [hdiv]
    exact rounds_roundDiv _ (by positivity)

/-- The six leading digits of a number, which is not zero. -/
theorem exists_rounded {x : Binary64} (hx : x.units ≠ 0) :
    ∃ place m, Rounded (x.units / 2 ^ 1074) place m ∧
      x.leadingDigits.1 * 10 ^ (x.leadingDigits.2 - 5) = (m * 10 ^ (place - 5) : ℚ) ∧
      10 ^ 5 ≤ x.leadingDigits.1 ∧ x.leadingDigits.1 < 10 ^ 6 := by
  have hscale : Nat.pow 2 1074 * 10 ^ 5 ≤ 10 ^ 329 := by decide +kernel
  have hpos : 0 < Nat.pow 2 1074 := by decide +kernel
  have hcast : ((Nat.pow 2 1074 : ℕ) : ℚ) = 2 ^ 1074 := by
    generalize 1074 = k
    rw [Nat.pow_eq]
    push_cast
    rfl
  have hrounded := rounded_roundDiv (Nat.pos_of_ne_zero hx) hpos hscale
  rw [hcast] at hrounded
  refine ⟨_, _, hrounded, hrounded.carry ?_⟩
  -- the definition and the lemma differ only in how they write the scale
  have hplace (power : ℕ) : (power + 1 - 329 : ℤ) = power - (329 : ℕ) + 1 := by omega
  have hplace' (power : ℕ) : (power - 329 : ℤ) = power - (329 : ℕ) := rfl
  unfold leadingDigits
  dsimp only
  rw [hplace, hplace']
  generalize Nat.pow 2 1074 = p
  generalize 329 = s
  rfl

end Binary64

/-! ### Digits of a text -/

theorem digitsValue_toDigits (n : ℕ) : digitsValue (Nat.toDigits 10 n) = n := by
  rw [digitsValue_eq, Nat.ofDigitChars_ten_toDigits]

theorem isDigit_toDigits (n : ℕ) : ∀ c ∈ Nat.toDigits 10 n, c.isDigit = true := fun _ hc =>
  Nat.isDigit_of_mem_toDigits (by norm_num) (by norm_num) hc

theorem length_toDigits {n k : ℕ} (hk : 0 < k) (hlow : 10 ^ k ≤ n) (hhigh : n < 10 ^ (k + 1)) :
    (Nat.toDigits 10 n).length = k + 1 := by
  have hle := (Nat.length_toDigits_le_iff (b := 10) (by norm_num) (Nat.succ_pos k)).mpr hhigh
  have hge := (Nat.length_toDigits_le_iff (n := n) (b := 10) (by norm_num) hk).not.mpr (by omega)
  omega

/-- The first digit of a number is not zero. -/
theorem head?_toDigits {n k : ℕ} (hk : 0 < k) (hlow : 10 ^ k ≤ n) (hhigh : n < 10 ^ (k + 1)) :
    (Nat.toDigits 10 n).head? ≠ some '0' := by
  intro hhead
  obtain ⟨ds, hds⟩ := List.head?_eq_some_iff.mp hhead
  have hlen := length_toDigits hk hlow hhigh
  have hvalue := digitsValue_toDigits n
  have hlt : digitsValue ds < 10 ^ ds.length := digitsValue_lt fun c hc =>
    isDigit_toDigits n c (hds ▸ List.mem_cons_of_mem _ hc)
  rw [hds, List.length_cons] at hlen
  rw [hds, digitsValue_cons] at hvalue
  obtain rfl : ds.length = k := by omega
  simp at hvalue
  omega

namespace Binary64

theorem dropZeros_eq (ds : List Char) : dropZeros ds = ds.rdropWhile (· == '0') := rfl

/-- The zeros at the end of digits. -/
theorem exists_dropZeros (ds : List Char) : ∃ k, ds = dropZeros ds ++ List.replicate k '0' := by
  refine ⟨(ds.rtakeWhile (· == '0')).length, ?_⟩
  have hzeros : ds.rtakeWhile (· == '0') = List.replicate _ '0' :=
    List.eq_replicate_of_mem fun c hc => by simpa using List.mem_rtakeWhile_imp hc
  rw [← hzeros, dropZeros_eq, List.rdropWhile_append_rtakeWhile]

theorem getLast?_dropZeros (ds : List Char) : (dropZeros ds).getLast? ≠ some '0' := by
  rw [dropZeros_eq]
  intro hlast
  have hne : ds.rdropWhile (· == '0') ≠ [] := by
    intro hnil
    rw [hnil] at hlast
    cases hlast
  have hnot := List.rdropWhile_last_not _ _ hne
  rw [List.getLast?_eq_some_getLast hne, Option.some_inj] at hlast
  simp [hlast] at hnot

theorem dropZeros_append {ds : List Char} (h : dropZeros ds ≠ []) (es : List Char) :
    dropZeros (es ++ ds) = es ++ dropZeros ds := by
  unfold dropZeros at h ⊢
  rw [List.reverse_append, List.dropWhile_append, if_neg, List.reverse_append, List.reverse_reverse]
  simpa using h

/-- Digits with a point, if there are some after it that are not only zeros. -/
theorem parts_joinPoint {whole fraction : List Char} (hne : whole ≠ [])
    (hw : ∀ c ∈ whole, c.isDigit = true) (hf : ∀ c ∈ fraction, c.isDigit = true) :
    Parts (joinPoint whole (dropZeros fraction)) whole (dropZeros fraction) where
  ne_nil := hne
  isDigit_whole := hw
  isDigit_fraction := fun c hc => hf c (List.rdropWhile_prefix _ _ |>.subset hc)
  place := by
    unfold joinPoint
    by_cases hz : dropZeros fraction = []
    · exact .inl ⟨by simp [hz], hz⟩
    · exact .inr ⟨by simp [hz], hz⟩

theorem decimalValue_joinPoint {whole fraction : List Char} (hne : whole ≠ [])
    (hw : ∀ c ∈ whole, c.isDigit = true) (hf : ∀ c ∈ fraction, c.isDigit = true) :
    decimalValue (joinPoint whole (dropZeros fraction)) =
      digitsValue (whole ++ fraction) / 10 ^ fraction.length := by
  obtain ⟨k, hk⟩ := exists_dropZeros fraction
  have hvalue : digitsValue (whole ++ fraction) =
      digitsValue (whole ++ dropZeros fraction) * 10 ^ k := by
    conv_lhs => rw [hk]
    rw [← List.append_assoc, digitsValue_append, digitsValue_zeros, List.length_replicate,
      Nat.add_zero]
  have hlen : fraction.length = (dropZeros fraction).length + k := by
    conv_lhs => rw [hk]
    rw [List.length_append, List.length_replicate]
  rw [(parts_joinPoint hne hw hf).decimalValue_eq, hvalue, hlen, pow_add]
  push_cast
  rw [mul_div_mul_right _ _ (by positivity)]

end Binary64

/-! ### The two forms -/

/-- The whole number that an exponent with its sign denotes. -/
def exponentValue : List Char → ℤ
  | [] => 0
  | sign :: digits => (if sign = '-' then -1 else 1) * Nat.ofDigitChars 10 digits 0

/-- The rational number that digits with an exponent denote, or without one. -/
def magnitudeValue (text : List Char) : ℚ :=
  decimalValue (text.takeWhile (· ≠ 'e')) * 10 ^ exponentValue ((text.dropWhile (· ≠ 'e')).drop 1)

/-- The rational number that the text of a number denotes. -/
def textValue (text : List Char) : ℚ :=
  if text.head? = some '-' then -magnitudeValue text.tail else magnitudeValue text

/-- Digits, and a point only with more of them after it; none of the zeros is needless. -/
def PositionalForm (text : List Char) : Prop :=
  ∃ whole fraction, Parts text whole fraction ∧ (whole.head? = some '0' → whole = ['0']) ∧
    fraction.getLast? ≠ some '0'

/-- One digit, perhaps with a point and more of them, and an exponent that has a sign and two digits
or more. -/
def ExponentForm (text : List Char) : Prop :=
  ∃ digit fraction mantissa sign digits, text = mantissa ++ 'e' :: sign :: digits ∧
    Parts mantissa [digit] fraction ∧ digit ≠ '0' ∧ fraction.getLast? ≠ some '0' ∧
    (sign = '+' ∨ sign = '-') ∧ (∀ c ∈ digits, c.isDigit = true) ∧ 2 ≤ digits.length

theorem Parts.e_not_mem {text whole fraction : List Char} (h : Parts text whole fraction) :
    'e' ∉ text := by
  intro hm
  rcases h.mem hm with hd | hd <;> cases hd

theorem Parts.ne_e {text whole fraction : List Char} (h : Parts text whole fraction) :
    ∀ c ∈ text, decide (c ≠ 'e') = true := by
  intro c hc
  rw [decide_eq_true_iff]
  rintro rfl
  exact h.e_not_mem hc

theorem PositionalForm.magnitudeValue {text : List Char} (h : PositionalForm text) :
    magnitudeValue text = decimalValue text := by
  obtain ⟨whole, fraction, hp, -⟩ := h
  rw [NumCheck.magnitudeValue, List.takeWhile_eq_self_iff.mpr hp.ne_e,
    List.dropWhile_eq_nil_iff.mpr hp.ne_e]
  simp [exponentValue]

/-- No text has both forms. -/
theorem PositionalForm.not_exponentForm {text : List Char} (h : PositionalForm text) :
    ¬ ExponentForm text := by
  obtain ⟨whole, fraction, hp, -⟩ := h
  rintro ⟨digit, fraction', mantissa, sign, digits, rfl, -⟩
  exact hp.e_not_mem (by simp)

/-- An exponent with its sign and its digits. -/
theorem exponentText_spec (power : ℤ) :
    ∃ sign digits, Binary64.exponentText power = sign :: digits ∧ (sign = '+' ∨ sign = '-') ∧
      (∀ c ∈ digits, c.isDigit = true) ∧ 2 ≤ digits.length ∧
      exponentValue (sign :: digits) = power := by
  refine ⟨_, _, rfl, ?_, ?_, ?_, ?_⟩
  · split_ifs <;> simp
  · exact List.forall_mem_append.mpr ⟨isDigit_zeros _, isDigit_toDigits _⟩
  · rw [List.length_append, List.length_replicate]
    omega
  · rw [exponentValue, ← digitsValue_eq, digitsValue_append, digitsValue_zeros,
      digitsValue_toDigits]
    by_cases hneg : power < 0
    · rw [if_pos hneg, if_pos rfl]
      omega
    · rw [if_neg hneg, if_neg (by decide)]
      omega

/-- A quotient by a power of ten. -/
theorem div_ten_pow (q : ℚ) {k : ℕ} {e : ℤ} (h : e = -k) : q / 10 ^ k = q * 10 ^ e := by
  rw [h, zpow_neg, zpow_natCast, div_eq_mul_inv]

namespace Binary64

section SixDigits

variable {ds : List Char} (hd : ∀ c ∈ ds, c.isDigit = true) (hlen : ds.length = 6)
  (hhead : ds.head? ≠ some '0')

include hd hlen hhead

theorem positional_ofNat {k : ℕ} (hk : k < 6) :
    PositionalForm (positional ds k) ∧
      decimalValue (positional ds k) = digitsValue ds * 10 ^ (k - 5 : ℤ) := by
  have hw : ∀ c ∈ ds.take (k + 1), c.isDigit = true := fun c hc => hd c (List.mem_of_mem_take hc)
  have hf : ∀ c ∈ ds.drop (k + 1), c.isDigit = true := fun c hc => hd c (List.mem_of_mem_drop hc)
  have hne : ds.take (k + 1) ≠ [] := by
    rw [ne_eq, List.take_eq_nil_iff]
    rintro (h | rfl)
    · cases h
    · cases hlen
  refine ⟨⟨_, _, parts_joinPoint hne hw hf, ?_, getLast?_dropZeros _⟩, ?_⟩
  · rw [List.head?_take, if_neg (Nat.succ_ne_zero k)]
    exact fun h => absurd h hhead
  · show decimalValue (joinPoint (ds.take (k + 1)) (dropZeros (ds.drop (k + 1)))) = _
    rw [decimalValue_joinPoint hne hw hf, List.take_append_drop]
    refine div_ten_pow _ ?_
    rw [List.length_drop]
    omega

omit hd in
theorem dropZeros_ne_nil : dropZeros ds ≠ [] := by
  obtain ⟨c, cs, rfl⟩ := List.exists_cons_of_length_eq_add_one hlen
  rw [dropZeros_eq, ne_eq, List.rdropWhile_eq_nil_iff]
  intro h
  exact hhead (by simpa using h c List.mem_cons_self)

theorem positional_negSucc (k : ℕ) :
    PositionalForm (positional ds (.negSucc k)) ∧
      decimalValue (positional ds (.negSucc k)) = digitsValue ds * 10 ^ (.negSucc k - 5 : ℤ) := by
  have hzero : ∀ c ∈ ['0'], c.isDigit = true := by simp
  have hf : ∀ c ∈ List.replicate k '0' ++ ds, c.isDigit = true :=
    List.forall_mem_append.mpr ⟨isDigit_zeros k, hd⟩
  have htext : positional ds (.negSucc k) =
      joinPoint ['0'] (dropZeros (List.replicate k '0' ++ ds)) := by
    rw [dropZeros_append (dropZeros_ne_nil hlen hhead)]
    rfl
  rw [htext]
  refine ⟨⟨_, _, parts_joinPoint (by simp) hzero hf, fun _ => rfl, getLast?_dropZeros _⟩, ?_⟩
  rw [decimalValue_joinPoint (by simp) hzero hf, digitsValue_append, digitsValue_append,
    digitsValue_zeros, show digitsValue ['0'] = 0 from rfl, Nat.zero_mul, Nat.zero_mul,
    Nat.zero_add, Nat.zero_add]
  refine div_ten_pow _ ?_
  rw [List.length_append, List.length_replicate]
  omega

theorem scientific_spec (power : ℤ) :
    ExponentForm (scientific ds power) ∧
      magnitudeValue (scientific ds power) = digitsValue ds * 10 ^ (power - 5) := by
  obtain ⟨c, cs, rfl⟩ := List.exists_cons_of_length_eq_add_one hlen
  obtain ⟨sign, digits, htext, hsign, hdigits, htwo, hvalue⟩ := exponentText_spec power
  have hw : ∀ x ∈ [c], x.isDigit = true := by simpa using hd c List.mem_cons_self
  have hf : ∀ x ∈ cs, x.isDigit = true := fun x hx => hd x (List.mem_cons_of_mem c hx)
  have hp := parts_joinPoint (by simp) hw hf
  have hsci : scientific (c :: cs) power = joinPoint [c] (dropZeros cs) ++ 'e' :: sign :: digits := by
    rw [scientific, htext]
    rfl
  rw [hsci]
  refine ⟨⟨c, _, _, sign, digits, rfl, hp, by simpa using hhead, getLast?_dropZeros cs, hsign, hdigits,
    htwo⟩, ?_⟩
  rw [magnitudeValue, List.takeWhile_append_of_pos hp.ne_e, List.dropWhile_append_of_pos hp.ne_e,
    List.takeWhile_cons_of_neg (by simp), List.dropWhile_cons_of_neg (by simp), List.append_nil,
    List.drop_one, List.tail_cons, hvalue, decimalValue_joinPoint (by simp) hw hf]
  rw [Nat.succ_inj.mp hlen, zpow_sub₀ (by norm_num), List.singleton_append]
  show _ / 10 ^ 5 * 10 ^ power = _ * (10 ^ power / 10 ^ 5)
  ring

/-- What is written for six digits: their value, in the form that the place of the first of them asks
for. -/
theorem writeDigits_spec (power : ℤ) :
    magnitudeValue (writeDigits ds power) = digitsValue ds * 10 ^ (power - 5) ∧
      if power < -4 ∨ 6 ≤ power then ExponentForm (writeDigits ds power)
      else PositionalForm (writeDigits ds power) := by
  unfold writeDigits
  by_cases hform : power < -4 ∨ 6 ≤ power
  · simp only [if_pos hform]
    exact (scientific_spec hd hlen hhead power).symm
  · simp only [if_neg hform]
    rcases lt_or_ge power 0 with hneg | hpos
    · obtain ⟨k, rfl⟩ := Int.eq_negSucc_of_lt_zero hneg
      obtain ⟨h, hvalue⟩ := positional_negSucc hd hlen hhead k
      exact ⟨h.magnitudeValue.trans hvalue, h⟩
    · obtain ⟨k, rfl⟩ := Int.eq_ofNat_of_zero_le hpos
      obtain ⟨h, hvalue⟩ := positional_ofNat hd hlen hhead (k := k) (by omega)
      exact ⟨h.magnitudeValue.trans hvalue, h⟩

end SixDigits

/-! ### The text of a number -/

theorem isNaN_of_isFinite {x : Binary64} (h : x.isFinite = true) : x.isNaN = false := by
  unfold isFinite at h
  unfold isNaN
  rw [bne_iff_ne] at h
  rw [beq_false_of_ne h, Bool.false_and]

theorem render_eq {x : Binary64} (hf : x.isFinite = true) (hx : x.units ≠ 0) :
    x.render.toList = if x.isNegative then '-' :: x.magnitudeText else x.magnitudeText := by
  unfold render
  rw [isNaN_of_isFinite hf, hf]
  simp only [Bool.false_eq_true, if_false, Bool.not_true, hx]
  cases x.isNegative <;> simp

theorem toRat_eq_zero_iff (x : Binary64) : x.toRat = 0 ↔ x.units = 0 := by
  have hpos : (2 ^ 1074 : ℚ) ≠ 0 := by positivity
  unfold toRat
  rw [mul_eq_zero, div_eq_zero_iff, or_iff_left hpos, Nat.cast_eq_zero]
  cases x.isNegative <;> simp

end Binary64

/-- The text of the six digits `n`, the first of which counts `10 ^ power`. -/
structure Writes (n : ℕ) (power : ℤ) (body : List Char) : Prop where
  /-- There are six digits. -/
  six : 10 ^ 5 ≤ n ∧ n < 10 ^ 6
  /-- The text denotes them. -/
  value_eq : magnitudeValue body = n * 10 ^ (power - 5)
  /-- It has the form that the place of the first digit asks for. -/
  form : if power < -4 ∨ 6 ≤ power then ExponentForm body else PositionalForm body

namespace Writes

variable {n : ℕ} {power : ℤ} {body : List Char}

theorem form_iff (h : Writes n power body) :
    (ExponentForm body ↔ power < -4 ∨ 6 ≤ power) ∧
      (PositionalForm body ↔ -4 ≤ power ∧ power < 6) := by
  have hform := h.form
  split_ifs at hform with hpower
  · have hnot : ¬ PositionalForm body := fun hp => hp.not_exponentForm hform
    exact ⟨iff_of_true hform hpower, iff_of_false hnot (by omega)⟩
  · exact ⟨iff_of_false hform.not_exponentForm hpower, iff_of_true hform (by omega)⟩

/-- There is no sign. -/
theorem head (h : Writes n power body) : ∃ c cs, body = c :: cs ∧ c.isDigit = true := by
  have hform := h.form
  split_ifs at hform
  · obtain ⟨digit, fraction, mantissa, sign, digits, rfl, hp, -⟩ := hform
    obtain ⟨c, cs, rfl, hc⟩ := hp.head
    exact ⟨c, _, rfl, hc⟩
  · obtain ⟨whole, fraction, hp, -⟩ := hform
    exact hp.head

theorem textValue_eq (h : Writes n power body) (negative : Bool) :
    textValue (if negative then '-' :: body else body) = signFactor negative * magnitudeValue body := by
  cases negative with
  | false =>
    obtain ⟨c, cs, rfl, hc⟩ := h.head
    have hne : c ≠ '-' := by
      rintro rfl
      cases hc
    simp [textValue, signFactor, hne]
  | true => simp [textValue, signFactor]

theorem sixDigits (h : Writes n power body) : SixDigits (magnitudeValue body) := by
  refine ⟨n, power - 5, ?_, ?_⟩
  · rw [Nat.abs_cast]
    exact_mod_cast h.six.2
  · rw [h.value_eq, Int.cast_natCast]

theorem bounds (h : Writes n power body) :
    10 ^ power ≤ magnitudeValue body ∧ magnitudeValue body < 10 ^ (power + 1) := by
  have hlow : (10 ^ 5 : ℚ) ≤ n := by exact_mod_cast h.six.1
  have hhigh : (n : ℚ) < 10 ^ 6 := by exact_mod_cast h.six.2
  rw [h.value_eq, ← Rounded.pow_five, ← Rounded.pow_six]
  constructor <;> gcongr

end Writes

/-- The text of the number `q`, which is finite and not zero. -/
structure Shown (q : ℚ) (text : List Char) : Prop where
  /-- It denotes a decimal number with at most six significant digits. -/
  sixDigits : SixDigits (textValue text)
  /-- No such number is nearer. -/
  nearest : ∀ r, SixDigits r → |q - textValue text| ≤ |q - r|
  /-- If another one is as near, the last of the six digits is even. -/
  even : ∃ (place : ℤ) (m : ℕ), 10 ^ place ≤ |q| ∧ |q| < 10 ^ (place + 1) ∧
    |textValue text| = m * 10 ^ (place - 5) ∧
    ∀ r, SixDigits r → r ≠ textValue text → |q - textValue text| = |q - r| → m % 2 = 0
  /-- The place of the first digit, after rounding, gives the form. -/
  form : ∃ (body : List Char) (power : ℤ), text = (if q < 0 then '-' :: body else body) ∧
    10 ^ power ≤ |textValue text| ∧ |textValue text| < 10 ^ (power + 1) ∧
    (ExponentForm body ↔ power < -4 ∨ 6 ≤ power) ∧ (PositionalForm body ↔ -4 ≤ power ∧ power < 6)

/-- The text of the digits that a number is rounded to, and its sign. -/
theorem Rounded.shown {a : ℚ} {place : ℤ} {m n : ℕ} {power : ℤ} {body : List Char}
    (hr : Rounded a place m) (hw : Writes n power body)
    (heq : n * 10 ^ (power - 5) = (m * 10 ^ (place - 5) : ℚ)) (negative : Bool) :
    Shown (signFactor negative * a) (if negative then '-' :: body else body) := by
  have hvalue : magnitudeValue body = m * 10 ^ (place - 5) := hw.value_eq.trans heq
  have hpos : 0 < magnitudeValue body := lt_of_lt_of_le (by positivity) hw.bounds.1
  have ha : 0 < a := lt_of_lt_of_le (by positivity) hr.reached
  have hself : |signFactor negative * a - signFactor negative * magnitudeValue body| =
      |a - m * 10 ^ (place - 5)| := by
    rw [abs_signFactor_mul_sub, signFactor_mul_self, hvalue]
  constructor <;> rw [hw.textValue_eq]
  · exact hw.sixDigits.signFactor negative
  · intro r h6
    rw [hself, abs_signFactor_mul_sub]
    exact hr.nearest (h6.signFactor negative)
  · rw [abs_signFactor_mul, abs_signFactor_mul, abs_of_pos ha, abs_of_pos hpos]
    refine ⟨place, m, hr.reached, hr.below, hvalue, fun r h6 hne htie => ?_⟩
    rw [hself, abs_signFactor_mul_sub] at htie
    refine hr.even_of_tie (h6.signFactor negative) (fun hrm => hne ?_) htie
    rw [hvalue, ← hrm, signFactor_mul_self]
  · rw [abs_signFactor_mul, abs_of_pos hpos]
    refine ⟨body, power, ?_, hw.bounds.1, hw.bounds.2, hw.form_iff⟩
    cases negative with
    | false => simp [signFactor, ha.le]
    | true => simp [signFactor, ha]

namespace Binary64

/-- The text of the magnitude, with the six digits as a number. -/
theorem writes_magnitudeText {x : Binary64}
    (hn : 10 ^ 5 ≤ x.leadingDigits.1 ∧ x.leadingDigits.1 < 10 ^ 6) :
    Writes x.leadingDigits.1 x.leadingDigits.2 x.magnitudeText := by
  unfold magnitudeText
  generalize x.leadingDigits = lead at hn ⊢
  have hspec := writeDigits_spec (isDigit_toDigits lead.1)
    (length_toDigits (by norm_num) hn.1 hn.2) (head?_toDigits (by norm_num) hn.1 hn.2) lead.2
  rw [digitsValue_toDigits] at hspec
  exact ⟨hn, hspec.1, hspec.2⟩

theorem toRat_eq (x : Binary64) : x.toRat = signFactor x.isNegative * (x.units / 2 ^ 1074) := rfl

theorem shown_render {x : Binary64} (hf : x.isFinite = true) (hx : x.toRat ≠ 0) :
    Shown x.toRat x.render.toList := by
  have hunits : x.units ≠ 0 := mt x.toRat_eq_zero_iff.mpr hx
  obtain ⟨place, m, hr, heq, hn⟩ := exists_rounded hunits
  rw [render_eq hf hunits, toRat_eq]
  have hw := writes_magnitudeText hn
  generalize x.leadingDigits = lead at heq hw
  exact hr.shown hw heq x.isNegative

/-- **A literal is listed with the nearest six digits.** Its text denotes a decimal number with six
significant digits or fewer, and no other one is nearer to the exact value of the literal; if one is as
near, the sixth digit is even. The text has an exponent exactly if the first digit stands for less than
`10 ^ -4` or for `10 ^ 6` or more, and in both forms there are no needless zeros. -/
theorem listing_literal_shown {v : Binary64} (hf : v.isFinite = true) (hv : v.toRat ≠ 0) (ty : Ty)
    (span : Span) :
    ∃ text, (Typed.Expr.literal v ty span).listing = .ok (text ++ ": " ++ ty.name) ∧
      Shown v.toRat text.toList :=
  ⟨v.render, rfl, shown_render hf hv⟩

/-- The number 999999.5 is halfway between two decimal numbers with six digits. All digits of the even
one are carried over, so that it is written with an exponent. -/
theorem listing_literal_shown_carry :
    let v : Binary64 := ⟨0x412E847F00000000⟩
    v.isFinite = true ∧ v.toRat ≠ 0 ∧
      (Typed.Expr.literal v .num {}).listing = .ok "1e+06: Num" ∧
      ∃ text, (Typed.Expr.literal v .num {}).listing = .ok (text ++ ": " ++ Ty.num.name) ∧
        Shown v.toRat text.toList := by
  intro v
  have hf : v.isFinite = true := by decide
  have hv : v.toRat ≠ 0 := mt v.toRat_eq_zero_iff.mp (by decide +kernel)
  exact ⟨hf, hv, by decide +kernel, listing_literal_shown hf hv .num {}⟩

end Binary64

end NumCheck
