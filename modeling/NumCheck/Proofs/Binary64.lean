import Mathlib.Data.Nat.Cast.Order.Field
import Mathlib.Tactic.Ring
import NumCheck.Number.Binary64
import NumCheck.Proofs.Rounding

/-!
# Nearest double-precision numbers

The bits of a nonnegative number, read as a natural number, are its *code*. The codes are in the order
of the numbers, and a code says which significand a number has and what its last bit counts: `s` times
`2 ^ 52` and the significand `m` make the code of `m * 2 ^ s` units. Here `m` has 53 bits, or fewer if
`s` is 0, in the subnormal range; it may also be `2 ^ 53`, so that rounding up past the last significand
of a size gives the code of the first one of the next size.

A quotient is rounded at the size that it has itself. The numbers of this size or a greater one are
multiples of `2 ^ s`, and of these the rounded one is nearest. The numbers of a smaller size lie closer
together, but all of them are below the smallest number of this size, which the quotient has reached.

## What is proved

* `unitsOf_add`, `exists_significand`: codes and significands.
* `Significand.nearest`, `Significand.even_of_tie`: the rounded significand against all codes.
* `Significand.code_mono`: a larger quotient does not get a smaller code.
* `Significand.infinityCode_le_iff`, `Significand.code_eq_zero_iff`: where the two ends are.
* `nearest_ofRatio`, `ofRatio_mono`: so the number of a quotient is the nearest one.
-/

namespace NumCheck.Binary64

/-! ### Codes -/

/-- The units of the number with the code `c`, which may lie beyond the finite numbers. -/
def unitsOf (c : ℕ) : ℕ :=
  if c / 2 ^ 52 = 0 then c % 2 ^ 52 else (2 ^ 52 + c % 2 ^ 52) * 2 ^ (c / 2 ^ 52 - 1)

/-- The code of a number without its sign. -/
def magnitude (x : Binary64) : ℕ := x.code % 2 ^ 63

theorem units_eq (x : Binary64) : x.units = unitsOf x.magnitude := by
  have hexp : x.exponentField = x.magnitude / 2 ^ 52 := by
    unfold exponentField magnitude
    simp only [Nat.pow_eq]
    omega
  have hfrac : x.fraction = x.magnitude % 2 ^ 52 := by
    unfold fraction magnitude
    simp only [Nat.pow_eq]
    omega
  unfold units unitsOf
  rw [hexp, hfrac]
  rfl

theorem isFinite_iff (x : Binary64) : x.isFinite = true ↔ x.magnitude < infinityCode := by
  unfold isFinite exponentField magnitude infinityCode
  simp only [Nat.pow_eq, bne_iff_ne, ne_eq]
  have := x.bits.toNat_lt
  unfold code
  omega

/-- The code of the significand `m` whose last bit counts `2 ^ s` units. -/
theorem unitsOf_add {s m : ℕ} (hm : m ≤ 2 ^ 53) (hs : s = 0 ∨ 2 ^ 52 ≤ m) :
    unitsOf (s * 2 ^ 52 + m) = m * 2 ^ s := by
  unfold unitsOf
  by_cases hsmall : m < 2 ^ 52
  · obtain rfl : s = 0 := by omega
    rw [if_pos (by omega)]
    omega
  · by_cases htop : m = 2 ^ 53
    · have hdiv : (s * 2 ^ 52 + m) / 2 ^ 52 = s + 1 + 1 := by omega
      have hmod : (s * 2 ^ 52 + m) % 2 ^ 52 = 0 := by omega
      rw [hdiv, hmod, if_neg (by omega), htop, Nat.add_zero, Nat.add_sub_cancel, ← pow_add, ← pow_add]
      congr 1
      omega
    · have hdiv : (s * 2 ^ 52 + m) / 2 ^ 52 = s + 1 := by omega
      have hmod : (s * 2 ^ 52 + m) % 2 ^ 52 = m - 2 ^ 52 := by omega
      rw [hdiv, hmod, if_neg (by omega), Nat.add_sub_cancel, Nat.add_sub_cancel' (by omega)]

/-- Every code is that of a significand. -/
theorem exists_significand (c : ℕ) :
    ∃ s m, c = s * 2 ^ 52 + m ∧ m < 2 ^ 53 ∧ (s = 0 ∨ 2 ^ 52 ≤ m) := by
  refine ⟨c / 2 ^ 52 - 1, c - (c / 2 ^ 52 - 1) * 2 ^ 52, ?_, ?_, ?_⟩ <;> omega

/-- A smaller size ends where the greater one starts. -/
theorem mul_pow_lt {s s' m : ℕ} (hm : m < 2 ^ 53) (h : s < s') : m * 2 ^ s < 2 ^ 52 * 2 ^ s' :=
  calc m * 2 ^ s < 2 ^ 53 * 2 ^ s := Nat.mul_lt_mul_of_pos_right hm (Nat.two_pow_pos s)
    _ = 2 ^ 52 * 2 ^ (s + 1) := by rw [← pow_add, ← pow_add]; congr 1; omega
    _ ≤ 2 ^ 52 * 2 ^ s' := Nat.mul_le_mul_left _ (Nat.pow_le_pow_right (by decide) h)

theorem unitsOf_mono {c d : ℕ} (h : c ≤ d) : unitsOf c ≤ unitsOf d := by
  obtain ⟨s, m, rfl, hm, hs⟩ := exists_significand c
  obtain ⟨s', m', rfl, hm', hs'⟩ := exists_significand d
  rw [unitsOf_add hm.le hs, unitsOf_add hm'.le hs']
  rcases Nat.lt_trichotomy s s' with hlt | rfl | hgt
  · have hge : 2 ^ 52 ≤ m' := by omega
    exact (mul_pow_lt hm hlt).le.trans (Nat.mul_le_mul_right _ hge)
  · exact Nat.mul_le_mul_right _ (by omega)
  · omega

theorem unitsOf_eq_zero_iff {c : ℕ} : unitsOf c = 0 ↔ c = 0 := by
  obtain ⟨s, m, rfl, hm, hs⟩ := exists_significand c
  rw [unitsOf_add hm.le hs]
  simp
  omega

/-! ### The significand of a quotient -/

/-- The quotient `x` has the size of the significands whose last bit counts `2 ^ s` units, and the
rounded one is `m`. -/
structure Significand (x : ℚ) (s m : ℕ) : Prop where
  /-- Its size is not smaller, where there are smaller ones. -/
  lower : s = 0 ∨ 2 ^ 52 * 2 ^ s ≤ x
  /-- Its size is not greater. -/
  upper : x < 2 ^ 53 * 2 ^ s
  /-- The significand is rounded. -/
  rounds : Rounds (x / 2 ^ s) m

namespace Significand

variable {x y : ℚ} {s m s' m' : ℕ}

theorem le (h : Significand x s m) : m ≤ 2 ^ 53 := by
  refine h.rounds.le_of_le ?_
  rw [div_le_iff₀ (by positivity)]
  exact_mod_cast h.upper.le

theorem ge (h : Significand x s m) : s = 0 ∨ 2 ^ 52 ≤ m := by
  refine h.lower.imp_right fun hlow => h.rounds.ge_of_ge ?_
  rw [le_div_iff₀ (by positivity)]
  exact_mod_cast hlow

theorem unitsOf_code (h : Significand x s m) : unitsOf (s * 2 ^ 52 + m) = m * 2 ^ s :=
  unitsOf_add h.le h.ge

/-- A code has a multiple of `2 ^ s` units, or fewer units than the numbers of this size. -/
theorem multiple_or_below (h : Significand x s m) (c : ℕ) :
    (∃ k : ℕ, (unitsOf c : ℚ) = k * 2 ^ s) ∨
      (2 ^ 52 * 2 ^ s ≤ x ∧ (unitsOf c : ℚ) < 2 ^ 52 * 2 ^ s) := by
  obtain ⟨s', m', rfl, hm', hs'⟩ := exists_significand c
  rw [unitsOf_add hm'.le hs']
  by_cases hle : s ≤ s'
  · left
    refine ⟨m' * 2 ^ (s' - s), ?_⟩
    push_cast
    rw [mul_assoc, ← pow_add, Nat.sub_add_cancel hle]
  · right
    refine ⟨h.lower.resolve_left (by omega), ?_⟩
    exact_mod_cast mul_pow_lt hm' (by omega)

/-- No code has units nearer to the quotient. -/
theorem nearest (h : Significand x s m) (c : ℕ) :
    |x - unitsOf (s * 2 ^ 52 + m)| ≤ |x - unitsOf c| := by
  have hpos : (0 : ℚ) < 2 ^ s := by positivity
  rw [h.unitsOf_code]
  push_cast
  rcases h.multiple_or_below c with ⟨k, hk⟩ | ⟨hx, hc⟩
  · rw [hk]
    exact_mod_cast h.rounds.nearest hpos k
  · exact (h.rounds.nearer hpos (b := 2 ^ 52) (by exact_mod_cast hx) (by exact_mod_cast hc)).le

/-- If other units are as near, the significand is even. -/
theorem even_of_tie (h : Significand x s m) {c : ℕ} (hne : unitsOf c ≠ unitsOf (s * 2 ^ 52 + m))
    (htie : |x - unitsOf (s * 2 ^ 52 + m)| = |x - unitsOf c|) : m % 2 = 0 := by
  have hpos : (0 : ℚ) < 2 ^ s := by positivity
  rw [h.unitsOf_code] at hne htie
  push_cast at htie
  rcases h.multiple_or_below c with ⟨k, hk⟩ | ⟨hx, hc⟩
  · have hkm : k ≠ m := by
      rintro rfl
      exact hne (by exact_mod_cast hk)
    rw [hk] at htie
    exact h.rounds.even_of_tie hpos (k := k) (by exact_mod_cast hkm) (by exact_mod_cast htie)
  · have hlt : |x - m * 2 ^ s| < |x - unitsOf c| :=
      h.rounds.nearer hpos (b := 2 ^ 52) (by exact_mod_cast hx) (by exact_mod_cast hc)
    exact absurd htie hlt.ne

/-- A larger quotient does not get a smaller code. -/
theorem code_mono (h : Significand x s m) (h' : Significand y s' m') (hxy : x ≤ y) :
    s * 2 ^ 52 + m ≤ s' * 2 ^ 52 + m' := by
  rcases Nat.lt_trichotomy s s' with hlt | rfl | hgt
  · have hm := h.le
    have hm' := h'.ge
    omega
  · have hmm := h.rounds.mono h'.rounds (by gcongr)
    omega
  · -- a smaller size ends below `x`
    have hx := h.lower.resolve_left (by omega)
    have hsize : (2 ^ 53 * 2 ^ s' : ℚ) ≤ 2 ^ 52 * 2 ^ s :=
      calc (2 ^ 53 * 2 ^ s' : ℚ) = 2 ^ 52 * 2 ^ (s' + 1) := by ring
        _ ≤ 2 ^ 52 * 2 ^ s := by gcongr <;> [norm_num; omega]
    exact absurd (h'.upper.trans_le (hsize.trans hx)) (not_lt.mpr hxy)

/-- The middle between the largest finite number and the next power of two gets the code of infinity. -/
theorem middle : Significand ((2 ^ 53 - 1 / 2) * 2 ^ 2045) 2045 (2 ^ 53) := by
  refine ⟨.inr ?_, ?_, ?_⟩
  · gcongr
    norm_num
  · gcongr
    norm_num
  · rw [mul_div_cancel_right₀ _ (by positivity)]
    refine ⟨?_, fun _ => by decide⟩
    norm_num [abs_le]

/-- The quotient gets the code of infinity, or a greater one, from that middle on. -/
theorem infinityCode_le_iff (h : Significand x s m) :
    infinityCode ≤ s * 2 ^ 52 + m ↔ (2 ^ 53 - 1 / 2) * 2 ^ 2045 ≤ x := by
  have hcode : infinityCode = 2045 * 2 ^ 52 + 2 ^ 53 := rfl
  rw [hcode]
  constructor
  · intro hle
    have hm := h.le
    by_cases hs : s ≤ 2045
    · obtain rfl : s = 2045 := by omega
      obtain rfl : m = 2 ^ 53 := by omega
      have hlow := h.rounds.bounds.1
      rw [le_div_iff₀ (by positivity)] at hlow
      exact_mod_cast hlow
    · calc (2 ^ 53 - 1 / 2) * 2 ^ 2045 ≤ (2 ^ 53 * 2 ^ 2045 : ℚ) := by gcongr; norm_num
        _ = 2 ^ 52 * 2 ^ 2046 := by rw [← pow_add, ← pow_add]
        _ ≤ 2 ^ 52 * 2 ^ s := by gcongr <;> [norm_num; omega]
        _ ≤ x := h.lower.resolve_left (by omega)
  · exact fun hle => middle.code_mono h hle

/-- The quotient gets the code of zero up to half a unit. -/
theorem code_eq_zero_iff (h : Significand x s m) : s * 2 ^ 52 + m = 0 ↔ x ≤ 1 / 2 := by
  constructor
  · intro hzero
    obtain rfl : s = 0 := by omega
    obtain rfl : m = 0 := by omega
    have hupper := h.rounds.bounds.2
    simpa using hupper
  · intro hle
    have hhalf : Significand (1 / 2) 0 0 := by
      refine ⟨.inl rfl, by norm_num, ?_⟩
      exact ⟨by norm_num [abs_le], fun _ => rfl⟩
    have hcode := h.code_mono hhalf hle
    omega

end Significand

/-- The size of a quotient is that of its whole part. -/
theorem size_bounds (n : ℕ) {d : ℕ} (hd : 0 < d) :
    ((n / d).log2 - 52 = 0 ∨ (2 ^ 52 * 2 ^ ((n / d).log2 - 52) : ℚ) ≤ n / d) ∧
      (n / d : ℚ) < 2 ^ 53 * 2 ^ ((n / d).log2 - 52) := by
  have hpos : (0 : ℚ) < d := by exact_mod_cast hd
  constructor
  · by_cases hs : (n / d).log2 ≤ 52
    · exact .inl (Nat.sub_eq_zero_of_le hs)
    · right
      have hne : n / d ≠ 0 := by
        intro hzero
        simp [hzero] at hs
      calc (2 ^ 52 * 2 ^ ((n / d).log2 - 52) : ℚ) = (2 ^ (n / d).log2 : ℕ) := by
            rw [← pow_add, Nat.add_sub_cancel' (by omega)]
            norm_cast
        _ ≤ (n / d : ℕ) := by exact_mod_cast Nat.log2_self_le hne
        _ ≤ n / d := Nat.cast_div_le
  · calc (n / d : ℚ) < (n / d + 1 : ℕ) := by
          rw [div_lt_iff₀ hpos]
          exact_mod_cast Nat.lt_mul_of_div_lt (Nat.lt_succ_self _) hd
      _ ≤ (2 ^ ((n / d).log2 + 1) : ℕ) := by exact_mod_cast Nat.lt_log2_self
      _ ≤ (2 ^ (53 + ((n / d).log2 - 52)) : ℕ) := by
          exact_mod_cast Nat.pow_le_pow_right (by decide) (by omega)
      _ = 2 ^ 53 * 2 ^ ((n / d).log2 - 52) := by
          rw [pow_add]
          norm_cast

/-- The significand that the number of a quotient is made of. -/
theorem exists_codeOfRatio (num : ℕ) {den : ℕ} (hden : 0 < den) :
    ∃ s m, Significand (num / den * 2 ^ 1074) s m ∧
      codeOfRatio num den = min (s * 2 ^ 52 + m) infinityCode := by
  unfold codeOfRatio
  -- nothing depends on how small the units are
  generalize 1074 = k
  have hx : (num / den * 2 ^ k : ℚ) = (num * Nat.pow 2 k : ℕ) / den := by
    rw [Nat.pow_eq, Nat.cast_mul, Nat.cast_pow, Nat.cast_ofNat, div_mul_eq_mul_div]
  rw [hx]
  generalize num * Nat.pow 2 k = scaled
  obtain ⟨hlower, hupper⟩ := size_bounds scaled hden
  refine ⟨_, _, ⟨hlower, hupper, ?_⟩, rfl⟩
  have hrounds := rounds_roundDiv scaled (d := den * 2 ^ ((scaled / den).log2 - 52)) (by positivity)
  rw [div_div]
  exact_mod_cast hrounds

/-! ### Numbers -/

/-- The exact value of a finite number. -/
def toRat (x : Binary64) : ℚ := (if x.isNegative then -1 else 1) * (x.units / 2 ^ 1074)

/-- The number `v` is the value `q`, which is not negative, correctly rounded. -/
structure Nearest (q : ℚ) (v : Binary64) : Prop where
  /-- It has no sign, and is a number. -/
  isNumber : v.isNegative = false ∧ v.isNaN = false
  /-- It is infinite from the middle between the largest finite number and the next power of two on. -/
  infinite : v = infinity ↔ 2 ^ 1024 - 2 ^ 970 ≤ q
  /-- If it is finite, no finite number is nearer. -/
  nearest : v.isFinite = true → ∀ w : Binary64, w.isFinite = true → |q - v.toRat| ≤ |q - w.toRat|
  /-- If another finite number is as near, its significand is even. -/
  even : v.isFinite = true → ∀ w : Binary64, w.isFinite = true → w.toRat ≠ v.toRat →
    |q - v.toRat| = |q - w.toRat| → v.fraction % 2 = 0
  /-- It is zero up to half the least positive number. -/
  zero : v.toRat = 0 ↔ q ≤ 1 / 2 ^ 1075

/-- The number `v` is not above the number `w`: this is infinite, or both are finite and their values
are in this order. -/
def AtMost (v w : Binary64) : Prop :=
  w = infinity ∨ v.isFinite = true ∧ w.isFinite = true ∧ v.toRat ≤ w.toRat

theorem code_ofNat {c : ℕ} (hc : c ≤ infinityCode) : code ⟨c.toUInt64⟩ = c := by
  have hlt : c < 2 ^ 64 := Nat.lt_of_le_of_lt hc (by decide)
  exact UInt64.toNat_ofNat_of_lt hlt

theorem isNegative_of_code_le {x : Binary64} (h : x.code ≤ infinityCode) : x.isNegative = false := by
  have : infinityCode = 2047 * 2 ^ 52 := rfl
  unfold isNegative
  simp only [Nat.pow_eq, beq_eq_false_iff_ne, ne_eq]
  omega

theorem magnitude_of_code_le {x : Binary64} (h : x.code ≤ infinityCode) : x.magnitude = x.code := by
  have : infinityCode = 2047 * 2 ^ 52 := rfl
  unfold magnitude
  omega

theorem isNaN_of_code_le {x : Binary64} (h : x.code ≤ infinityCode) : x.isNaN = false := by
  have : infinityCode = 2047 * 2 ^ 52 := rfl
  unfold isNaN exponentField fraction
  simp only [Nat.pow_eq, Bool.and_eq_false_iff, beq_eq_false_iff_ne, bne_eq_false_iff_eq, ne_eq]
  omega

theorem eq_of_code_eq {x y : Binary64} (h : x.code = y.code) : x = y := by
  cases x
  cases y
  exact congrArg Binary64.mk (UInt64.toNat_inj.mp h)

theorem eq_infinity_iff {x : Binary64} : x = infinity ↔ x.code = infinityCode := by
  have hcode : infinity.code = infinityCode := code_ofNat le_rfl
  constructor
  · rintro rfl
    exact hcode
  · exact fun h => eq_of_code_eq (h.trans hcode.symm)

/-- The value of a number is that of its units, or its negation. -/
theorem toRat_cases (x : Binary64) :
    x.toRat = unitsOf x.magnitude / 2 ^ 1074 ∨ x.toRat = -(unitsOf x.magnitude / 2 ^ 1074) := by
  unfold toRat
  rw [units_eq]
  cases x.isNegative
  · left
    simp
  · right
    simp

theorem toRat_of_code_le {x : Binary64} (h : x.code ≤ infinityCode) :
    x.toRat = unitsOf x.code / 2 ^ 1074 := by
  unfold toRat
  rw [units_eq, magnitude_of_code_le h, isNegative_of_code_le h]
  simp

/-- Distances to values, and distances to units. -/
theorem abs_sub_div {q u p : ℚ} (hp : 0 < p) : |q - u / p| = |q * p - u| / p := by
  rw [← abs_of_pos hp, ← abs_div, abs_of_pos hp, sub_div, mul_div_cancel_right₀ _ hp.ne']

/-- A sign does not bring a number nearer to a value that has none. -/
theorem abs_sub_unitsOf_le {q : ℚ} (hq : 0 ≤ q) (w : Binary64) :
    |q * 2 ^ 1074 - unitsOf w.magnitude| / 2 ^ 1074 ≤ |q - w.toRat| := by
  rw [← abs_sub_div (by positivity)]
  have hu : (0 : ℚ) ≤ unitsOf w.magnitude / 2 ^ 1074 := by positivity
  have hcases := w.toRat_cases
  generalize (unitsOf w.magnitude / 2 ^ 1074 : ℚ) = u at hu hcases
  rcases hcases with h | h
  · rw [h]
  · rw [h, sub_neg_eq_add, abs_of_nonneg (add_nonneg hq hu), abs_le]
    constructor <;> linarith

/-- The number is made of the significand of the value `q`, or it is infinite. -/
def Made (q : ℚ) (s m : ℕ) (v : Binary64) : Prop :=
  Significand (q * 2 ^ 1074) s m ∧ v.code = min (s * 2 ^ 52 + m) infinityCode

namespace Made

variable {q q' : ℚ} {s m s' m' : ℕ} {v v' : Binary64}

theorem code_le (h : Made q s m v) : v.code ≤ infinityCode := h.2 ▸ Nat.min_le_right _ _

theorem toRat_eq (h : Made q s m v) : v.toRat = unitsOf v.code / 2 ^ 1074 :=
  toRat_of_code_le h.code_le

theorem code_of_isFinite (h : Made q s m v) (hv : v.isFinite = true) : v.code = s * 2 ^ 52 + m := by
  rw [isFinite_iff, magnitude_of_code_le h.code_le] at hv
  have := h.2
  omega

theorem eq_infinity_iff (h : Made q s m v) : v = infinity ↔ 2 ^ 1024 - 2 ^ 970 ≤ q := by
  have hmiddle : (2 ^ 53 - 1 / 2) * 2 ^ 2045 = ((2 ^ 1024 - 2 ^ 970) * 2 ^ 1074 : ℚ) := by
    have hfirst : (2 ^ 53 * 2 ^ 2045 : ℚ) = 2 ^ 1024 * 2 ^ 1074 := by rw [← pow_add, ← pow_add]
    have hsecond : (1 / 2 * 2 ^ 2045 : ℚ) = 2 ^ 970 * 2 ^ 1074 := by
      rw [← pow_add, pow_succ', ← mul_assoc, one_div_mul_cancel two_ne_zero, one_mul]
    rw [sub_mul, sub_mul, hfirst, hsecond]
  have hscale : (2 ^ 53 - 1 / 2) * 2 ^ 2045 ≤ q * 2 ^ 1074 ↔ 2 ^ 1024 - 2 ^ 970 ≤ q := by
    rw [hmiddle, mul_le_mul_iff_left₀ (by positivity)]
  rw [Binary64.eq_infinity_iff, ← hscale, ← h.1.infinityCode_le_iff, h.2]
  omega

theorem toRat_eq_zero_iff (h : Made q s m v) : v.toRat = 0 ↔ q ≤ 1 / 2 ^ 1075 := by
  have hscale : q * 2 ^ 1074 ≤ 1 / 2 ↔ q ≤ 1 / 2 ^ 1075 := by
    rw [← le_div_iff₀ (by positivity), div_div, ← pow_succ']
  have hpos : (2 ^ 1074 : ℚ) ≠ 0 := by positivity
  rw [h.toRat_eq, div_eq_zero_iff, or_iff_left hpos, Nat.cast_eq_zero, unitsOf_eq_zero_iff, ← hscale,
    ← h.1.code_eq_zero_iff, h.2]
  have : infinityCode = 2047 * 2 ^ 52 := rfl
  omega

theorem nearest (h : Made q s m v) (hq : 0 ≤ q) (hv : v.isFinite = true) (w : Binary64) :
    |q - v.toRat| ≤ |q - w.toRat| := by
  refine le_trans ?_ (abs_sub_unitsOf_le hq w)
  rw [h.toRat_eq, abs_sub_div (by positivity), h.code_of_isFinite hv]
  have hnear := h.1.nearest w.magnitude
  gcongr

/-- A number that is as near without being the same has other units. -/
theorem unitsOf_ne (h : Made q s m v) (hq : 0 ≤ q) {w : Binary64} (hne : w.toRat ≠ v.toRat)
    (htie : |q - v.toRat| = |q - w.toRat|) : unitsOf w.magnitude ≠ unitsOf v.code := by
  intro heq
  have hcases := w.toRat_cases
  have hu : (0 : ℚ) ≤ unitsOf v.code / 2 ^ 1074 := by positivity
  have hzero : q ≤ 0 → v.toRat = 0 := fun hle => h.toRat_eq_zero_iff.mpr (hle.trans (by positivity))
  rw [heq, ← h.toRat_eq] at hcases
  rw [← h.toRat_eq] at hu
  rcases hcases with hw | hw
  · exact hne hw
  · -- the two differ by their sign, so the value in the middle is zero, and so are they
    rw [hw] at hne htie
    rw [sub_neg_eq_add, abs_of_nonneg (add_nonneg hq hu)] at htie
    rcases abs_choice (q - v.toRat) with habs | habs
    · exact hne (by linarith)
    · exact hne (by rw [hzero (by linarith), neg_zero])

theorem even_of_tie (h : Made q s m v) (hq : 0 ≤ q) (hv : v.isFinite = true) {w : Binary64}
    (hne : w.toRat ≠ v.toRat) (htie : |q - v.toRat| = |q - w.toRat|) : v.fraction % 2 = 0 := by
  have hcode := h.code_of_isFinite hv
  have hunits := h.unitsOf_ne hq hne htie
  have hpos : (0 : ℚ) < 2 ^ 1074 := by positivity
  have hdist : |q * 2 ^ 1074 - unitsOf v.code| = |q * 2 ^ 1074 - unitsOf w.magnitude| := by
    have hw := abs_sub_unitsOf_le hq w
    rw [← htie, h.toRat_eq, abs_sub_div hpos, div_le_div_iff_of_pos_right hpos] at hw
    exact le_antisymm (hcode ▸ h.1.nearest w.magnitude) hw
  rw [hcode] at hunits hdist
  have heven := h.1.even_of_tie hunits hdist
  unfold fraction
  rw [hcode, Nat.pow_eq]
  omega

theorem atMost (h : Made q s m v) (h' : Made q' s' m' v') (hqq : q ≤ q') : v.AtMost v' := by
  have hcode : v.code ≤ v'.code := by
    have := h.1.code_mono h'.1 (by gcongr)
    rw [h.2, h'.2]
    omega
  by_cases hinf : v' = infinity
  · exact .inl hinf
  · right
    have hlt : v'.code < infinityCode :=
      Nat.lt_of_le_of_ne h'.code_le fun heq => hinf (Binary64.eq_infinity_iff.mpr heq)
    refine ⟨?_, ?_, ?_⟩
    · rw [isFinite_iff, magnitude_of_code_le h.code_le]
      omega
    · rwa [isFinite_iff, magnitude_of_code_le h'.code_le]
    · rw [h.toRat_eq, h'.toRat_eq]
      have := unitsOf_mono hcode
      gcongr

end Made

theorem exists_made (num : ℕ) {den : ℕ} (hden : 0 < den) :
    ∃ s m, Made (num / den) s m (ofRatio num den) := by
  obtain ⟨s, m, hsig, hcode⟩ := exists_codeOfRatio num hden
  exact ⟨s, m, hsig, (code_ofNat (Nat.min_le_right _ _)).trans hcode⟩

/-- The number of a quotient is the nearest one. -/
theorem nearest_ofRatio (num : ℕ) {den : ℕ} (hden : 0 < den) :
    Nearest (num / den) (ofRatio num den) := by
  obtain ⟨s, m, h⟩ := exists_made num hden
  have hq : (0 : ℚ) ≤ num / den := by positivity
  exact {
    isNumber := ⟨isNegative_of_code_le h.code_le, isNaN_of_code_le h.code_le⟩
    infinite := h.eq_infinity_iff
    nearest := fun hv w _ => h.nearest hq hv w
    even := fun hv w _ hne htie => h.even_of_tie hq hv hne htie
    zero := h.toRat_eq_zero_iff }

/-- The numbers of quotients are in the order of the quotients. -/
theorem ofRatio_mono {num den num' den' : ℕ} (hden : 0 < den) (hden' : 0 < den')
    (h : (num / den : ℚ) ≤ num' / den') : (ofRatio num den).AtMost (ofRatio num' den') := by
  obtain ⟨s, m, hv⟩ := exists_made num hden
  obtain ⟨s', m', hv'⟩ := exists_made num' hden'
  exact hv.atMost hv' h

/-- Quotients that are equal have the same number. -/
theorem ofRatio_congr {num den num' den' : ℕ} (hden : 0 < den) (hden' : 0 < den')
    (h : (num / den : ℚ) = num' / den') : ofRatio num den = ofRatio num' den' := by
  obtain ⟨s, m, hsig, hcode⟩ := exists_made num hden
  obtain ⟨s', m', hsig', hcode'⟩ := exists_made num' hden'
  rw [← h] at hsig'
  have heq := Nat.le_antisymm (hsig.code_mono hsig' le_rfl) (hsig'.code_mono hsig le_rfl)
  exact eq_of_code_eq (by rw [hcode, hcode', heq])

/-- Quotients up to half the least positive number all have the number zero. -/
theorem ofRatio_eq_zero {num den : ℕ} (hden : 0 < den) (h : (num / den : ℚ) ≤ 1 / 2 ^ 1075) :
    ofRatio num den = ofRatio 0 1 := by
  have hcode (n d : ℕ) (hd : 0 < d) (h : (n / d : ℚ) ≤ 1 / 2 ^ 1075) : (ofRatio n d).code = 0 := by
    obtain ⟨s, m, hm⟩ := exists_made n hd
    have hpos : (2 ^ 1074 : ℚ) ≠ 0 := by positivity
    have hzero := hm.toRat_eq_zero_iff.mpr h
    rw [hm.toRat_eq, div_eq_zero_iff, or_iff_left hpos, Nat.cast_eq_zero] at hzero
    exact unitsOf_eq_zero_iff.mp hzero
  have hzero := hcode 0 1 one_pos (by rw [Nat.cast_zero, zero_div]; positivity)
  exact eq_of_code_eq ((hcode num den hden h).trans hzero.symm)

end NumCheck.Binary64
