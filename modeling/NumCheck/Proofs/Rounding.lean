import Mathlib.Algebra.Order.Field.Basic
import Mathlib.Algebra.Order.Ring.Rat
import Mathlib.Tactic.FieldSimp
import Mathlib.Tactic.Linarith
import NumCheck.Number.Rounding

/-!
# Rounding to whole numbers and to multiples

Reading a numeral and writing a number both divide two natural numbers and round the quotient. The
rounded number is at most a half away, and even if it is exactly a half away. This says all there is
to say: it is nearest to the quotient, and a larger quotient is not rounded to a smaller number.

A number is rounded to a multiple of a step `g` by rounding how many steps it has. In both uses the
step depends on the size of the number, so that there are finer multiples below the number, and the
step is coarsest for a number that is itself above some multiple `b`. What is below `b` is then farther
away than `b`, and need not be looked at.

## What is proved

* `rounds_roundDiv`: what `roundDiv` gives.
* `Rounds.nearest`, `Rounds.even_of_tie`: the distance to all other multiples.
* `Rounds.nearer`: what is below a multiple that the number has reached.
* `Rounds.mono`: the order of roundings.
-/

namespace NumCheck

/-- The whole number `m` is nearest to `x`, and even if there are two of them. -/
structure Rounds (x : ℚ) (m : ℕ) : Prop where
  /-- It is at most a half away. -/
  near : |x - m| ≤ 1 / 2
  /-- In the middle between two, it is the even one. -/
  even : |x - m| = 1 / 2 → m % 2 = 0

/-- A quotient is its whole part and a rest, which is a fraction of one. -/
theorem div_split (n : ℕ) {d : ℕ} (hd : 0 < d) :
    (n / d : ℚ) = (n / d : ℕ) + (n % d : ℕ) / d := by
  have hne : (d : ℚ) ≠ 0 := by exact_mod_cast hd.ne'
  have hmod : (n : ℚ) = d * (n / d : ℕ) + (n % d : ℕ) := by
    exact_mod_cast (Nat.div_add_mod n d).symm
  field_simp
  linarith

theorem rounds_roundDiv (n : ℕ) {d : ℕ} (hd : 0 < d) : Rounds (n / d) (roundDiv n d) := by
  have hpos : (0 : ℚ) < d := by exact_mod_cast hd
  rw [div_split n hd]
  unfold roundDiv
  generalize n / d = q
  have hnonneg : (0 : ℚ) ≤ (n % d : ℕ) / d := by positivity
  have hlt : ((n % d : ℕ) / d : ℚ) < 1 := by
    rw [div_lt_one hpos]
    exact_mod_cast Nat.mod_lt n hd
  by_cases hlow : 2 * (n % d) < d
  · have hhalf : ((n % d : ℕ) / d : ℚ) < 1 / 2 := by
      have : (2 * (n % d : ℕ) : ℚ) < d := by exact_mod_cast hlow
      rw [div_lt_iff₀ hpos]
      linarith
    have habs : |(q + (n % d : ℕ) / d : ℚ) - q| < 1 / 2 := by
      rw [abs_lt]
      constructor <;> linarith
    rw [if_pos hlow]
    exact ⟨habs.le, fun h => absurd h habs.ne⟩
  · rw [if_neg hlow]
    by_cases hhigh : d < 2 * (n % d)
    · have hhalf : (1 / 2 : ℚ) < (n % d : ℕ) / d := by
        have : (d : ℚ) < 2 * (n % d : ℕ) := by exact_mod_cast hhigh
        rw [lt_div_iff₀ hpos]
        linarith
      have habs : |(q + (n % d : ℕ) / d : ℚ) - (q + 1 : ℕ)| < 1 / 2 := by
        push_cast
        rw [abs_lt]
        constructor <;> linarith
      rw [if_pos hhigh]
      exact ⟨habs.le, fun h => absurd h habs.ne⟩
    · have hhalf : ((n % d : ℕ) / d : ℚ) = 1 / 2 := by
        have : (2 * (n % d : ℕ) : ℚ) = d := by exact_mod_cast (by omega : 2 * (n % d) = d)
        rw [div_eq_iff hpos.ne']
        linarith
      rw [if_neg hhigh, hhalf]
      refine ⟨?_, fun _ => by omega⟩
      -- up or down, it is a half away
      rcases Nat.mod_two_eq_zero_or_one q with h | h <;> rw [h, abs_le] <;> push_cast <;>
        constructor <;> linarith

namespace Rounds

variable {x y : ℚ} {m n : ℕ}

theorem bounds (h : Rounds x m) : m - 1 / 2 ≤ x ∧ x ≤ m + 1 / 2 := by
  have := abs_le.mp h.near
  constructor <;> linarith

theorem natCast (m : ℕ) : Rounds m m := ⟨by norm_num, by norm_num⟩

/-- A larger number is not rounded to a smaller one. -/
theorem mono (hm : Rounds x m) (hn : Rounds y n) (hxy : x ≤ y) : m ≤ n := by
  by_contra hlt
  have hmn : (n : ℚ) + 1 ≤ m := by exact_mod_cast Nat.lt_of_not_le hlt
  have hx := hm.bounds.1
  have hy := hn.bounds.2
  -- then both numbers are the one in the middle, and both roundings would be even
  have hxm : x - m = -(1 / 2) := by linarith
  have hyn : y - n = 1 / 2 := by linarith
  have hsucc : m = n + 1 := by
    have : (m : ℚ) = n + 1 := by linarith
    exact_mod_cast this
  have hme := hm.even (by rw [hxm]; norm_num)
  have hne := hn.even (by rw [hyn]; norm_num)
  omega

theorem le_of_le (h : Rounds x m) (hn : x ≤ n) : m ≤ n := h.mono (natCast n) hn

theorem ge_of_ge (h : Rounds x m) (hn : n ≤ x) : n ≤ m := (natCast n).mono h hn

/-! ### Multiples of a step -/

variable {v g : ℚ}

/-- A whole number of steps other than `m` is a half step away or more. -/
theorem half_le (h : Rounds x m) {k : ℤ} (hk : k ≠ m) : 1 / 2 ≤ |x - k| := by
  have hb := h.bounds
  rcases lt_or_gt_of_ne hk with hlt | hgt
  · have : (k : ℚ) + 1 ≤ m := by exact_mod_cast hlt
    exact le_abs.mpr (.inl (by linarith))
  · have : (m : ℚ) + 1 ≤ k := by exact_mod_cast hgt
    exact le_abs.mpr (.inr (by linarith))

theorem abs_sub_step (hg : 0 < g) (k : ℚ) : |v - k * g| = |v / g - k| * g := by
  have hv : v - k * g = (v / g - k) * g := by field_simp
  rw [hv, abs_mul, abs_of_pos hg]

/-- The rounded multiple is nearest. -/
theorem nearest (hg : 0 < g) (h : Rounds (v / g) m) (k : ℤ) : |v - m * g| ≤ |v - k * g| := by
  rw [abs_sub_step hg, abs_sub_step hg]
  by_cases hk : k = m
  · simp [hk]
  · exact mul_le_mul_of_nonneg_right (h.near.trans (h.half_le hk)) hg.le

/-- If another multiple is as near, the rounded one is even. -/
theorem even_of_tie (hg : 0 < g) (h : Rounds (v / g) m) {k : ℤ} (hk : k ≠ m)
    (htie : |v - m * g| = |v - k * g|) : m % 2 = 0 := by
  rw [abs_sub_step hg, abs_sub_step hg] at htie
  have heq := mul_right_cancel₀ hg.ne' htie
  exact h.even (le_antisymm h.near (heq ▸ h.half_le hk))

/-- What is below a multiple that `v` has reached is farther away. -/
theorem nearer (hg : 0 < g) (h : Rounds (v / g) m) {b : ℤ} (hb : b * g ≤ v) {w : ℚ}
    (hw : w < b * g) : |v - m * g| < |v - w| :=
  calc |v - m * g| ≤ |v - b * g| := h.nearest hg b
    _ = v - b * g := abs_of_nonneg (by linarith)
    _ < v - w := by linarith
    _ ≤ |v - w| := le_abs_self _

end Rounds

end NumCheck
