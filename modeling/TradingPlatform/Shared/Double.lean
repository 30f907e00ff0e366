-- `float` of a decimal: the nearest double, with ties to even. The floats of the engines are
-- exact; here the rounding counts, since an amount is compared before and after it.
import TradingPlatform.Shared.Float
import Mathlib.Data.Int.Log
import Mathlib.Tactic.Positivity

namespace trading_platform.shared

/-- The exponent of the last place of a double near a number. -/
def last_place (q : ℚ) : Int := max (Int.log 2 |q| - 52) (-1074)

/-- The nearest double, if the exponents had no bound above. -/
def nearest (q : ℚ) : ℚ :=
  Decimal.round_half_even (q / 2 ^ last_place q) * 2 ^ last_place q

/-- `float` of a decimal. What is too large is an infinity. -/
def PyFloat.of_decimal (q : ℚ) : PyFloat :=
  if largest < nearest q then inf false
  else if nearest q < -largest then inf true
  else fin (nearest q)

/-! ## Signs -/

namespace Decimal

theorem round_half_even_nonneg {x : ℚ} (h : 0 ≤ x) : 0 ≤ round_half_even x := by
  have hnear := abs_le.mp (round_half_even_near x)
  by_contra hneg
  have hle : round_half_even x ≤ -1 := by omega
  have hcast : (round_half_even x : ℚ) ≤ -1 := by exact_mod_cast hle
  linarith [hnear.1]

theorem round_half_even_nonpos {x : ℚ} (h : x ≤ 0) : round_half_even x ≤ 0 := by
  have hnear := abs_le.mp (round_half_even_near x)
  by_contra hpos
  have hle : 1 ≤ round_half_even x := by omega
  have hcast : (1 : ℚ) ≤ round_half_even x := by exact_mod_cast hle
  linarith [hnear.2]

theorem round_half_even_ne_zero {x : ℚ} (h : 1 ≤ |x|) : round_half_even x ≠ 0 := by
  intro hzero
  have hnear := round_half_even_near x
  rw [hzero, Int.cast_zero, zero_sub, abs_neg] at hnear
  linarith

end Decimal

theorem ulp_pos (q : ℚ) : (0 : ℚ) < 2 ^ last_place q := zpow_pos (by norm_num) _

theorem nearest_nonneg {q : ℚ} (h : 0 ≤ q) : 0 ≤ nearest q := by
  have hround := Decimal.round_half_even_nonneg (div_nonneg h (ulp_pos q).le)
  have hcast : (0 : ℚ) ≤ Decimal.round_half_even (q / 2 ^ last_place q) := by exact_mod_cast hround
  exact mul_nonneg hcast (ulp_pos q).le

theorem nearest_nonpos {q : ℚ} (h : q ≤ 0) : nearest q ≤ 0 := by
  have hround := Decimal.round_half_even_nonpos (div_nonpos_of_nonpos_of_nonneg h (ulp_pos q).le)
  have hcast : (Decimal.round_half_even (q / 2 ^ last_place q) : ℚ) ≤ 0 := by exact_mod_cast hround
  exact mul_nonpos_of_nonpos_of_nonneg hcast (ulp_pos q).le

/-- The number is zero, or not below the least double. -/
def NotTiny (q : ℚ) : Prop := q = 0 ∨ 2 ^ (-1074 : Int) ≤ |q|

/-- A number that is not tiny does not become zero. -/
theorem nearest_eq_zero_iff {q : ℚ} (h : NotTiny q) : nearest q = 0 ↔ q = 0 := by
  constructor
  · intro hzero
    rcases h with hq | hlarge
    · exact hq
    · exfalso
      have hq : 0 < |q| := lt_of_lt_of_le (zpow_pos (by norm_num) _) hlarge
      have hle : (2 : ℚ) ^ last_place q ≤ |q| := by
        unfold last_place
        rcases le_total (Int.log 2 |q| - 52) (-1074) with hsmall | hnormal
        · rw [max_eq_right hsmall]
          exact hlarge
        · rw [max_eq_left hnormal]
          calc (2 : ℚ) ^ (Int.log 2 |q| - 52) ≤ 2 ^ Int.log 2 |q| :=
                zpow_le_zpow_right₀ (by norm_num) (by omega)
            _ ≤ |q| := by exact_mod_cast Int.zpow_log_le_self (by norm_num) hq
      have hone : 1 ≤ |q / 2 ^ last_place q| := by
        rw [abs_div, abs_of_pos (ulp_pos q), le_div_iff₀ (ulp_pos q), one_mul]
        exact hle
      have hround := Decimal.round_half_even_ne_zero hone
      exact mul_ne_zero (by exact_mod_cast hround) (ne_of_gt (ulp_pos q)) hzero
  · rintro rfl
    exact le_antisymm (nearest_nonpos le_rfl) (nearest_nonneg le_rfl)

theorem nearest_nonneg_iff {q : ℚ} (h : NotTiny q) : 0 ≤ nearest q ↔ 0 ≤ q := by
  constructor
  · intro hnear
    by_contra hneg
    have hzero := le_antisymm (nearest_nonpos (not_le.mp hneg).le) hnear
    rw [(nearest_eq_zero_iff h).mp hzero] at hneg
    exact hneg le_rfl
  · exact nearest_nonneg

namespace PyFloat

/-- What is above a positive float is positive. -/
theorem pos_of_pos_of_lt {x y : PyFloat} (hx : (fin 0).lt x = true) (h : x.lt y = true) :
    (fin 0).lt y = true := by
  cases x with
  | nan => cases hx
  | inf s =>
    cases s with
    | true => cases hx
    | false =>
      -- nothing is above infinity
      cases y with
      | nan => cases h
      | fin b => cases h
      | inf t => cases h
  | fin a =>
    cases y with
    | nan => cases h
    | inf t => exact h
    | fin b => exact decide_eq_true ((of_decide_eq_true hx).trans (of_decide_eq_true h))

theorem largest_pos : 0 < largest := by
  unfold largest
  norm_num

/-- A double is positive when the nearest one is. -/
theorem lt_of_decimal_iff {q : ℚ} : (fin 0).lt (of_decimal q) = true ↔ 0 < nearest q := by
  have hlargest := largest_pos
  unfold of_decimal
  by_cases hover : largest < nearest q
  · rw [if_pos hover]
    exact iff_of_true rfl (hlargest.trans hover)
  · rw [if_neg hover]
    by_cases hunder : nearest q < -largest
    · rw [if_pos hunder]
      exact iff_of_false (by decide) (by linarith)
    · rw [if_neg hunder, lt_fin, decide_eq_true_iff]

/-- Only what is positive becomes positive. -/
theorem pos_of_lt_of_decimal {q : ℚ} (h : (fin 0).lt (of_decimal q) = true) : 0 < q := by
  by_contra hneg
  exact absurd (lt_of_decimal_iff.mp h) (not_lt.mpr (nearest_nonpos (not_lt.mp hneg)))

theorem of_decimal_eq_zero_iff {q : ℚ} (h : NotTiny q) : of_decimal q = fin 0 ↔ q = 0 := by
  have hlargest := largest_pos
  rw [← nearest_eq_zero_iff h]
  unfold of_decimal
  by_cases hover : largest < nearest q
  · rw [if_pos hover]
    exact iff_of_false (by decide) (by linarith)
  · rw [if_neg hover]
    by_cases hunder : nearest q < -largest
    · rw [if_pos hunder]
      exact iff_of_false (by decide) (by linarith)
    · rw [if_neg hunder, fin.injEq]

/-- A number that is not tiny is negative before and after. -/
theorem zero_le_of_decimal_iff {q : ℚ} (h : NotTiny q) :
    (fin 0).le (of_decimal q) = true ↔ 0 ≤ q := by
  have hnonneg := nearest_nonneg_iff h
  have hzero := of_decimal_eq_zero_iff h
  have hnearest := nearest_eq_zero_iff h
  unfold le
  rw [Bool.or_eq_true, lt_of_decimal_iff, Bool.and_eq_true, decide_eq_true_iff, decide_eq_true_iff,
    eq_comm, hzero, ← hnonneg, le_iff_lt_or_eq, eq_comm (a := (0 : ℚ)), hnearest]
  simp

end PyFloat

end trading_platform.shared
