import Mathlib.Data.Int.Log
import Mathlib.Data.Rat.Floor
import Mathlib.Tactic.Linarith
import Mathlib.Tactic.NormNum
import Mathlib.Tactic.Positivity

namespace collections

/-- The nearest integer, and the even one of two that are equally near. -/
def round_half_even (x : ℚ) : ℤ :=
  let fraction := x - ⌊x⌋
  if fraction < 1 / 2 ∨ (fraction = 1 / 2 ∧ ⌊x⌋ % 2 = 0) then ⌊x⌋ else ⌊x⌋ + 1

/-- The value of a number printed with a given number of significant digits, as
    `%.<digits>g` prints it. -/
def g_format (digits : Nat) (x : ℚ) : ℚ :=
  let last := (10 : ℚ) ^ (Int.log 10 |x| + 1 - digits)
  round_half_even (x / last) * last

@[simp] theorem round_half_even_intCast (n : ℤ) : round_half_even n = n := by
  simp [round_half_even]

theorem round_half_even_nonpos {x : ℚ} (hneg : x < 0) : round_half_even x ≤ 0 := by
  have hfloor : ⌊x⌋ < 0 := by
    rw [Int.floor_lt]
    exact_mod_cast hneg
  unfold round_half_even
  simp only
  split_ifs <;> omega

/-- Numbers whose digits fit are printed as they are. -/
theorem g_format_of_whole {digits : Nat} {x : ℚ} {n : ℤ}
    (hwhole : x / (10 : ℚ) ^ (Int.log 10 |x| + 1 - digits) = n) : g_format digits x = x := by
  unfold g_format
  simp only
  rw [hwhole, round_half_even_intCast, ← hwhole]
  exact div_mul_cancel₀ x (zpow_pos (by norm_num) _).ne'

theorem g_format_nonpos {digits : Nat} {x : ℚ} (hneg : x < 0) : g_format digits x ≤ 0 := by
  have hlast : (0 : ℚ) < 10 ^ (Int.log 10 |x| + 1 - digits) := zpow_pos (by norm_num) _
  have hround : (round_half_even (x / (10 : ℚ) ^ (Int.log 10 |x| + 1 - digits)) : ℚ) ≤ 0 := by
    exact_mod_cast round_half_even_nonpos (div_neg_of_neg_of_pos hneg hlast)
  exact mul_nonpos_of_nonpos_of_nonneg hround hlast.le

/-- A number below `10 ^ whole` with `places` decimals is printed exactly when
    the digits suffice for both. -/
theorem g_format_of_decimal {digits : Nat} (whole places : Nat) (hdigits : whole + places ≤ digits) {x : ℚ} {n : ℤ}
    (hdecimal : x * 10 ^ places = n) (hpos : 0 ≤ x) (hlt : x < 10 ^ whole) : g_format digits x = x := by
  rcases hpos.eq_or_lt with rfl | hpos
  · simp [g_format, round_half_even]
  · have hlog : Int.log 10 |x| < whole := by
      rw [abs_of_pos hpos, ← Int.lt_zpow_iff_log_lt (by decide) hpos]
      exact_mod_cast hlt
    obtain ⟨spare, hspare⟩ : ∃ spare : Nat, Int.log 10 |x| + 1 - digits = -(places + spare : ℤ) :=
      ⟨((digits : ℤ) - 1 - Int.log 10 |x| - places).toNat, by omega⟩
    apply g_format_of_whole (n := n * 10 ^ spare)
    rw [hspare, zpow_neg, div_inv_eq_mul, zpow_add₀ (by norm_num)]
    push_cast
    rw [← mul_assoc, zpow_natCast, hdecimal, zpow_natCast]

end collections
