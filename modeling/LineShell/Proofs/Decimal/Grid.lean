import LineShell.Proofs.Binary.Nearest
import Mathlib.Algebra.Order.Field.Power

/-!
# Decimals around a fraction

A grid of `n` significant digits at a fraction holds the multiples of a power of ten. A number that
can be written with `n` digits (`HasDigits`) lies on the grid, or is less than the power of ten in
front of the fraction. So no such number lies between the two neighbours of the fraction on the grid
(`le_gridBelow_or_gridAbove_le`), and its nearest point on the grid is the nearest number with `n`
digits (`abs_gridNearest_sub_le`).
-/

namespace LineShell

/-- The number can be written with `n` significant digits. -/
def HasDigits (n : ℕ) (q : ℚ) : Prop :=
  ∃ (c : ℕ) (e : ℤ), c < 10 ^ n ∧ q = c * 10 ^ e

/-- More digits can be used than are needed. -/
lemma HasDigits.mono {n k : ℕ} {q : ℚ} (h : HasDigits n q) (hle : n ≤ k) : HasDigits k q := by
  obtain ⟨c, e, hc, hq⟩ := h
  exact ⟨c, e, hc.trans_le (Nat.pow_le_pow_right (by norm_num) hle), hq⟩

namespace Ratio

variable {r : Ratio} {n : ℕ} {q : ℚ}

lemma toRat_scaleDown (r : Ratio) (k : ℤ) : (r.scaleDown k).toRat = r.toRat / 10 ^ k := by
  cases k with
  | ofNat k =>
      simp only [scaleDown, toRat, Nat.pow_eq, Int.ofNat_eq_natCast, zpow_natCast]
      push_cast
      rw [div_div]
  | negSucc k =>
      simp only [scaleDown, toRat, Nat.pow_eq, zpow_negSucc]
      push_cast
      rw [div_inv_eq_mul, div_mul_eq_mul_div]

/-! ## The place of the point -/

/-- A fraction of at least one lies between the powers of ten of its width. -/
lemma zpow_point_of_den_le (h : r.den ≤ r.num) :
    (10 : ℚ) ^ (r.point - 1) ≤ r.toRat ∧ r.toRat < 10 ^ r.point := by
  have hwhole : 0 < r.floor := Nat.div_pos h r.den_pos
  have hwidth := Decimal.width_of_pos hwhole
  have hpoint : r.point = Decimal.width r.floor := if_pos h
  rw [hpoint]
  constructor
  · have hle : ((10 ^ (Decimal.width r.floor - 1) : ℕ) : ℚ) ≤ r.toRat :=
      natCast_le_toRat_iff.mpr (Decimal.power_width_le hwhole)
    rw [show ((Decimal.width r.floor : ℕ) : ℤ) - 1 = (Decimal.width r.floor - 1 : ℕ) by omega,
      zpow_natCast]
    exact_mod_cast hle
  · have hlt : r.floor + 1 ≤ 10 ^ Decimal.width r.floor := Decimal.lt_power_width r.floor
    rw [zpow_natCast]
    exact r.toRat_lt_floor_add_one.trans_le (by exact_mod_cast hlt)

/-- A fraction of less than one lies between the powers of ten of the width of its inverse. -/
lemma zpow_point_of_num_lt (hpos : 0 < r.num) (h : r.num < r.den) :
    (10 : ℚ) ^ (r.point - 1) ≤ r.toRat ∧ r.toRat < 10 ^ r.point := by
  have hden : (0 : ℚ) < r.den := Nat.cast_pos.mpr r.den_pos
  set inverse := (r.den - 1) / r.num with hinverse
  have hwhole : 0 < inverse := Nat.div_pos (by omega) hpos
  have hpoint : r.point = 1 - Decimal.width inverse := if_neg (Nat.not_le.mpr h)
  have hwidth := Decimal.width_of_pos hwhole
  constructor
  · have hlt : inverse + 1 ≤ 10 ^ Decimal.width inverse := Decimal.lt_power_width inverse
    have hsplit : r.den - 1 < (inverse + 1) * r.num := by
      rw [Nat.mul_comm]
      exact Nat.lt_mul_div_succ _ hpos
    have hle : r.den ≤ 10 ^ Decimal.width inverse * r.num :=
      (show r.den ≤ (inverse + 1) * r.num by omega).trans (Nat.mul_le_mul_right _ hlt)
    rw [hpoint, show (1 : ℤ) - Decimal.width inverse - 1 = -(Decimal.width inverse : ℕ) by omega,
      zpow_neg, zpow_natCast, inv_eq_one_div, toRat, div_le_div_iff₀ (by positivity) hden, one_mul,
      mul_comm]
    exact_mod_cast hle
  · have hle : 10 ^ (Decimal.width inverse - 1) * r.num < r.den := by
      have hmul : inverse * r.num ≤ r.den - 1 := Nat.div_mul_le_self _ _
      have hpower := Nat.mul_le_mul_right r.num (Decimal.power_width_le hwhole)
      rw [Nat.pow_eq] at hpower
      omega
    rw [hpoint, show (1 : ℤ) - Decimal.width inverse = -(Decimal.width inverse - 1 : ℕ) by omega,
      zpow_neg, zpow_natCast, inv_eq_one_div, toRat, div_lt_div_iff₀ hden (by positivity), one_mul,
      mul_comm]
    exact_mod_cast hle

/-- The point of a fraction stands in front of its first digit. -/
lemma zpow_point_bounds (h : 0 < r.num) :
    (10 : ℚ) ^ (r.point - 1) ≤ r.toRat ∧ r.toRat < 10 ^ r.point := by
  rcases Nat.lt_or_ge r.num r.den with hlt | hge
  · exact zpow_point_of_num_lt h hlt
  · exact zpow_point_of_den_le hge

/-! ## Neighbours on a grid -/

/-- The number of grid steps in the first digit of a fraction, and ten times as many. -/
lemma scaleDown_gridPower_bounds (h : 0 < r.num) (hn : 0 < n) :
    (10 : ℚ) ^ (n - 1) ≤ (r.scaleDown (r.gridPower n)).toRat ∧
      (r.scaleDown (r.gridPower n)).toRat < 10 ^ n := by
  obtain ⟨hlow, hhigh⟩ := zpow_point_bounds h
  have hten : (10 : ℚ) ≠ 0 := by norm_num
  unfold gridPower
  rw [toRat_scaleDown, le_div_iff₀ (by positivity), div_lt_iff₀ (by positivity), ← zpow_natCast,
    ← zpow_natCast, ← zpow_add₀ hten, ← zpow_add₀ hten]
  constructor
  · rwa [show ((n - 1 : ℕ) : ℤ) + (r.point - n) = r.point - 1 by omega]
  · rwa [show (n : ℤ) + (r.point - n) = r.point by omega]

lemma toRat_gridBelow_le (r : Ratio) (n : ℕ) : (r.gridBelow n).toRat ≤ r.toRat := by
  have hle := floor_le_toRat (r.scaleDown (r.gridPower n))
  rwa [toRat_scaleDown, le_div_iff₀ (by positivity)] at hle

lemma lt_toRat_gridAbove (r : Ratio) (n : ℕ) : r.toRat < (r.gridAbove n).toRat := by
  have hlt := toRat_lt_floor_add_one (r.scaleDown (r.gridPower n))
  rw [toRat_scaleDown, div_lt_iff₀ (by positivity)] at hlt
  exact_mod_cast hlt

/-- What can be written with `n` digits is not between the neighbours on the grid. -/
lemma le_gridBelow_or_gridAbove_le (h : 0 < r.num) (hn : 0 < n) (hq : HasDigits n q) :
    q ≤ (r.gridBelow n).toRat ∨ (r.gridAbove n).toRat ≤ q := by
  obtain ⟨c, e, hc, rfl⟩ := hq
  have hten : (10 : ℚ) ≠ 0 := by norm_num
  set whole := (r.scaleDown (r.gridPower n)).floor with hwhole
  have hscale : (0 : ℚ) < 10 ^ r.gridPower n := by positivity
  have hbelow : (r.gridBelow n).toRat = whole * 10 ^ r.gridPower n := rfl
  have habove : (r.gridAbove n).toRat = (whole + 1 : ℕ) * 10 ^ r.gridPower n := rfl
  rw [hbelow, habove]
  rcases le_or_gt (r.gridPower n) e with hle | hlt
  · -- The number lies on the grid.
    obtain ⟨k, hk⟩ := Int.le.dest hle
    have hsteps : (c : ℚ) * 10 ^ e = (c * 10 ^ k : ℕ) * 10 ^ r.gridPower n := by
      rw [← hk, zpow_add₀ hten, zpow_natCast]
      push_cast
      ring
    rw [hsteps, mul_le_mul_iff_of_pos_right hscale, mul_le_mul_iff_of_pos_right hscale,
      Nat.cast_le, Nat.cast_le]
    omega
  · -- The number is less than the power of ten where the fraction starts.
    left
    obtain ⟨hlow, -⟩ := scaleDown_gridPower_bounds h hn
    have hfloor : 10 ^ (n - 1) ≤ whole := natCast_le_toRat_iff.mp (by exact_mod_cast hlow)
    have hpower : e ≤ r.gridPower n - 1 := by omega
    calc (c : ℚ) * 10 ^ e ≤ 10 ^ n * 10 ^ e :=
          mul_le_mul_of_nonneg_right (by exact_mod_cast hc.le) (by positivity)
      _ ≤ 10 ^ n * 10 ^ (r.gridPower n - 1) :=
          mul_le_mul_of_nonneg_left (zpow_le_zpow_right₀ (by norm_num) hpower) (by positivity)
      _ = 10 ^ (n - 1) * 10 ^ r.gridPower n := by
          rw [← zpow_natCast, ← zpow_natCast, ← zpow_add₀ hten, ← zpow_add₀ hten,
            show (n : ℤ) + (r.gridPower n - 1) = (n - 1 : ℕ) + r.gridPower n by omega]
      _ ≤ whole * 10 ^ r.gridPower n :=
          mul_le_mul_of_nonneg_right (by exact_mod_cast hfloor) hscale.le

/-! ## The nearest point of a grid -/

lemma abs_toRat_sub (d : Decimal) (r : Ratio) :
    |d.toRat - r.toRat| = |(r.scaleDown d.power).toRat - d.coefficient| * 10 ^ d.power := by
  have hscale : (0 : ℚ) < 10 ^ d.power := by positivity
  rw [toRat_scaleDown, Decimal.toRat, abs_sub_comm, ← abs_of_pos hscale, ← abs_mul, sub_mul,
    abs_of_pos hscale, div_mul_cancel₀ _ hscale.ne']

/-- The nearest point is at most half a step away. -/
lemma abs_gridNearest_sub_le_half (r : Ratio) (n : ℕ) :
    |(r.gridNearest n).toRat - r.toRat| ≤ 1 / 2 * 10 ^ r.gridPower n := by
  rw [abs_toRat_sub]
  exact mul_le_mul_of_nonneg_right (isNearest_roundHalfEven _).abs_sub_le_half (by positivity)

/-- No point of the grid is nearer than the nearest one. -/
lemma abs_gridNearest_sub_le_of_grid (r : Ratio) (n c : ℕ) :
    |(r.gridNearest n).toRat - r.toRat|
      ≤ |(Decimal.mk c (r.gridPower n)).toRat - r.toRat| := by
  rw [abs_toRat_sub, abs_toRat_sub]
  exact mul_le_mul_of_nonneg_right ((isNearest_roundHalfEven _).abs_sub_le_abs_sub c)
    (by positivity)

/-- Nothing that can be written with `n` digits is nearer than the nearest point of the grid. -/
lemma abs_gridNearest_sub_le (h : 0 < r.num) (hn : 0 < n) (hq : HasDigits n q) :
    |(r.gridNearest n).toRat - r.toRat| ≤ |q - r.toRat| := by
  have hnearest := r.abs_gridNearest_sub_le_of_grid n
  have hbelow := r.toRat_gridBelow_le n
  have habove := r.lt_toRat_gridAbove n
  rcases le_gridBelow_or_gridAbove_le h hn hq with hle | hle
  · apply (hnearest _).trans (b := |(r.gridBelow n).toRat - r.toRat|)
    rw [abs_of_nonpos (by linarith), abs_of_nonpos (by linarith)]
    linarith
  · apply (hnearest _).trans (b := |(r.gridAbove n).toRat - r.toRat|)
    rw [abs_of_pos (by linarith), abs_of_pos (by linarith)]
    linarith

/-- The nearest point of a grid has as many digits as the grid says. -/
lemma hasDigits_gridNearest (h : 0 < r.num) (hn : 0 < n) :
    HasDigits n (r.gridNearest n).toRat := by
  obtain ⟨-, hhigh⟩ := scaleDown_gridPower_bounds h hn
  have hle : (r.scaleDown (r.gridPower n)).roundHalfEven ≤ 10 ^ n :=
    (isNearest_roundHalfEven _).le_of_le (by exact_mod_cast hhigh.le)
  rcases hle.lt_or_eq with hlt | heq
  · exact ⟨_, _, hlt, rfl⟩
  · -- Rounding up to the next power of ten leaves a single digit.
    refine ⟨1, n + r.gridPower n, Nat.one_lt_pow hn.ne' (by norm_num), ?_⟩
    rw [zpow_add₀ (by norm_num), zpow_natCast, Nat.cast_one, one_mul, Decimal.toRat, gridNearest,
      heq]
    push_cast
    rfl

end Ratio

end LineShell
