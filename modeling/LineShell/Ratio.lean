/-!
# Non-negative fractions

Fractions of natural numbers, compared and rounded exactly. A half is rounded to the even
neighbour. Main statements: `roundHalfEven` keeps bounds that are whole numbers
(`le_roundHalfEven`, `roundHalfEven_le`).
-/

namespace LineShell

/-- Powers of a positive base are positive. -/
theorem power_pos {b : Nat} (n : Nat) (h : 0 < b) : 0 < Nat.pow b n :=
  Nat.pow_pos h

theorem two_power_pos (n : Nat) : 0 < Nat.pow 2 n :=
  power_pos n Nat.two_pos

theorem ten_power_pos (n : Nat) : 0 < Nat.pow 10 n :=
  power_pos n (Nat.succ_pos 9)

/-- A fraction with a positive denominator, not necessarily in lowest terms. -/
structure Ratio where
  /-- The numerator. -/
  num : Nat
  /-- The denominator. -/
  den : Nat
  /-- The denominator is not zero. -/
  den_pos : 0 < den

namespace Ratio

/-- Whether one fraction is at most another. -/
def le (a b : Ratio) : Bool :=
  a.num * b.den ≤ b.num * a.den

/-- Whether one fraction is less than another. -/
def lt (a b : Ratio) : Bool :=
  a.num * b.den < b.num * a.den

/-- The whole part. -/
def floor (r : Ratio) : Nat :=
  r.num / r.den

/-- The nearest natural number, and of two nearest ones the even one. -/
def roundHalfEven (r : Ratio) : Nat :=
  let whole := r.num / r.den
  let rest := r.num % r.den
  if 2 * rest < r.den then whole
  else if r.den < 2 * rest then whole + 1
  else whole + whole % 2

/-- The fraction divided by the power `k` of ten. -/
def scaleDown (r : Ratio) : Int → Ratio
  | .ofNat k => ⟨r.num, r.den * Nat.pow 10 k, Nat.mul_pos r.den_pos (ten_power_pos k)⟩
  | .negSucc k => ⟨r.num * Nat.pow 10 (k + 1), r.den, r.den_pos⟩

theorem floor_le_roundHalfEven (r : Ratio) : r.floor ≤ r.roundHalfEven := by
  simp only [floor, roundHalfEven]
  split
  · omega
  · split <;> omega

theorem roundHalfEven_le_floor_succ (r : Ratio) : r.roundHalfEven ≤ r.floor + 1 := by
  simp only [floor, roundHalfEven]
  split
  · omega
  · split <;> omega

/-- A fraction that is at least a whole number does not round below it. -/
theorem le_roundHalfEven {r : Ratio} {n : Nat} (h : n * r.den ≤ r.num) :
    n ≤ r.roundHalfEven :=
  Nat.le_trans ((Nat.le_div_iff_mul_le r.den_pos).mpr h) r.floor_le_roundHalfEven

/-- A fraction that is at most a whole number does not round above it. -/
theorem roundHalfEven_le {r : Ratio} {n : Nat} (h : r.num ≤ n * r.den) :
    r.roundHalfEven ≤ n := by
  have hdiv : r.num / r.den ≤ n := by
    have := Nat.div_le_div_right (c := r.den) h
    rwa [Nat.mul_div_cancel n r.den_pos] at this
  rcases Nat.lt_or_eq_of_le hdiv with hlt | heq
  · exact Nat.le_trans r.roundHalfEven_le_floor_succ hlt
  · have hmod : r.num % r.den = 0 := by
      have hsplit := Nat.div_add_mod r.num r.den
      rw [heq, Nat.mul_comm] at hsplit
      omega
    have hpos := r.den_pos
    simp only [roundHalfEven, hmod]
    rw [if_pos (by omega)]
    omega

/-- A whole number is its own rounding. -/
theorem roundHalfEven_of_eq {r : Ratio} {n : Nat} (h : r.num = n * r.den) :
    r.roundHalfEven = n :=
  Nat.le_antisymm (roundHalfEven_le (by omega)) (le_roundHalfEven (by omega))

end Ratio

end LineShell
