import LineShell.Binary
import LineShell.Text.Digit

/-!
# Decimal numbers

A decimal number is a natural number times a power of ten. `Binary.ofDecimal` rounds it to a
binary format in one step. Numbers far outside the format's range are recognised by their size, so
that no huge power of ten is computed for them.
-/

namespace LineShell

/-- The number `coefficient * 10 ^ power`. -/
structure Decimal where
  /-- The coefficient. -/
  coefficient : Nat
  /-- The power of ten. -/
  power : Int
deriving DecidableEq

namespace Decimal

/-- The value as a fraction. -/
def toRatio (d : Decimal) : Ratio :=
  match d.power with
  | .ofNat k => ⟨d.coefficient * Nat.pow 10 k, 1, Nat.one_pos⟩
  | .negSucc k => ⟨d.coefficient, Nat.pow 10 (k + 1), ten_power_pos _⟩

/-- The number of decimal digits of a natural number; zero has none. -/
def width (n : Nat) : Nat :=
  if n = 0 then 0 else width (n / 10) + 1
termination_by n
decreasing_by omega

/-- The place of the decimal point behind the first digit: a number with digits `d₁d₂…` and point
`p` is `0.d₁d₂… * 10 ^ p`. -/
def point (d : Decimal) : Int :=
  width d.coefficient + d.power

/-- The digits without zeros at the end. -/
def digits (d : Decimal) : Text :=
  ((Text.ofNat d.coefficient).reverse.dropWhile (· = ('0' : CodePoint))).reverse

theorem width_zero : width 0 = 0 := by
  rw [width]
  simp

theorem width_of_pos {n : Nat} (h : 0 < n) : width n = width (n / 10) + 1 := by
  rw [width]
  simp [Nat.pos_iff_ne_zero.mp h]

/-- The width bounds a number from above. -/
theorem lt_power_width (n : Nat) : n < Nat.pow 10 (width n) := by
  fun_induction width n with
  | case1 => exact Nat.one_pos
  | case2 n h ih =>
    have hsucc : Nat.pow 10 (width (n / 10) + 1) = Nat.pow 10 (width (n / 10)) * 10 := rfl
    omega

/-- The width bounds a positive number from below. -/
theorem power_width_le {n : Nat} (h : 0 < n) : Nat.pow 10 (width n - 1) ≤ n := by
  fun_induction width n with
  | case1 => omega
  | case2 n hn ih =>
    rcases Nat.eq_zero_or_pos (n / 10) with hq | hq
    · rw [hq, width_zero]
      exact h
    · have hw := width_of_pos hq
      have hle := ih hq
      have hsucc : Nat.pow 10 (width (n / 10) - 1 + 1) = Nat.pow 10 (width (n / 10) - 1) * 10 :=
        rfl
      rw [show width (n / 10) + 1 - 1 = width (n / 10) - 1 + 1 by omega]
      omega

end Decimal

namespace Binary

/-- Whether a decimal with this power of ten and a positive coefficient is beyond the greatest
number of the format. -/
def isHuge (F : Format) (k : Nat) : Bool :=
  F.precision + F.maxShift ≤ 3 * k

/-- Whether a decimal with coefficient `c`, divided by the power `k` of ten, is below half a
unit of the format. -/
def isTiny (F : Format) (c k : Nat) : Bool :=
  Nat.log2 c + 2 + F.unitPlaces ≤ 3 * k

/-- The number with a sign that is nearest to a decimal number. A zero keeps the sign. -/
def ofDecimal (F : Format) (negative : Bool) (d : Decimal) : Binary F :=
  if d.coefficient = 0 then .finite negative .zero
  else
    match d.power with
    | .ofNat k => if isHuge F k then .infinite negative else ofRatio F negative d.toRatio
    | .negSucc k =>
      if isTiny F d.coefficient (k + 1) then .finite negative .zero
      else ofRatio F negative d.toRatio

example : (ofDecimal Format.double false ⟨17976931348623157, 292⟩).bits = 0x7FEFFFFFFFFFFFFF := by
  decide +kernel
example : (ofDecimal Format.double false ⟨17976931348623159, 292⟩).bits = 0x7FF0000000000000 := by
  decide +kernel
example : (ofDecimal Format.double true ⟨25, -325⟩).bits = 0x8000000000000001 := by
  decide +kernel
example : (ofDecimal Format.double false ⟨24, -325⟩).bits = 0 := by decide +kernel

end Binary

end LineShell
