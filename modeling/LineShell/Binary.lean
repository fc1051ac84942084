import LineShell.Binary.Format
import LineShell.Ratio

/-!
# Binary floating numbers

A magnitude is a significand and a shift in canonical form: only the significands with the full
number of digits are shifted, so different magnitudes have different values. `Magnitude.ofRatio?`
rounds a fraction to the nearest magnitude, a tie to the even significand; a fraction too great
for the format has none. Main statement: rounding the value of a magnitude gives the magnitude
back (`ofRatio?_toRatio`).
-/

namespace LineShell

/-- A finite magnitude of a format, `significand * 2 ^ shift` units. -/
structure Magnitude (F : Format) where
  /-- The significand. -/
  significand : Nat
  /-- The number of binary places it is shifted by. -/
  shift : Nat
  /-- Significands keep to the precision. -/
  significand_lt : significand < Nat.pow 2 F.precision
  /-- Shifts keep to the range. -/
  shift_le : shift ≤ F.maxShift
  /-- A shifted significand has all its digits. -/
  normal : 0 < shift → Nat.pow 2 (F.precision - 1) ≤ significand
deriving DecidableEq

/-- A number of a format, an infinity, or no number. -/
inductive Binary (F : Format) where
  | nan
  | infinite (negative : Bool)
  | finite (negative : Bool) (magnitude : Magnitude F)
deriving DecidableEq

namespace Magnitude

variable {F : Format}

/-- The magnitude of zero. -/
def zero : Magnitude F where
  significand := 0
  shift := 0
  significand_lt := two_power_pos _
  shift_le := Nat.zero_le _
  normal := fun h => absurd h (Nat.lt_irrefl 0)

/-- The value of a magnitude in units. -/
def units (m : Magnitude F) : Nat :=
  m.significand * Nat.pow 2 m.shift

/-- The value of a magnitude as a fraction. -/
def toRatio (m : Magnitude F) : Ratio where
  num := m.units
  den := Nat.pow 2 F.unitPlaces
  den_pos := two_power_pos _

/-- The whole number of units in a fraction. -/
def wholeUnits (F : Format) (r : Ratio) : Nat :=
  r.num * Nat.pow 2 F.unitPlaces / r.den

/-- The number of places by which a fraction has to be shifted down, from units, to leave a whole
part of at most the precision. -/
def shiftOf (F : Format) (r : Ratio) : Nat :=
  Nat.log2 (wholeUnits F r) + 1 - F.precision

/-- The fraction, counted in units and shifted down. -/
def shifted (F : Format) (r : Ratio) : Ratio where
  num := r.num * Nat.pow 2 F.unitPlaces
  den := r.den * Nat.pow 2 (shiftOf F r)
  den_pos := Nat.mul_pos r.den_pos (two_power_pos _)

theorem shifted_num_le (F : Format) (r : Ratio) :
    (shifted F r).num ≤ Nat.pow 2 F.precision * (shifted F r).den := by
  have hfloor := Nat.lt_mul_div_succ (r.num * Nat.pow 2 F.unitPlaces) r.den_pos
  have hlog : wholeUnits F r < Nat.pow 2 (Nat.log2 (wholeUnits F r) + 1) := Nat.lt_log2_self
  have hexp : Nat.log2 (wholeUnits F r) + 1 ≤ F.precision + shiftOf F r := by
    simp only [shiftOf]
    omega
  have hpow : Nat.pow 2 (Nat.log2 (wholeUnits F r) + 1)
      ≤ Nat.pow 2 F.precision * Nat.pow 2 (shiftOf F r) := by
    refine Nat.le_trans (Nat.pow_le_pow_right Nat.two_pos hexp) ?_
    exact Nat.le_of_eq (Nat.pow_add 2 _ _)
  simp only [shifted]
  calc r.num * Nat.pow 2 F.unitPlaces
      ≤ r.den * (wholeUnits F r + 1) := Nat.le_of_lt hfloor
    _ ≤ r.den * (Nat.pow 2 F.precision * Nat.pow 2 (shiftOf F r)) :=
        Nat.mul_le_mul_left _ (Nat.le_trans hlog hpow)
    _ = Nat.pow 2 F.precision * (r.den * Nat.pow 2 (shiftOf F r)) := Nat.mul_left_comm _ _ _

theorem le_shifted_num (F : Format) (r : Ratio) (h : 0 < shiftOf F r) :
    Nat.pow 2 (F.precision - 1) * (shifted F r).den ≤ (shifted F r).num := by
  have hprec := F.precision_pos
  have hne : wholeUnits F r ≠ 0 := by
    intro hzero
    simp only [shiftOf, hzero, Nat.log2_zero] at h
    omega
  have hexp : F.precision - 1 + shiftOf F r = Nat.log2 (wholeUnits F r) := by
    simp only [shiftOf] at h ⊢
    omega
  have hlog : Nat.pow 2 (F.precision - 1) * Nat.pow 2 (shiftOf F r) ≤ wholeUnits F r := by
    refine Nat.le_trans (Nat.le_of_eq (Nat.pow_add 2 _ _).symm) ?_
    rw [hexp]
    exact Nat.log2_self_le hne
  simp only [shifted]
  calc Nat.pow 2 (F.precision - 1) * (r.den * Nat.pow 2 (shiftOf F r))
      = Nat.pow 2 (F.precision - 1) * Nat.pow 2 (shiftOf F r) * r.den := by
        rw [Nat.mul_comm r.den, Nat.mul_assoc]
    _ ≤ wholeUnits F r * r.den := Nat.mul_le_mul_right _ hlog
    _ ≤ r.num * Nat.pow 2 F.unitPlaces := Nat.div_mul_le_self _ _

theorem two_power_pred_lt (F : Format) : Nat.pow 2 (F.precision - 1) < Nat.pow 2 F.precision :=
  Nat.pow_lt_pow_right (Nat.lt_succ_self 1) (Nat.sub_lt F.precision_pos Nat.one_pos)

/-- The nearest magnitude to a fraction, if the format reaches that far. A significand that rounds
up to one more digit is written with one more place of shift. -/
def ofRatio? (F : Format) (r : Ratio) : Option (Magnitude F) :=
  let s := (shifted F r).roundHalfEven
  let k := shiftOf F r
  if hs : s < Nat.pow 2 F.precision then
    if hk : k ≤ F.maxShift then
      some ⟨s, k, hs, hk, fun h => Ratio.le_roundHalfEven (le_shifted_num F r h)⟩
    else none
  else
    if hk : k + 1 ≤ F.maxShift then
      some ⟨Nat.pow 2 (F.precision - 1), k + 1, two_power_pred_lt F, hk, fun _ => Nat.le_refl _⟩
    else none

theorem wholeUnits_toRatio (m : Magnitude F) : wholeUnits F m.toRatio = m.units :=
  Nat.mul_div_cancel _ (two_power_pos _)

/-- The value of a magnitude is shifted down by the shift of the magnitude. -/
theorem shiftOf_toRatio (m : Magnitude F) : shiftOf F m.toRatio = m.shift := by
  simp only [shiftOf, wholeUnits_toRatio, units]
  have hlt := m.significand_lt
  have hprec := F.precision_pos
  rcases Nat.eq_zero_or_pos m.shift with hzero | hpos
  · have hunits : m.significand * Nat.pow 2 m.shift = m.significand := by
      rw [hzero]
      exact Nat.mul_one _
    rw [hunits, hzero]
    rcases Nat.eq_zero_or_pos m.significand with hs | hs
    · rw [hs, Nat.log2_zero]
      omega
    · have := (Nat.log2_lt (by omega)).mpr hlt
      omega
  · have hnormal := m.normal hpos
    have hne : m.significand * Nat.pow 2 m.shift ≠ 0 :=
      Nat.mul_ne_zero (Nat.ne_of_gt (Nat.lt_of_lt_of_le (two_power_pos _) hnormal))
        (Nat.ne_of_gt (two_power_pos _))
    have hlow : Nat.pow 2 (F.precision - 1 + m.shift) ≤ m.significand * Nat.pow 2 m.shift :=
      Nat.le_trans (Nat.le_of_eq (Nat.pow_add 2 _ _)) (Nat.mul_le_mul_right _ hnormal)
    have hhigh : m.significand * Nat.pow 2 m.shift < Nat.pow 2 (F.precision + m.shift) :=
      Nat.lt_of_lt_of_le (Nat.mul_lt_mul_of_pos_right hlt (two_power_pos _))
        (Nat.le_of_eq (Nat.pow_add 2 _ _).symm)
    have hlog : Nat.log2 (m.significand * Nat.pow 2 m.shift) = F.precision - 1 + m.shift := by
      refine (Nat.log2_eq_iff hne).mpr ⟨hlow, ?_⟩
      rwa [show F.precision - 1 + m.shift + 1 = F.precision + m.shift by omega]
    rw [hlog]
    omega

/-- Rounding the value of a magnitude gives the magnitude back. -/
theorem ofRatio?_toRatio (m : Magnitude F) : ofRatio? F m.toRatio = some m := by
  have hround : (shifted F m.toRatio).roundHalfEven = m.significand := by
    apply Ratio.roundHalfEven_of_eq
    simp only [shifted, shiftOf_toRatio]
    simp only [toRatio, units]
    rw [Nat.mul_assoc, Nat.mul_comm (Nat.pow 2 m.shift)]
  simp only [ofRatio?, hround, shiftOf_toRatio, m.significand_lt, m.shift_le, dif_pos]

end Magnitude

namespace Binary

variable {F G : Format}

/-- The number with a sign that is nearest to a fraction, infinite beyond the format's range. -/
def ofRatio (F : Format) (negative : Bool) (r : Ratio) : Binary F :=
  match Magnitude.ofRatio? F r with
  | some m => .finite negative m
  | none => .infinite negative

/-- The nearest number of another format. -/
def convert (G : Format) : Binary F → Binary G
  | .nan => .nan
  | .infinite negative => .infinite negative
  | .finite negative m => ofRatio G negative m.toRatio

/-- The exponent field and the fraction field of a magnitude, read as one number. -/
def codeOf (m : Magnitude F) : Nat :=
  m.shift * Nat.pow 2 (F.precision - 1) + m.significand

/-- The interchange encoding: sign, exponent and fraction fields, with one quiet encoding for all
that is no number. -/
def bits : Binary F → Nat
  | .nan => (F.maxShift + 2) * Nat.pow 2 (F.precision - 1) + Nat.pow 2 (F.precision - 2)
  | .infinite negative => sign negative + (F.maxShift + 2) * Nat.pow 2 (F.precision - 1)
  | .finite negative m => sign negative + codeOf m
where
  /-- The weight of the sign bit. -/
  sign (negative : Bool) : Nat :=
    if negative then (F.maxShift + 3) * Nat.pow 2 (F.precision - 1) else 0

/-- Converting a number to its own format changes nothing. -/
theorem convert_self (x : Binary F) : x.convert F = x := by
  cases x with
  | nan => rfl
  | infinite negative => rfl
  | finite negative m => simp [convert, ofRatio, Magnitude.ofRatio?_toRatio]

example : (Binary.ofRatio Format.double false ⟨1, 10, Nat.succ_pos 9⟩).bits
    = 0x3FB999999999999A := by
  decide +kernel
example : (Binary.ofRatio Format.single true ⟨1, 10, Nat.succ_pos 9⟩).bits = 0xBDCCCCCD := by
  decide +kernel
example : (Binary.infinite true : Binary Format.single).bits = 0xFF800000 := by decide +kernel
example : (Binary.nan : Binary Format.double).bits = 0x7FF8000000000000 := by decide +kernel

end Binary

end LineShell
