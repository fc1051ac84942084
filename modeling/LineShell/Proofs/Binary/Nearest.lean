import LineShell.Proofs.Binary.Rounding
import Mathlib.Algebra.Order.Field.Basic
import Mathlib.Algebra.Order.Ring.Rat
import Mathlib.Data.Nat.Log
import Mathlib.Tactic.Linarith

/-!
# Rounding as a function of the value

Rounding to a format cuts the number line into stretches of equal steps and goes to the nearest step
in each of them. `Magnitude.rounded` is the result in units of the format, without regard to the
format's range, so that it is one function on all fractions.

* **Steps** (`rounded_eq`): on the stretch of a shift, rounding is rounding to the nearest natural
  number of steps (`IsNearest`), both ends of the stretch included.
* **Order** (`rounded_mono`): rounding keeps the order of the values, across stretches too.
* **Range** (`ofRatio?_eq_some_iff`): a fraction is rounded to a magnitude exactly if the two have
  the same number of units.
-/

namespace LineShell

/-! ## The nearest natural number -/

/-- The natural number is nearest to the rational number, and of two equally near ones the even
one. -/
def IsNearest (q : ℚ) (n : ℕ) : Prop :=
  |q - n| < 1 / 2 ∨ |q - n| = 1 / 2 ∧ Even n

namespace IsNearest

variable {q q' : ℚ} {n n' : ℕ}

lemma abs_sub_le_half (h : IsNearest q n) : |q - n| ≤ 1 / 2 := by
  rcases h with h | ⟨h, -⟩
  · exact h.le
  · exact h.le

lemma even_of_abs_sub_eq (h : IsNearest q n) (hq : |q - n| = 1 / 2) : Even n := by
  rcases h with h | ⟨-, h⟩
  · exact absurd hq h.ne
  · exact h

lemma natCast (n : ℕ) : IsNearest n n := by
  left
  simp

/-- Nearest natural numbers are in the order of the rational numbers. -/
lemma mono (h : IsNearest q n) (h' : IsNearest q' n') (hle : q ≤ q') : n ≤ n' := by
  by_contra hlt
  rw [Nat.not_le, ← Nat.succ_le_iff] at hlt
  have hcast : (n' : ℚ) + 1 ≤ n := by exact_mod_cast hlt
  have hlow := (abs_le.mp h.abs_sub_le_half).1
  have hhigh := (abs_le.mp h'.abs_sub_le_half).2
  -- There is room for the wrong order only if both are ties around the same half.
  have hq : q - n = -(1 / 2) := by linarith
  have hq' : q' - n' = 1 / 2 := by linarith
  have heven : Even n := h.even_of_abs_sub_eq (by rw [hq, abs_neg, abs_of_pos (by norm_num)])
  have heven' : Even n' := h'.even_of_abs_sub_eq (by rw [hq', abs_of_pos (by norm_num)])
  have hsucc : n = n' + 1 := by
    have : (n : ℚ) = n' + 1 := by linarith
    exact_mod_cast this
  rw [hsucc, Nat.even_add_one] at heven
  exact heven heven'

lemma unique (h : IsNearest q n) (h' : IsNearest q n') : n = n' :=
  le_antisymm (h.mono h' le_rfl) (h'.mono h le_rfl)

lemma le_of_le (h : IsNearest q n) {k : ℕ} (hk : q ≤ k) : n ≤ k :=
  h.mono (natCast k) hk

lemma ge_of_ge (h : IsNearest q n) {k : ℕ} (hk : (k : ℚ) ≤ q) : k ≤ n :=
  (natCast k).mono h hk

/-- Different natural numbers are at least one apart, whatever lies between them. -/
lemma one_le_abs_sub_add {k : ℕ} (hk : k ≠ n) (q : ℚ) : 1 ≤ |q - k| + |q - n| := by
  have hone : (1 : ℚ) ≤ |(k : ℚ) - n| := by
    have : (1 : ℤ) ≤ |(k : ℤ) - n| := Int.one_le_abs (by omega)
    exact_mod_cast this
  have htriangle := abs_sub_le (k : ℚ) q n
  rw [abs_sub_comm (k : ℚ) q] at htriangle
  exact hone.trans htriangle

/-- No natural number is nearer. -/
lemma abs_sub_le_abs_sub (h : IsNearest q n) (k : ℕ) : |q - n| ≤ |q - k| := by
  by_cases hk : k = n
  · rw [hk]
  · have hone := one_le_abs_sub_add hk q
    have hhalf := h.abs_sub_le_half
    linarith

/-- Only an even number is nearest together with another one. -/
lemma even_of_tie (h : IsNearest q n) {k : ℕ} (hk : k ≠ n) (htie : |q - n| = |q - k|) :
    Even n := by
  apply h.even_of_abs_sub_eq
  have hone := one_le_abs_sub_add hk q
  have hhalf := h.abs_sub_le_half
  linarith

/-- Turning the line around a natural number turns nearest natural numbers. -/
lemma reflect (h : IsNearest q n) {c : ℕ} (hn : n ≤ 2 * c) :
    IsNearest (2 * c - q) (2 * c - n) := by
  have habs : |(2 * c - q : ℚ) - ((2 * c - n : ℕ) : ℚ)| = |q - n| := by
    rw [Nat.cast_sub hn, abs_sub_comm q]
    congr 1
    push_cast
    ring
  have heven : Even (2 * c - n) ↔ Even n := by
    simp [Nat.even_sub hn]
  unfold IsNearest
  rw [habs, heven]
  exact h

end IsNearest

/-! ## Fractions -/

namespace Ratio

/-- Every rational number that is not negative has a fraction. -/
lemma exists_toRat_eq {q : ℚ} (hq : 0 ≤ q) : ∃ r : Ratio, r.toRat = q := by
  refine ⟨⟨q.num.toNat, q.den, q.den_pos⟩, ?_⟩
  have hnum : ((q.num.toNat : ℤ) : ℚ) = q.num := by
    rw [Int.toNat_of_nonneg (Rat.num_nonneg.mpr hq)]
  unfold toRat
  dsimp only
  rw [← Int.cast_natCast, hnum]
  exact q.num_div_den

/-- The whole part and the rest. -/
lemma toRat_eq_floor_add (r : Ratio) :
    r.toRat = r.floor + ((r.num % r.den : ℕ) : ℚ) / r.den := by
  have hden := r.den_ne_zero
  have hsplit : (r.num : ℚ) = r.den * r.floor + (r.num % r.den : ℕ) := by
    exact_mod_cast (Nat.div_add_mod r.num r.den).symm
  unfold toRat
  rw [hsplit, add_div, mul_div_cancel_left₀ _ hden]

lemma floor_le_toRat (r : Ratio) : (r.floor : ℚ) ≤ r.toRat := by
  rw [toRat_eq_floor_add]
  exact le_add_of_nonneg_right (div_nonneg (Nat.cast_nonneg _) (Nat.cast_nonneg _))

lemma toRat_lt_floor_add_one (r : Ratio) : r.toRat < r.floor + 1 := by
  have hden : (0 : ℚ) < r.den := Nat.cast_pos.mpr r.den_pos
  have hrest : ((r.num % r.den : ℕ) : ℚ) < r.den := by
    exact_mod_cast Nat.mod_lt _ r.den_pos
  rw [toRat_eq_floor_add, add_lt_add_iff_left, div_lt_one hden]
  exact hrest

lemma natCast_le_toRat_iff {r : Ratio} {n : ℕ} : (n : ℚ) ≤ r.toRat ↔ n ≤ r.floor := by
  constructor
  · intro h
    have hlt : (n : ℚ) < (r.floor + 1 : ℕ) := by
      push_cast
      exact h.trans_lt r.toRat_lt_floor_add_one
    exact Nat.lt_succ_iff.mp (by exact_mod_cast hlt)
  · intro h
    exact (Nat.cast_le.mpr h).trans r.floor_le_toRat

/-- Rounding goes to the nearest natural number. -/
lemma isNearest_roundHalfEven (r : Ratio) : IsNearest r.toRat r.roundHalfEven := by
  have hden : (0 : ℚ) < r.den := Nat.cast_pos.mpr r.den_pos
  set rest := r.num % r.den with hrest
  have hlt : rest < r.den := Nat.mod_lt _ r.den_pos
  have hvalue : r.toRat = (r.num / r.den : ℕ) + (rest : ℚ) / r.den := r.toRat_eq_floor_add
  have hpart : 0 ≤ (rest : ℚ) / r.den := div_nonneg (Nat.cast_nonneg _) hden.le
  unfold roundHalfEven
  dsimp only
  rw [← hrest]
  split
  · next hsmall =>
    left
    have hhalf : (rest : ℚ) / r.den < 1 / 2 := by
      rw [div_lt_div_iff₀ hden (by norm_num)]
      exact_mod_cast (by omega : rest * 2 < 1 * r.den)
    rw [hvalue, add_sub_cancel_left, abs_of_nonneg hpart]
    exact hhalf
  · next hsmall =>
    split
    · next hlarge =>
      left
      have hhalf : 1 / 2 < (rest : ℚ) / r.den := by
        rw [div_lt_div_iff₀ (by norm_num) hden]
        exact_mod_cast (by omega : 1 * r.den < rest * 2)
      have hone : (rest : ℚ) / r.den < 1 := (div_lt_one hden).mpr (by exact_mod_cast hlt)
      rw [hvalue, abs_lt]
      push_cast
      constructor
      · linarith
      · linarith
    · next hlarge =>
      right
      have hhalf : (rest : ℚ) / r.den = 1 / 2 := by
        rw [div_eq_div_iff hden.ne' (by norm_num)]
        exact_mod_cast (by omega : rest * 2 = 1 * r.den)
      rcases Nat.mod_two_eq_zero_or_one (r.num / r.den) with heven | hodd
      · rw [heven, Nat.add_zero, hvalue, add_sub_cancel_left, abs_of_nonneg hpart]
        exact ⟨hhalf, Nat.even_iff.mpr heven⟩
      · rw [hodd, hvalue, hhalf]
        push_cast
        refine ⟨?_, Nat.even_iff.mpr (by omega)⟩
        rw [show ((r.num / r.den : ℕ) : ℚ) + 1 / 2 - ((r.num / r.den : ℕ) + 1) = -(1 / 2) by ring,
          abs_neg, abs_of_pos (by norm_num)]

lemma roundHalfEven_eq {r : Ratio} {n : ℕ} (h : IsNearest r.toRat n) : r.roundHalfEven = n :=
  r.isNearest_roundHalfEven.unique h

end Ratio

/-! ## Formats -/

namespace Magnitude

variable {F : Format} {m : Magnitude F} {r a b : Ratio}

/-- The number of units to which a fraction is rounded, whatever the range of the format. -/
def rounded (F : Format) (r : Ratio) : ℕ :=
  (shifted F r).roundHalfEven * Nat.pow 2 (shiftOf F r)

lemma units_lt (m : Magnitude F) : m.units < Nat.pow 2 (F.precision + F.maxShift) := by
  calc m.significand * Nat.pow 2 m.shift
      < Nat.pow 2 F.precision * Nat.pow 2 m.shift :=
        Nat.mul_lt_mul_of_pos_right m.significand_lt (two_power_pos _)
    _ = Nat.pow 2 (F.precision + m.shift) := (Nat.pow_add 2 _ _).symm
    _ ≤ Nat.pow 2 (F.precision + F.maxShift) :=
        Nat.pow_le_pow_right Nat.two_pos (Nat.add_le_add_left m.shift_le _)

/-- Different magnitudes have different numbers of units. -/
lemma units_injective {m m' : Magnitude F} (h : m.units = m'.units) : m = m' := by
  have hratio : m.toRatio = m'.toRatio := by
    unfold toRatio
    simp only [h]
  have hsame := ofRatio?_toRatio m
  rw [hratio, ofRatio?_toRatio] at hsame
  exact (Option.some.inj hsame).symm

lemma units_of_ofRatio? (h : ofRatio? F r = some m) : m.units = rounded F r := by
  have hprecision := F.precision_pos
  have hle : (shifted F r).roundHalfEven ≤ Nat.pow 2 F.precision :=
    Ratio.roundHalfEven_le (shifted_num_le F r)
  unfold ofRatio? at h
  dsimp only at h
  split at h
  · split at h
    · cases h
      rfl
    · cases h
  · next hs =>
    split at h
    · cases h
      have heq : (shifted F r).roundHalfEven = Nat.pow 2 F.precision := by omega
      calc Nat.pow 2 (F.precision - 1) * Nat.pow 2 (shiftOf F r + 1)
          = Nat.pow 2 (F.precision - 1 + (shiftOf F r + 1)) := (Nat.pow_add 2 _ _).symm
        _ = Nat.pow 2 (F.precision + shiftOf F r) := by
            congr 1
            omega
        _ = Nat.pow 2 F.precision * Nat.pow 2 (shiftOf F r) := Nat.pow_add 2 _ _
        _ = rounded F r := by rw [rounded, heq]
    · cases h

/-- A fraction without a nearest magnitude is rounded to more units than any magnitude has. -/
lemma le_rounded_of_ofRatio?_eq_none (h : ofRatio? F r = none) :
    Nat.pow 2 (F.precision + F.maxShift) ≤ rounded F r := by
  have hprecision := F.precision_pos
  unfold ofRatio? at h
  dsimp only at h
  split at h
  · split at h
    · cases h
    · next hk =>
      have hlow : Nat.pow 2 (F.precision - 1) ≤ (shifted F r).roundHalfEven :=
        Ratio.le_roundHalfEven (le_shifted_num F r (by omega))
      calc Nat.pow 2 (F.precision + F.maxShift)
          ≤ Nat.pow 2 (F.precision - 1 + shiftOf F r) :=
            Nat.pow_le_pow_right Nat.two_pos (by omega)
        _ = Nat.pow 2 (F.precision - 1) * Nat.pow 2 (shiftOf F r) := Nat.pow_add 2 _ _
        _ ≤ rounded F r := Nat.mul_le_mul_right _ hlow
  · next hs =>
    split at h
    · cases h
    · next hk =>
      calc Nat.pow 2 (F.precision + F.maxShift)
          ≤ Nat.pow 2 (F.precision + shiftOf F r) :=
            Nat.pow_le_pow_right Nat.two_pos (by omega)
        _ = Nat.pow 2 F.precision * Nat.pow 2 (shiftOf F r) := Nat.pow_add 2 _ _
        _ ≤ rounded F r := Nat.mul_le_mul_right _ (Nat.not_lt.mp hs)

/-- A fraction is rounded to a magnitude if it is rounded to its number of units. -/
lemma ofRatio?_eq_some_iff : ofRatio? F r = some m ↔ rounded F r = m.units := by
  constructor
  · exact fun h => (units_of_ofRatio? h).symm
  · intro h
    rcases hround : ofRatio? F r with _ | m'
    · have hle := le_rounded_of_ofRatio?_eq_none hround
      have hlt := m.units_lt
      omega
    · have hunits : m'.units = m.units := (units_of_ofRatio? hround).trans h
      rw [units_injective hunits]

/-- The whole units are the whole part of the number of units. -/
lemma natCast_le_units_iff {n : ℕ} :
    (n : ℚ) ≤ r.toRat * 2 ^ F.unitPlaces ↔ n ≤ wholeUnits F r := by
  have hunits : (⟨r.num * Nat.pow 2 F.unitPlaces, r.den, r.den_pos⟩ : Ratio).toRat
      = r.toRat * 2 ^ F.unitPlaces := by
    unfold Ratio.toRat
    simp only [Nat.pow_eq]
    push_cast
    rw [div_mul_eq_mul_div]
  rw [← hunits, Ratio.natCast_le_toRat_iff]
  exact Iff.rfl

/-- The shift is known from where significands have all digits, or from zero, where there is none,
up to one digit more. -/
lemma shiftOf_eq {e : ℕ} (hlow : e = 0 ∨ 2 ^ (F.precision - 1 + e) ≤ r.toRat * 2 ^ F.unitPlaces)
    (hhigh : r.toRat * 2 ^ F.unitPlaces < 2 ^ (F.precision + e)) : shiftOf F r = e := by
  have hprecision := F.precision_pos
  have hlt : wholeUnits F r < 2 ^ (F.precision + e) := by
    rw [← Nat.not_le, ← natCast_le_units_iff, not_le]
    exact_mod_cast hhigh
  unfold shiftOf
  rcases hlow with rfl | hlow
  · rcases Nat.eq_zero_or_pos (wholeUnits F r) with hzero | hpos
    · rw [hzero, Nat.log2_zero]
      omega
    · have := (Nat.log2_lt hpos.ne').mpr hlt
      omega
  · have hle : 2 ^ (F.precision - 1 + e) ≤ wholeUnits F r := by
      rw [← natCast_le_units_iff]
      exact_mod_cast hlow
    have hne : wholeUnits F r ≠ 0 := (Nat.two_pow_pos _).trans_le hle |>.ne'
    have hlog : Nat.log2 (wholeUnits F r) = F.precision - 1 + e := by
      refine (Nat.log2_eq_iff hne).mpr ⟨hle, ?_⟩
      rwa [show F.precision - 1 + e + 1 = F.precision + e by omega]
    omega

/-- Rounding counts steps of the shift. -/
lemma rounded_of_shiftOf {e n : ℕ} (he : shiftOf F r = e)
    (hn : IsNearest (r.toRat * 2 ^ F.unitPlaces / 2 ^ e) n) : rounded F r = n * 2 ^ e := by
  subst he
  rw [← toRat_shifted] at hn
  unfold rounded
  rw [Ratio.roundHalfEven_eq hn, Nat.pow_eq]

/-- On the stretch of a shift rounding goes to the nearest number of steps. The ends of the stretch
belong to it, though the shift is another one at the upper end. -/
lemma rounded_eq {e n : ℕ} (hlow : e = 0 ∨ 2 ^ (F.precision - 1 + e) ≤ r.toRat * 2 ^ F.unitPlaces)
    (hhigh : r.toRat * 2 ^ F.unitPlaces ≤ 2 ^ (F.precision + e))
    (hn : IsNearest (r.toRat * 2 ^ F.unitPlaces / 2 ^ e) n) : rounded F r = n * 2 ^ e := by
  have hprecision := F.precision_pos
  rcases hhigh.lt_or_eq with hlt | heq
  · exact rounded_of_shiftOf (shiftOf_eq hlow hlt) hn
  · have hsteps : n = 2 ^ F.precision := by
      apply hn.unique
      rw [heq, pow_add, mul_div_cancel_right₀ _ (by positivity)]
      exact_mod_cast IsNearest.natCast (2 ^ F.precision)
    have hexponent : F.precision - 1 + (e + 1) = F.precision + e := by omega
    have hshift : shiftOf F r = e + 1 := by
      apply shiftOf_eq
      · right
        rw [heq, hexponent]
      · rw [heq, ← add_assoc]
        exact pow_lt_pow_right₀ (by norm_num) (Nat.lt_succ_self _)
    have hnext : IsNearest (r.toRat * 2 ^ F.unitPlaces / 2 ^ (e + 1)) (2 ^ (F.precision - 1)) := by
      rw [heq, ← hexponent, pow_add, mul_div_cancel_right₀ _ (by positivity)]
      exact_mod_cast IsNearest.natCast (2 ^ (F.precision - 1))
    rw [rounded_of_shiftOf hshift hnext, hsteps, ← pow_add, ← pow_add, hexponent]

/-- Rounding keeps the order of the values. -/
lemma rounded_mono (h : a.toRat ≤ b.toRat) : rounded F a ≤ rounded F b := by
  have hprecision := F.precision_pos
  have hunits : a.toRat * 2 ^ F.unitPlaces ≤ b.toRat * 2 ^ F.unitPlaces :=
    mul_le_mul_of_nonneg_right h (by positivity)
  have hwhole : wholeUnits F a ≤ wholeUnits F b := by
    rw [← natCast_le_units_iff]
    exact (natCast_le_units_iff.mpr le_rfl).trans hunits
  have hshift : shiftOf F a ≤ shiftOf F b := by
    have hlog : Nat.log2 (wholeUnits F a) ≤ Nat.log2 (wholeUnits F b) := by
      rw [Nat.log2_eq_log_two, Nat.log2_eq_log_two]
      exact Nat.log_mono_right hwhole
    unfold shiftOf
    omega
  rcases hshift.lt_or_eq with hlt | heq
  · -- The smaller number is at most where the stretch of the greater one starts.
    calc rounded F a ≤ Nat.pow 2 F.precision * Nat.pow 2 (shiftOf F a) :=
          Nat.mul_le_mul_right _ (Ratio.roundHalfEven_le (shifted_num_le F a))
      _ = Nat.pow 2 (F.precision + shiftOf F a) := (Nat.pow_add 2 _ _).symm
      _ ≤ Nat.pow 2 (F.precision - 1 + shiftOf F b) :=
          Nat.pow_le_pow_right Nat.two_pos (by omega)
      _ = Nat.pow 2 (F.precision - 1) * Nat.pow 2 (shiftOf F b) := Nat.pow_add 2 _ _
      _ ≤ rounded F b :=
          Nat.mul_le_mul_right _ (Ratio.le_roundHalfEven (le_shifted_num F b (by omega)))
  · have hsteps : (shifted F a).roundHalfEven ≤ (shifted F b).roundHalfEven := by
      apply (Ratio.isNearest_roundHalfEven _).mono (Ratio.isNearest_roundHalfEven _)
      rw [toRat_shifted, toRat_shifted, heq]
      exact div_le_div_of_nonneg_right hunits (by positivity)
    unfold rounded
    rw [heq]
    exact Nat.mul_le_mul_right _ hsteps

end Magnitude

end LineShell
