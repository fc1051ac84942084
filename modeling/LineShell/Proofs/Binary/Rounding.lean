import LineShell.Decimal.Shortest
import Mathlib.Tactic.FieldSimp
import Mathlib.Tactic.Lemma
import Mathlib.Tactic.Ring

/-!
# Rounding depends on the value alone

Fractions and decimals are written in many ways. Here they are read as rational numbers
(`Ratio.toRat`, `Decimal.toRat`), and rounding to a binary format is shown to depend on nothing
else.

* **Fractions** (`Magnitude.ofRatio?_congr`).
* **Decimals** (`Binary.ofDecimal_eq_ofRatio`): the numbers that `Binary.ofDecimal` recognises by
  their size round as all others do, so equal decimals are rounded alike
  (`Binary.ofDecimal_congr`).
* **Exact numbers** (`Magnitude.exists_ofRatio?_eq_some`): a number that the format holds is not
  changed. So a format that fits into another one is embedded in it
  (`Binary.convert_convert`), and a `float` is read back from the `double` of its value.
-/

namespace LineShell

/-! ## Fractions -/

namespace Ratio

/-- The rational number of a fraction. -/
def toRat (r : Ratio) : ℚ :=
  r.num / r.den

lemma den_ne_zero (r : Ratio) : (r.den : ℚ) ≠ 0 :=
  Nat.cast_ne_zero.mpr (Nat.pos_iff_ne_zero.mp r.den_pos)

lemma toRat_eq_iff {a b : Ratio} : a.toRat = b.toRat ↔ a.num * b.den = b.num * a.den := by
  unfold toRat
  rw [div_eq_div_iff a.den_ne_zero b.den_ne_zero]
  exact_mod_cast Iff.rfl

/-- The fraction with both its parts multiplied. -/
def scaled (r : Ratio) (k : Nat) (hk : 0 < k) : Ratio :=
  ⟨r.num * k, r.den * k, Nat.mul_pos r.den_pos hk⟩

lemma floor_scaled (r : Ratio) {k : Nat} (hk : 0 < k) : (r.scaled k hk).floor = r.floor :=
  Nat.mul_div_mul_right _ _ hk

lemma roundHalfEven_scaled (r : Ratio) {k : Nat} (hk : 0 < k) :
    (r.scaled k hk).roundHalfEven = r.roundHalfEven := by
  have hdiv : r.num * k / (r.den * k) = r.num / r.den := Nat.mul_div_mul_right _ _ hk
  have hmod : r.num * k % (r.den * k) = r.num % r.den * k := Nat.mul_mod_mul_right _ _ _
  have hlow : 2 * (r.num % r.den * k) < r.den * k ↔ 2 * (r.num % r.den) < r.den := by
    rw [← Nat.mul_assoc]
    exact Nat.mul_lt_mul_right hk
  have hhigh : r.den * k < 2 * (r.num % r.den * k) ↔ r.den < 2 * (r.num % r.den) := by
    rw [← Nat.mul_assoc]
    exact Nat.mul_lt_mul_right hk
  simp only [roundHalfEven, scaled, hdiv, hmod, hlow, hhigh]

/-- Equal fractions have a common form. -/
lemma scaled_eq_scaled {a b : Ratio} (h : a.toRat = b.toRat) :
    a.scaled b.den b.den_pos = b.scaled a.den a.den_pos := by
  unfold scaled
  simp only [toRat_eq_iff.mp h, Nat.mul_comm a.den]

lemma floor_congr {a b : Ratio} (h : a.toRat = b.toRat) : a.floor = b.floor := by
  rw [← a.floor_scaled b.den_pos, scaled_eq_scaled h, floor_scaled]

lemma roundHalfEven_congr {a b : Ratio} (h : a.toRat = b.toRat) :
    a.roundHalfEven = b.roundHalfEven := by
  rw [← a.roundHalfEven_scaled b.den_pos, scaled_eq_scaled h, roundHalfEven_scaled]

end Ratio

namespace Magnitude

variable {F G : Format}

lemma ext_significand_shift {m n : Magnitude F} (hsignificand : m.significand = n.significand)
    (hshift : m.shift = n.shift) : m = n := by
  obtain ⟨s, k, _, _, _⟩ := m
  obtain ⟨s', k', _, _, _⟩ := n
  obtain rfl : s = s' := hsignificand
  obtain rfl : k = k' := hshift
  rfl

lemma shiftOf_congr {a b : Ratio} (h : a.toRat = b.toRat) : shiftOf F a = shiftOf F b := by
  have hunits : (⟨a.num * Nat.pow 2 F.unitPlaces, a.den, a.den_pos⟩ : Ratio).toRat
      = (⟨b.num * Nat.pow 2 F.unitPlaces, b.den, b.den_pos⟩ : Ratio).toRat := by
    rw [Ratio.toRat_eq_iff] at h ⊢
    calc a.num * Nat.pow 2 F.unitPlaces * b.den
        = a.num * b.den * Nat.pow 2 F.unitPlaces := Nat.mul_right_comm _ _ _
      _ = b.num * a.den * Nat.pow 2 F.unitPlaces := by rw [h]
      _ = b.num * Nat.pow 2 F.unitPlaces * a.den := Nat.mul_right_comm _ _ _
  have hwhole : wholeUnits F a = wholeUnits F b := Ratio.floor_congr hunits
  unfold shiftOf
  rw [hwhole]

lemma toRat_shifted (F : Format) (r : Ratio) :
    (shifted F r).toRat = r.toRat * 2 ^ F.unitPlaces / 2 ^ shiftOf F r := by
  unfold Ratio.toRat shifted
  simp only [Nat.pow_eq]
  push_cast
  rw [div_mul_eq_mul_div, div_div]

/-- Equal fractions are rounded to the same magnitude. -/
lemma ofRatio?_congr {a b : Ratio} (h : a.toRat = b.toRat) : ofRatio? F a = ofRatio? F b := by
  have hshift : shiftOf F a = shiftOf F b := shiftOf_congr h
  have hround : (shifted F a).roundHalfEven = (shifted F b).roundHalfEven := by
    apply Ratio.roundHalfEven_congr
    rw [toRat_shifted, toRat_shifted, h, hshift]
  simp only [ofRatio?, hshift, hround]

/-- A fraction of too many units has no nearest magnitude. -/
lemma ofRatio?_eq_none {r : Ratio} (h : Nat.pow 2 (F.precision + F.maxShift) ≤ wholeUnits F r) :
    ofRatio? F r = none := by
  have hpos := two_power_pos (F.precision + F.maxShift)
  have hlog : F.precision + F.maxShift ≤ Nat.log2 (wholeUnits F r) :=
    (Nat.le_log2 (by omega)).mpr h
  have hshift : F.maxShift < shiftOf F r := by
    unfold shiftOf
    omega
  unfold ofRatio?
  dsimp only
  split
  · rw [dif_neg (by omega)]
  · rw [dif_neg (by omega)]

/-- A fraction below half a unit is rounded to zero. -/
lemma ofRatio?_eq_zero {r : Ratio} (h : 2 * (r.num * Nat.pow 2 F.unitPlaces) < r.den) :
    ofRatio? F r = some zero := by
  have hprecision := F.precision_pos
  have hwhole : wholeUnits F r = 0 := Nat.div_eq_of_lt (by omega)
  have hshift : shiftOf F r = 0 := by
    unfold shiftOf
    rw [hwhole, Nat.log2_zero]
    omega
  have hround : (shifted F r).roundHalfEven = 0 := by
    have hdiv : r.num * Nat.pow 2 F.unitPlaces / r.den = 0 := hwhole
    have hmod : r.num * Nat.pow 2 F.unitPlaces % r.den = r.num * Nat.pow 2 F.unitPlaces :=
      Nat.mod_eq_of_lt (by omega)
    have hone : r.den * Nat.pow 2 0 = r.den := Nat.mul_one _
    simp only [shifted, Ratio.roundHalfEven, hshift, hone, hdiv, hmod, if_pos h]
  simp only [ofRatio?, hround, hshift, two_power_pos, dif_pos, Nat.zero_le]
  rfl

/-- A fraction of `s * 2 ^ e` units with a significand `s` of the precision is not changed by
rounding. -/
lemma exists_ofRatio?_eq_some {r : Ratio} {s e : Nat} (hs : s < Nat.pow 2 F.precision)
    (he : e ≤ F.maxShift)
    (hunits : r.num * Nat.pow 2 F.unitPlaces = s * Nat.pow 2 e * r.den) :
    ∃ m, ofRatio? F r = some m ∧ m.toRatio.toRat = r.toRat := by
  have hwhole : wholeUnits F r = s * Nat.pow 2 e := by
    unfold wholeUnits
    rw [hunits, Nat.mul_div_cancel _ r.den_pos]
  have hshift : shiftOf F r ≤ e := by
    unfold shiftOf
    rw [hwhole]
    have hlt : s * Nat.pow 2 e < Nat.pow 2 (F.precision + e) :=
      Nat.lt_of_lt_of_le (Nat.mul_lt_mul_of_pos_right hs (two_power_pos e))
        (Nat.le_of_eq (Nat.pow_add 2 F.precision e).symm)
    rcases Nat.eq_zero_or_pos (s * Nat.pow 2 e) with hzero | hpos
    · have hprecision := F.precision_pos
      rw [hzero, Nat.log2_zero]
      omega
    · have hlog := (Nat.log2_lt (Nat.pos_iff_ne_zero.mp hpos)).mpr hlt
      omega
  obtain ⟨d, rfl⟩ := Nat.exists_eq_add_of_le hshift
  have hpower : Nat.pow 2 (shiftOf F r + d) = Nat.pow 2 (shiftOf F r) * Nat.pow 2 d :=
    Nat.pow_add 2 _ _
  have hround : (shifted F r).roundHalfEven = s * Nat.pow 2 d := by
    apply Ratio.roundHalfEven_of_eq
    simp only [shifted, hunits, hpower]
    ac_rfl
  have hlt : (shifted F r).roundHalfEven < Nat.pow 2 F.precision := by
    rw [hround]
    apply Nat.lt_of_mul_lt_mul_right (a := Nat.pow 2 (shiftOf F r))
    have hlog : wholeUnits F r < Nat.pow 2 (Nat.log2 (wholeUnits F r) + 1) := Nat.lt_log2_self
    have hexponent : Nat.log2 (wholeUnits F r) + 1 ≤ F.precision + shiftOf F r := by
      simp only [shiftOf]
      omega
    calc s * Nat.pow 2 d * Nat.pow 2 (shiftOf F r) = wholeUnits F r := by
          rw [hwhole, hpower]
          ac_rfl
      _ < Nat.pow 2 (Nat.log2 (wholeUnits F r) + 1) := hlog
      _ ≤ Nat.pow 2 (F.precision + shiftOf F r) := Nat.pow_le_pow_right Nat.two_pos hexponent
      _ = Nat.pow 2 F.precision * Nat.pow 2 (shiftOf F r) := Nat.pow_add 2 _ _
  have hsome : ofRatio? F r = some ⟨(shifted F r).roundHalfEven, shiftOf F r, hlt,
      hshift.trans he, fun h => Ratio.le_roundHalfEven (le_shifted_num F r h)⟩ := by
    simp only [ofRatio?, dif_pos hlt, dif_pos (hshift.trans he)]
  refine ⟨_, hsome, ?_⟩
  rw [Ratio.toRat_eq_iff]
  simp only [toRatio, units, hround, hunits, hpower]
  ac_rfl

end Magnitude

/-! ## Formats that fit into others -/

/-- Every number of the first format is a number of the second one. -/
structure Format.FitsIn (F G : Format) : Prop where
  /-- Significands have no more digits. -/
  precision_le : F.precision ≤ G.precision
  /-- The unit is no smaller. -/
  unitPlaces_le : F.unitPlaces ≤ G.unitPlaces
  /-- Shifts reach no farther. -/
  maxShift_le : F.maxShift + (G.unitPlaces - F.unitPlaces) ≤ G.maxShift

lemma Format.single_fitsIn_double : single.FitsIn double :=
  ⟨by decide, by decide, by decide⟩

namespace Magnitude

variable {F G : Format}

/-- A magnitude is kept by a format that its own format fits into. -/
lemma exists_ofRatio?_toRatio (h : F.FitsIn G) (m : Magnitude F) :
    ∃ n, ofRatio? G m.toRatio = some n ∧ n.toRatio.toRat = m.toRatio.toRat := by
  have hprecision : Nat.pow 2 F.precision ≤ Nat.pow 2 G.precision :=
    Nat.pow_le_pow_right Nat.two_pos h.precision_le
  have hshift : m.shift + (G.unitPlaces - F.unitPlaces) ≤ G.maxShift :=
    (Nat.add_le_add_right m.shift_le _).trans h.maxShift_le
  apply exists_ofRatio?_eq_some (m.significand_lt.trans_le hprecision) hshift
  have hpower : Nat.pow 2 G.unitPlaces
      = Nat.pow 2 (G.unitPlaces - F.unitPlaces) * Nat.pow 2 F.unitPlaces := by
    calc Nat.pow 2 G.unitPlaces
        = Nat.pow 2 (G.unitPlaces - F.unitPlaces + F.unitPlaces) := by
          rw [Nat.sub_add_cancel h.unitPlaces_le]
      _ = _ := Nat.pow_add 2 _ _
  have hpower' : Nat.pow 2 (m.shift + (G.unitPlaces - F.unitPlaces))
      = Nat.pow 2 m.shift * Nat.pow 2 (G.unitPlaces - F.unitPlaces) := Nat.pow_add 2 _ _
  simp only [toRatio, units, hpower, hpower']
  ac_rfl

end Magnitude

namespace Binary

variable {F G : Format}

lemma ofRatio_congr {a b : Ratio} (h : a.toRat = b.toRat) (negative : Bool) :
    ofRatio F negative a = ofRatio F negative b := by
  unfold ofRatio
  rw [Magnitude.ofRatio?_congr h]

lemma ofRatio_toRatio (negative : Bool) (m : Magnitude F) :
    ofRatio F negative m.toRatio = .finite negative m := by
  unfold ofRatio
  rw [Magnitude.ofRatio?_toRatio]

lemma ofRatio_eq_finite_iff {negative negative' : Bool} {r : Ratio} {m : Magnitude F} :
    ofRatio F negative r = .finite negative' m ↔
      negative = negative' ∧ Magnitude.ofRatio? F r = some m := by
  unfold ofRatio
  rcases Magnitude.ofRatio? F r with _ | n
  · simp
  · simp

/-- A number is converted back from a format that its own format fits into. -/
lemma convert_convert (h : F.FitsIn G) (x : Binary F) : (x.convert G).convert F = x := by
  rcases x with _ | negative | ⟨negative, m⟩
  · rfl
  · rfl
  · obtain ⟨n, hn, hvalue⟩ := Magnitude.exists_ofRatio?_toRatio h m
    have hconvert : (finite negative m).convert G = finite negative n :=
      ofRatio_eq_finite_iff.mpr ⟨rfl, hn⟩
    rw [hconvert]
    calc ofRatio F negative n.toRatio = ofRatio F negative m.toRatio := ofRatio_congr hvalue _
      _ = finite negative m := ofRatio_toRatio negative m

end Binary

/-! ## Decimals -/

/-- The rational number of a decimal. -/
def Decimal.toRat (d : Decimal) : ℚ :=
  d.coefficient * 10 ^ d.power

lemma Decimal.toRat_toRatio (d : Decimal) : d.toRatio.toRat = d.toRat := by
  obtain ⟨c, power⟩ := d
  cases power with
  | ofNat k => simp [toRatio, toRat, Ratio.toRat]
  | negSucc k => simp [toRatio, toRat, Ratio.toRat, zpow_negSucc, div_eq_mul_inv]

namespace Binary

variable {F : Format}

lemma eight_power_le_ten_power (k : Nat) : Nat.pow 2 (3 * k) ≤ Nat.pow 10 k := by
  calc Nat.pow 2 (3 * k) = (2 ^ 3) ^ k := Nat.pow_mul 2 3 k
    _ ≤ 10 ^ k := Nat.pow_le_pow_left (by decide) k

/-- What is recognised as huge has no nearest magnitude. -/
lemma ofRatio?_of_isHuge {c k : Nat} (hc : 0 < c) (h : isHuge F k = true) :
    Magnitude.ofRatio? F (Decimal.mk c (.ofNat k)).toRatio = none := by
  unfold isHuge at h
  rw [decide_eq_true_eq] at h
  apply Magnitude.ofRatio?_eq_none
  have hunits : Magnitude.wholeUnits F (Decimal.mk c (.ofNat k)).toRatio
      = c * Nat.pow 10 k * Nat.pow 2 F.unitPlaces := Nat.div_one _
  rw [hunits]
  calc Nat.pow 2 (F.precision + F.maxShift) ≤ Nat.pow 2 (3 * k) :=
        Nat.pow_le_pow_right Nat.two_pos h
    _ ≤ Nat.pow 10 k := eight_power_le_ten_power k
    _ ≤ c * Nat.pow 10 k := Nat.le_mul_of_pos_left _ hc
    _ ≤ c * Nat.pow 10 k * Nat.pow 2 F.unitPlaces := Nat.le_mul_of_pos_right _ (two_power_pos _)

/-- What is recognised as tiny is rounded to zero. -/
lemma ofRatio?_of_isTiny {c k : Nat} (h : isTiny F c (k + 1) = true) :
    Magnitude.ofRatio? F (Decimal.mk c (.negSucc k)).toRatio = some .zero := by
  unfold isTiny at h
  rw [decide_eq_true_eq] at h
  apply Magnitude.ofRatio?_eq_zero
  have hlog : c < Nat.pow 2 (Nat.log2 c + 1) := Nat.lt_log2_self
  calc 2 * (c * Nat.pow 2 F.unitPlaces)
      < 2 * (Nat.pow 2 (Nat.log2 c + 1) * Nat.pow 2 F.unitPlaces) :=
        Nat.mul_lt_mul_of_pos_left (Nat.mul_lt_mul_of_pos_right hlog (two_power_pos _)) Nat.two_pos
    _ = Nat.pow 2 (Nat.log2 c + 2 + F.unitPlaces) := by
        simp only [Nat.pow_eq]
        ring
    _ ≤ Nat.pow 2 (3 * (k + 1)) := Nat.pow_le_pow_right Nat.two_pos h
    _ ≤ Nat.pow 10 (k + 1) := eight_power_le_ten_power (k + 1)

/-- A decimal is rounded as the fraction of its value, whatever its size. -/
lemma ofDecimal_eq_ofRatio (negative : Bool) (d : Decimal) :
    ofDecimal F negative d = ofRatio F negative d.toRatio := by
  obtain ⟨c, power⟩ := d
  by_cases hc : c = 0
  · subst hc
    have hzero : Magnitude.ofRatio? F (Decimal.mk 0 power).toRatio = some .zero := by
      apply Magnitude.ofRatio?_eq_zero
      rcases power with k | k
      · simp [Decimal.toRatio]
      · simp [Decimal.toRatio]
    unfold ofDecimal
    rw [if_pos rfl]
    exact (ofRatio_eq_finite_iff.mpr ⟨rfl, hzero⟩).symm
  · unfold ofDecimal
    rw [if_neg hc]
    rcases power with k | k
    · dsimp only
      by_cases hhuge : isHuge F k = true
      · rw [if_pos hhuge, ofRatio, ofRatio?_of_isHuge (Nat.pos_of_ne_zero hc) hhuge]
      · rw [if_neg hhuge]
    · dsimp only
      by_cases htiny : isTiny F c (k + 1) = true
      · rw [if_pos htiny, ofRatio, ofRatio?_of_isTiny htiny]
      · rw [if_neg htiny]

/-- Equal decimals are rounded alike. -/
lemma ofDecimal_congr {d e : Decimal} (h : d.toRat = e.toRat) (negative : Bool) :
    ofDecimal F negative d = ofDecimal F negative e := by
  rw [ofDecimal_eq_ofRatio, ofDecimal_eq_ofRatio]
  apply ofRatio_congr
  rw [d.toRat_toRatio, e.toRat_toRatio, h]

/-- The sign of a decimal is no part of its rounding. -/
lemma ofDecimal_eq_finite_iff {negative negative' : Bool} {d : Decimal} {m : Magnitude F} :
    ofDecimal F negative d = .finite negative' m ↔
      negative = negative' ∧ Magnitude.ofRatio? F d.toRatio = some m := by
  rw [ofDecimal_eq_ofRatio, ofRatio_eq_finite_iff]

end Binary

/-! ## Decimals that read back -/

namespace Magnitude

variable {F : Format}

lemma toRat_exactDecimal (m : Magnitude F) : m.exactDecimal.toRat = m.toRatio.toRat := by
  unfold exactDecimal Decimal.toRat toRatio Ratio.toRat
  simp only [Nat.pow_eq]
  push_cast
  rw [zpow_neg, zpow_natCast, show (10 : ℚ) = 2 * 5 by norm_num, mul_pow]
  field_simp

end Magnitude

/-- All digits of a magnitude are rounded as the magnitude is converted. -/
lemma Binary.ofDecimal_exactDecimal {F : Format} (G : Format) (negative : Bool)
    (m : Magnitude F) :
    ofDecimal G negative m.exactDecimal = (Binary.finite negative m).convert G := by
  rw [ofDecimal_eq_ofRatio, convert]
  apply ofRatio_congr
  rw [Decimal.toRat_toRatio, Magnitude.toRat_exactDecimal]

/-- What is found passes the test. -/
lemma Decimal.test_of_search {limit : Nat} {candidates : Nat → List Decimal}
    {test : Decimal → Bool} {d : Decimal} (h : search limit candidates test = some d) :
    test d = true := by
  obtain ⟨n, -, hn⟩ := List.exists_of_findSome?_eq_some h
  exact List.find?_some hn

namespace Magnitude

/-- The decimal that shows a `double` reads back as it. -/
lemma readsBackDouble_shortestDouble (m : Magnitude Format.double) :
    m.readsBackDouble m.shortestDouble = true := by
  unfold shortestDouble
  dsimp only
  rcases hsearch : Decimal.search 17 _ m.readsBackDouble with _ | d
  · rw [Option.getD_none]
    apply decide_eq_true
    rw [Binary.ofDecimal_exactDecimal, Binary.convert_self]
  · exact Decimal.test_of_search hsearch

/-- The decimal that shows a `float` reads back as it, by way of `double`. -/
lemma readsBackSingle_shortestSingle (m : Magnitude Format.single) :
    m.readsBackSingle m.shortestSingle = true := by
  unfold shortestSingle
  rcases hsearch : Decimal.search 9 _ m.readsBackSingle with _ | d
  · rw [Option.getD_none]
    apply decide_eq_true
    rw [Binary.ofDecimal_exactDecimal, Binary.convert_convert Format.single_fitsIn_double]
  · exact Decimal.test_of_search hsearch

end Magnitude

end LineShell
