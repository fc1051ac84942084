import LineShell.Proofs.Binary.ReadBack

/-!
# Neighbours on the number line of a format

`Magnitude.value` reads a magnitude as a rational number. The magnitudes of a format cut the line
into pieces, and rounding is described here by where a number lies among them, without regard to
shifts.

* **Nearness** (`isClosest_of_ofRatio?`): a fraction is rounded to a magnitude than which no other
  is nearer, and of two equally near ones to the one with the even significand.
* **Range** (`ofRatio?_eq_none_iff`): a fraction has no magnitude exactly from the midpoint behind
  the greatest one on.
* **Midpoints** (`rounded_le_of_lt_midpoint`, `lt_rounded_of_midpoint_lt`): what is rounded to at
  most a magnitude and what is rounded above it are separated by the midpoint behind it. Midpoints
  are numbers of a format with one more digit (`Format.halved`).
* **Rounding twice** (`ofRatio?_ofUnits_rounded`): by way of a format that holds all midpoints a
  fraction is rounded as it is at once, unless the first rounding hits a midpoint.
-/

namespace LineShell

/-- A distance counted in steps. -/
lemma abs_sub_mul_eq {c : ℚ} (hc : 0 < c) (q k : ℚ) : |q - k * c| = |q / c - k| * c := by
  rw [← abs_of_pos hc, ← abs_mul, abs_of_pos hc, sub_mul, div_mul_cancel₀ _ hc.ne']

lemma Ratio.toRat_nonneg (r : Ratio) : 0 ≤ r.toRat :=
  div_nonneg (Nat.cast_nonneg _) (Nat.cast_nonneg _)

/-- The format with one more digit and half the unit. It holds the numbers halfway between those
of a format. -/
def Format.halved (F : Format) : Format :=
  ⟨F.precision + 1, F.unitPlaces + 1, F.maxShift, Nat.succ_pos _⟩

namespace Magnitude

variable {F : Format} {m m' a b : Magnitude F} {r : Ratio} {q : ℚ}

/-! ## Values -/

/-- The value of a magnitude. -/
def value (m : Magnitude F) : ℚ :=
  m.toRatio.toRat

lemma value_eq (m : Magnitude F) : m.value = m.units / 2 ^ F.unitPlaces :=
  toRat_ofUnits F m.units

lemma value_mul (m : Magnitude F) : m.value * 2 ^ F.unitPlaces = m.units := by
  rw [value_eq, div_mul_cancel₀ _ (by positivity)]

lemma value_nonneg (m : Magnitude F) : 0 ≤ m.value :=
  m.toRatio.toRat_nonneg

lemma value_le_value_iff : a.value ≤ b.value ↔ a.units ≤ b.units := by
  rw [value_eq, value_eq, div_le_div_iff_of_pos_right (by positivity), Nat.cast_le]

lemma value_lt_value_iff : a.value < b.value ↔ a.units < b.units := by
  rw [← not_le, value_le_value_iff, Nat.not_le]

lemma value_injective (h : a.value = b.value) : a = b :=
  units_injective (le_antisymm (value_le_value_iff.mp h.le) (value_le_value_iff.mp h.ge))

/-! ## Steps -/

lemma cast_units (m : Magnitude F) : (m.units : ℚ) = m.significand * 2 ^ m.shift := by
  have hunits : m.units = m.significand * 2 ^ m.shift := rfl
  exact_mod_cast hunits

/-- A step behind a magnitude. -/
lemma units_add_step (m : Magnitude F) :
    m.units + 2 ^ m.shift = (m.significand + 1) * 2 ^ m.shift := by
  rw [add_mul, one_mul]
  rfl

/-- The magnitudes from the start of a stretch on are whole numbers of its steps. -/
lemma units_eq_steps_or_lt (m : Magnitude F) (e : ℕ) :
    (∃ k, m.units = k * 2 ^ e) ∨ 0 < e ∧ m.units < 2 ^ (F.precision - 1 + e) := by
  have hprecision := F.precision_pos
  rcases Nat.lt_or_ge m.shift e with hlt | hge
  · right
    refine ⟨by omega, ?_⟩
    calc m.units < 2 ^ F.precision * 2 ^ m.shift :=
          Nat.mul_lt_mul_of_pos_right m.significand_lt (two_power_pos _)
      _ = 2 ^ (F.precision + m.shift) := (pow_add 2 _ _).symm
      _ ≤ 2 ^ (F.precision - 1 + e) := Nat.pow_le_pow_right Nat.two_pos (by omega)
  · left
    refine ⟨m.significand * 2 ^ (m.shift - e), ?_⟩
    rw [mul_assoc, ← pow_add, Nat.sub_add_cancel hge]
    rfl

/-- A magnitude lies on the stretch of its shift. -/
lemma shift_eq_zero_or_le (m : Magnitude F) :
    m.shift = 0 ∨ 2 ^ (F.precision - 1) ≤ m.significand := by
  rcases Nat.eq_zero_or_pos m.shift with hzero | hpos
  · exact .inl hzero
  · exact .inr (m.normal hpos)

/-- There is no magnitude within a step behind another one. -/
lemma units_add_step_le (h : a.units < b.units) : a.units + 2 ^ a.shift ≤ b.units := by
  have hunits : a.units = a.significand * 2 ^ a.shift := rfl
  rcases b.units_eq_steps_or_lt a.shift with ⟨k, hk⟩ | ⟨hpos, hlt⟩
  · rw [hunits, hk] at h
    have hle : a.significand + 1 ≤ k := Nat.lt_of_mul_lt_mul_right h
    calc a.units + 2 ^ a.shift = (a.significand + 1) * 2 ^ a.shift := a.units_add_step
      _ ≤ k * 2 ^ a.shift := Nat.mul_le_mul_right _ hle
      _ = b.units := hk.symm
  · have hle : 2 ^ (F.precision - 1 + a.shift) ≤ a.units := by
      rw [pow_add, hunits]
      exact Nat.mul_le_mul_right _ (a.normal hpos)
    omega

/-- A whole number of steps on a stretch is not changed by rounding. -/
lemma rounded_ofUnits_steps {k e : ℕ} (hlow : e = 0 ∨ 2 ^ (F.precision - 1) ≤ k)
    (hhigh : k ≤ 2 ^ F.precision) : rounded F (ofUnits F (k * 2 ^ e)) = k * 2 ^ e := by
  have hunits : (ofUnits F (k * 2 ^ e)).toRat * 2 ^ F.unitPlaces = k * 2 ^ e := by
    rw [toRat_ofUnits, div_mul_cancel₀ _ (by positivity)]
    push_cast
    rfl
  apply rounded_eq
  · apply hlow.imp_right
    intro hlow
    rw [hunits, pow_add]
    exact mul_le_mul_of_nonneg_right (by exact_mod_cast hlow) (by positivity)
  · rw [hunits, pow_add]
    exact mul_le_mul_of_nonneg_right (by exact_mod_cast hhigh) (by positivity)
  · rw [hunits, mul_div_cancel_right₀ _ (by positivity)]
    exact IsNearest.natCast k

lemma exists_isNearest_steps (F : Format) (r : Ratio) (e : ℕ) :
    ∃ n, IsNearest (r.toRat * 2 ^ F.unitPlaces / 2 ^ e) n := by
  apply IsNearest.exists_of_nonneg
  exact div_nonneg (mul_nonneg r.toRat_nonneg (by positivity)) (by positivity)

/-! ## Nearness -/

/-- No magnitude is nearer to the rational number, and the significand is even if another one is
equally near. -/
structure IsClosest (q : ℚ) (m : Magnitude F) : Prop where
  /-- No magnitude is nearer. -/
  le : ∀ m' : Magnitude F, |q - m.value| ≤ |q - m'.value|
  /-- A tie goes to the even significand. -/
  even : ∀ m' : Magnitude F, m' ≠ m → |q - m.value| = |q - m'.value| → Even m.significand

/-- A magnitude below the start of a stretch is farther from a number on the stretch than the
nearest step. -/
lemma abs_sub_lt_of_below {t : ℚ} {e n : ℕ} (hstart : (2 : ℚ) ^ (F.precision - 1 + e) ≤ t)
    (hn : IsNearest (t / 2 ^ e) n) (hm : m.units < 2 ^ (F.precision - 1 + e)) :
    |t - n * 2 ^ e| < |t - m.units| := by
  have hstep : (0 : ℚ) < 2 ^ e := by positivity
  have hm' : (m.units : ℚ) < 2 ^ (F.precision - 1 + e) := by exact_mod_cast hm
  calc |t - n * 2 ^ e| = |t / 2 ^ e - n| * 2 ^ e := abs_sub_mul_eq hstep t n
    _ ≤ |t / 2 ^ e - (2 ^ (F.precision - 1) : ℕ)| * 2 ^ e :=
        mul_le_mul_of_nonneg_right (hn.abs_sub_le_abs_sub _) hstep.le
    _ = |t - (2 ^ (F.precision - 1) : ℕ) * 2 ^ e| := (abs_sub_mul_eq hstep t _).symm
    _ = t - 2 ^ (F.precision - 1 + e) := by
        push_cast
        rw [← pow_add, abs_of_nonneg (by linarith)]
    _ < t - m.units := by linarith
    _ = |t - m.units| := (abs_of_nonneg (by linarith)).symm

/-- No magnitude is nearer than the nearest step of the stretch on which a number lies, and with a
tie the number of steps is even. -/
lemma abs_sub_steps_le {t : ℚ} {e n : ℕ}
    (hstart : e = 0 ∨ (2 : ℚ) ^ (F.precision - 1 + e) ≤ t) (hn : IsNearest (t / 2 ^ e) n)
    (m : Magnitude F) :
    |t - n * 2 ^ e| ≤ |t - m.units| ∧
      (m.units ≠ n * 2 ^ e → |t - n * 2 ^ e| = |t - m.units| → Even n) := by
  have hstep : (0 : ℚ) < 2 ^ e := by positivity
  rcases m.units_eq_steps_or_lt e with ⟨k, hk⟩ | ⟨hpos, hlt⟩
  · have hsteps : (m.units : ℚ) = k * 2 ^ e := by exact_mod_cast hk
    rw [hsteps, abs_sub_mul_eq hstep, abs_sub_mul_eq hstep]
    refine ⟨mul_le_mul_of_nonneg_right (hn.abs_sub_le_abs_sub k) hstep.le, ?_⟩
    intro hne htie
    apply hn.even_of_tie (k := k)
    · rintro rfl
      exact hne hk
    · exact mul_right_cancel₀ hstep.ne' htie
  · have hfar := abs_sub_lt_of_below (hstart.resolve_left hpos.ne') hn hlt
    exact ⟨hfar.le, fun _ htie => absurd htie hfar.ne⟩

/-- A significand that is rounded up to one more digit is even, as the number of steps is. -/
lemma even_significand_of_ofRatio? (hF : 1 < F.precision) (h : ofRatio? F r = some m)
    (heven : Even (shifted F r).roundHalfEven) : Even m.significand := by
  unfold ofRatio? at h
  dsimp only at h
  split at h
  · split at h
    · cases h
      exact heven
    · cases h
  · split at h
    · cases h
      exact even_two.pow_of_ne_zero (by omega)
    · cases h

/-- A fraction lies on the stretch of its shift. -/
lemma shiftOf_eq_zero_or_le (F : Format) (r : Ratio) :
    shiftOf F r = 0 ∨ (2 : ℚ) ^ (F.precision - 1 + shiftOf F r) ≤ r.toRat * 2 ^ F.unitPlaces := by
  rcases Nat.eq_zero_or_pos (shiftOf F r) with hzero | hpos
  · exact .inl hzero
  · right
    have hfloor : 2 ^ (F.precision - 1) ≤ (shifted F r).floor :=
      (Nat.le_div_iff_mul_le (shifted F r).den_pos).mpr (le_shifted_num F r hpos)
    have hle := Ratio.natCast_le_toRat_iff.mpr hfloor
    rw [toRat_shifted, le_div_iff₀ (by positivity)] at hle
    rw [pow_add]
    exact_mod_cast hle

/-- Distances from a magnitude, counted in units. -/
lemma abs_sub_value_mul (q : ℚ) (m : Magnitude F) :
    |q - m.value| * 2 ^ F.unitPlaces = |q * 2 ^ F.unitPlaces - m.units| := by
  have hunit : (0 : ℚ) < 2 ^ F.unitPlaces := by positivity
  rw [← value_mul, ← sub_mul, abs_mul, abs_of_pos hunit]

/-- A fraction is rounded to the closest magnitude. -/
lemma isClosest_of_ofRatio? (hF : 1 < F.precision) (h : ofRatio? F r = some m) :
    m.IsClosest r.toRat := by
  have hunit : (0 : ℚ) < 2 ^ F.unitPlaces := by positivity
  have hn := (shifted F r).isNearest_roundHalfEven
  rw [toRat_shifted] at hn
  have hunits : m.units = (shifted F r).roundHalfEven * 2 ^ shiftOf F r := units_of_ofRatio? h
  have hunits' : (m.units : ℚ) = (shifted F r).roundHalfEven * 2 ^ shiftOf F r := by
    exact_mod_cast hunits
  constructor
  · intro m'
    obtain ⟨hle, -⟩ := abs_sub_steps_le (shiftOf_eq_zero_or_le F r) hn m'
    rwa [← hunits', ← abs_sub_value_mul, ← abs_sub_value_mul,
      mul_le_mul_iff_of_pos_right hunit] at hle
  · intro m' hne htie
    obtain ⟨-, heven⟩ := abs_sub_steps_le (shiftOf_eq_zero_or_le F r) hn m'
    apply even_significand_of_ofRatio? hF h
    apply heven
    · intro hsame
      exact hne (units_injective (hsame.trans hunits.symm))
    · rw [← hunits', ← abs_sub_value_mul, ← abs_sub_value_mul, htie]

/-! ## Midpoints -/

/-- The number halfway from a magnitude to the next number of steps. -/
def midpoint (m : Magnitude F) : Magnitude F.halved where
  significand := 2 * m.significand + 1
  shift := m.shift
  significand_lt := by
    have hlt := m.significand_lt
    have hdouble : Nat.pow 2 F.halved.precision = Nat.pow 2 F.precision * 2 := rfl
    omega
  shift_le := m.shift_le
  normal := by
    intro hpos
    have hprecision := F.precision_pos
    have hnormal := m.normal hpos
    have hdouble : Nat.pow 2 (F.halved.precision - 1) = Nat.pow 2 (F.precision - 1) * 2 := by
      rw [Nat.pow_eq, Nat.pow_eq, ← pow_succ]
      congr 1
      exact (Nat.sub_add_cancel hprecision).symm
    omega

lemma value_midpoint_mul (m : Magnitude F) :
    m.midpoint.value * 2 ^ F.unitPlaces = (m.significand + 1 / 2) * 2 ^ m.shift := by
  have hunits : (m.midpoint.units : ℚ) = (2 * m.significand + 1 : ℕ) * 2 ^ m.shift :=
    m.midpoint.cast_units
  have hplaces : (2 : ℚ) ^ F.halved.unitPlaces = 2 ^ F.unitPlaces * 2 :=
    pow_succ 2 F.unitPlaces
  rw [value_eq, hunits, hplaces]
  push_cast
  field_simp

/-- The midpoint lies half a step behind a magnitude. -/
lemma two_mul_value_midpoint (m : Magnitude F) :
    2 * m.midpoint.value = m.value + (m.units + 2 ^ m.shift : ℕ) / 2 ^ F.unitPlaces := by
  have hunit : (0 : ℚ) < 2 ^ F.unitPlaces := by positivity
  rw [value_eq m, ← add_div, eq_div_iff hunit.ne', mul_assoc, value_midpoint_mul]
  push_cast
  rw [cast_units]
  ring

lemma value_lt_midpoint (m : Magnitude F) : m.value < m.midpoint.value := by
  have hpos : (0 : ℚ) < 2 ^ m.shift / 2 ^ F.unitPlaces := by positivity
  have hhalf := m.two_mul_value_midpoint
  rw [Nat.cast_add, add_div, ← value_eq] at hhalf
  push_cast at hhalf
  linarith

/-- A number before the midpoint behind a magnitude is not rounded above the magnitude. -/
lemma rounded_le_of_lt_midpoint (h : r.toRat < m.midpoint.value) : rounded F r ≤ m.units := by
  have hstep : (0 : ℚ) < 2 ^ m.shift := by positivity
  have hsignificand : (m.significand : ℚ) + 1 ≤ 2 ^ F.precision := by
    exact_mod_cast m.significand_lt
  have hlt : r.toRat * 2 ^ F.unitPlaces < (m.significand + 1 / 2) * 2 ^ m.shift := by
    rw [← value_midpoint_mul]
    exact mul_lt_mul_of_pos_right h (by positivity)
  by_cases hstart : m.shift = 0 ∨
      (2 : ℚ) ^ (F.precision - 1 + m.shift) ≤ r.toRat * 2 ^ F.unitPlaces
  · obtain ⟨n, hn⟩ := exists_isNearest_steps F r m.shift
    have hend : r.toRat * 2 ^ F.unitPlaces ≤ 2 ^ (F.precision + m.shift) := by
      rw [pow_add]
      apply hlt.le.trans
      exact mul_le_mul_of_nonneg_right (by linarith) hstep.le
    rw [rounded_eq hstart hend hn]
    apply Nat.mul_le_mul_right
    have hhalf := (abs_le.mp hn.abs_sub_le_half).1
    rw [← div_lt_iff₀ hstep] at hlt
    have hcast : (n : ℚ) < m.significand + 1 := by linarith
    exact Nat.lt_succ_iff.mp (by exact_mod_cast hcast)
  · -- Before the stretch nothing is rounded above its start.
    rw [not_or, not_le] at hstart
    obtain ⟨hshift, hbefore⟩ := hstart
    have hnormal := m.shift_eq_zero_or_le.resolve_left hshift
    have hexact := rounded_ofUnits_steps (F := F) (e := m.shift) (.inr le_rfl)
      (Nat.pow_le_pow_right Nat.two_pos (Nat.sub_le F.precision 1))
    calc rounded F r ≤ rounded F (ofUnits F (2 ^ (F.precision - 1) * 2 ^ m.shift)) := by
          apply rounded_mono
          rw [toRat_ofUnits, le_div_iff₀ (by positivity), ← pow_add]
          exact_mod_cast hbefore.le
      _ = 2 ^ (F.precision - 1) * 2 ^ m.shift := hexact
      _ ≤ m.units := Nat.mul_le_mul_right _ hnormal

/-- A number behind the midpoint behind a magnitude is rounded above the magnitude. -/
lemma lt_rounded_of_midpoint_lt (h : m.midpoint.value < r.toRat) : m.units < rounded F r := by
  have hstep : (0 : ℚ) < 2 ^ m.shift := by positivity
  have hsignificand : (m.significand : ℚ) + 1 ≤ 2 ^ F.precision := by
    exact_mod_cast m.significand_lt
  have hlt : (m.significand + 1 / 2) * 2 ^ m.shift < r.toRat * 2 ^ F.unitPlaces := by
    rw [← value_midpoint_mul]
    exact mul_lt_mul_of_pos_right h (by positivity)
  rcases le_or_gt (r.toRat * 2 ^ F.unitPlaces) ((m.significand + 1) * 2 ^ m.shift) with hle | hgt
  · have hstart : m.shift = 0 ∨
        (2 : ℚ) ^ (F.precision - 1 + m.shift) ≤ r.toRat * 2 ^ F.unitPlaces := by
      apply m.shift_eq_zero_or_le.imp_right
      intro hnormal
      have hnormal' : (2 : ℚ) ^ (F.precision - 1) ≤ m.significand := by exact_mod_cast hnormal
      rw [pow_add]
      apply le_trans _ hlt.le
      exact mul_le_mul_of_nonneg_right (by linarith) hstep.le
    have hend : r.toRat * 2 ^ F.unitPlaces ≤ 2 ^ (F.precision + m.shift) := by
      rw [pow_add]
      exact hle.trans (mul_le_mul_of_nonneg_right hsignificand hstep.le)
    obtain ⟨n, hn⟩ := exists_isNearest_steps F r m.shift
    rw [rounded_eq hstart hend hn]
    apply Nat.mul_lt_mul_of_pos_right _ (Nat.two_pow_pos _)
    have hhalf := (abs_le.mp hn.abs_sub_le_half).2
    rw [← lt_div_iff₀ hstep] at hlt
    have hcast : (m.significand : ℚ) < n := by linarith
    exact_mod_cast hcast
  · have hexact := rounded_ofUnits_steps (F := F) (k := m.significand + 1)
      (m.shift_eq_zero_or_le.imp_right fun hle => hle.trans (Nat.le_succ _)) m.significand_lt
    calc m.units < (m.significand + 1) * 2 ^ m.shift :=
          Nat.mul_lt_mul_of_pos_right (Nat.lt_succ_self _) (Nat.two_pow_pos _)
      _ = rounded F (ofUnits F ((m.significand + 1) * 2 ^ m.shift)) := hexact.symm
      _ ≤ rounded F r := by
          apply rounded_mono
          rw [toRat_ofUnits, div_le_iff₀ (by positivity)]
          exact_mod_cast hgt.le

/-! ## The greatest magnitude -/

/-- The greatest magnitude of a format. -/
def greatest : Magnitude F where
  significand := Nat.pow 2 F.precision - 1
  shift := F.maxShift
  significand_lt := Nat.sub_lt (two_power_pos _) Nat.one_pos
  shift_le := le_rfl
  normal := fun _ => Nat.le_sub_one_of_lt (two_power_pred_lt F)

lemma units_le_greatest (m : Magnitude F) : m.units ≤ (greatest : Magnitude F).units :=
  Nat.mul_le_mul (Nat.le_sub_one_of_lt m.significand_lt)
    (Nat.pow_le_pow_right Nat.two_pos m.shift_le)

lemma significand_greatest_add_one (F : Format) :
    (greatest : Magnitude F).significand + 1 = 2 ^ F.precision :=
  Nat.sub_add_cancel Nat.one_le_two_pow

/-- A step behind the greatest magnitude there is a power of two. -/
lemma units_greatest_add (F : Format) :
    (greatest : Magnitude F).units + 2 ^ F.maxShift = 2 ^ (F.precision + F.maxShift) := by
  calc (greatest : Magnitude F).units + 2 ^ F.maxShift
      = ((greatest : Magnitude F).significand + 1) * 2 ^ F.maxShift := units_add_step _
    _ = 2 ^ (F.precision + F.maxShift) := by rw [significand_greatest_add_one, pow_add]

/-- The midpoint behind the greatest magnitude, half a step before the power of two. -/
lemma value_midpoint_greatest_mul (F : Format) :
    (greatest : Magnitude F).midpoint.value * 2 ^ F.unitPlaces
      = ((2 ^ F.precision : ℕ) - 1 / 2) * 2 ^ F.maxShift := by
  rw [value_midpoint_mul, ← significand_greatest_add_one]
  push_cast
  rw [show (greatest : Magnitude F).shift = F.maxShift from rfl]
  ring

/-- The midpoint behind the greatest magnitude as a difference of powers of two. -/
lemma value_midpoint_greatest {j k : ℕ} (hk : F.precision + F.maxShift = k + F.unitPlaces)
    (hj : F.maxShift = j + 1 + F.unitPlaces) :
    (greatest : Magnitude F).midpoint.value = 2 ^ k - 2 ^ j := by
  have hunit : (0 : ℚ) < 2 ^ F.unitPlaces := by positivity
  apply mul_right_cancel₀ hunit.ne'
  rw [value_midpoint_greatest_mul]
  push_cast
  calc ((2 : ℚ) ^ F.precision - 1 / 2) * 2 ^ F.maxShift
      = 2 ^ (F.precision + F.maxShift) - 1 / 2 * 2 ^ F.maxShift := by rw [sub_mul, pow_add]
    _ = (2 ^ k - 2 ^ j) * 2 ^ F.unitPlaces := by
        rw [hk, hj, pow_add, pow_add, pow_succ]
        ring

/-- Only the greatest magnitude has no magnitude behind it. -/
lemma eq_greatest (h : 2 ^ (F.precision + F.maxShift) ≤ m.units + 2 ^ m.shift) : m = greatest := by
  apply units_injective
  rcases m.units_le_greatest.lt_or_eq with hlt | heq
  · have hle := units_add_step_le hlt
    have hbehind := units_greatest_add F
    have hpos := Nat.two_pow_pos F.maxShift
    omega
  · exact heq

/-- The midpoint behind the greatest magnitude is halfway to a power of two. -/
lemma two_mul_value_midpoint_greatest {k : ℕ}
    (hk : F.precision + F.maxShift = k + F.unitPlaces) :
    2 * (greatest : Magnitude F).midpoint.value = (greatest : Magnitude F).value + 2 ^ k := by
  rw [two_mul_value_midpoint, show (greatest : Magnitude F).shift = F.maxShift from rfl,
    units_greatest_add, hk]
  push_cast
  rw [pow_add, mul_div_cancel_right₀ _ (by positivity)]

lemma ofRatio?_eq_none_iff_lt_rounded :
    ofRatio? F r = none ↔ (greatest : Magnitude F).units < rounded F r := by
  constructor
  · intro h
    exact (units_lt _).trans_le (le_rounded_of_ofRatio?_eq_none h)
  · intro h
    rcases hround : ofRatio? F r with _ | m
    · rfl
    · have hunits := units_of_ofRatio? hround
      have hle := m.units_le_greatest
      omega

/-- The midpoint behind the greatest magnitude is rounded above it, since a power of two is
even. -/
lemma lt_rounded_of_eq_midpoint (h : r.toRat = (greatest : Magnitude F).midpoint.value) :
    (greatest : Magnitude F).units < rounded F r := by
  have hstep : (0 : ℚ) < 2 ^ F.maxShift := by positivity
  have hunits : r.toRat * 2 ^ F.unitPlaces = ((2 ^ F.precision : ℕ) - 1 / 2) * 2 ^ F.maxShift := by
    rw [h, value_midpoint_greatest_mul]
  have hnormal : (2 : ℚ) ^ (F.precision - 1) + 1 ≤ 2 ^ F.precision := by
    exact_mod_cast two_power_pred_lt F
  have hround : rounded F r = 2 ^ F.precision * 2 ^ F.maxShift := by
    apply rounded_eq
    · right
      rw [hunits, pow_add]
      push_cast
      exact mul_le_mul_of_nonneg_right (by linarith) hstep.le
    · rw [hunits, pow_add]
      push_cast
      exact mul_le_mul_of_nonneg_right (by linarith) hstep.le
    · rw [hunits, mul_div_cancel_right₀ _ hstep.ne']
      exact IsNearest.sub_half (even_two.pow_of_ne_zero F.precision_pos.ne')
  rw [hround, ← pow_add]
  exact units_lt _

/-- A fraction is beyond the range of a format from the midpoint behind the greatest magnitude
on. -/
lemma ofRatio?_eq_none_iff :
    ofRatio? F r = none ↔ (greatest : Magnitude F).midpoint.value ≤ r.toRat := by
  rw [ofRatio?_eq_none_iff_lt_rounded]
  rcases lt_trichotomy r.toRat (greatest : Magnitude F).midpoint.value with hlt | heq | hgt
  · exact iff_of_false (Nat.not_lt.mpr (rounded_le_of_lt_midpoint hlt)) (not_le.mpr hlt)
  · exact iff_of_true (lt_rounded_of_eq_midpoint heq) heq.ge
  · exact iff_of_true (lt_rounded_of_midpoint_lt hgt) hgt.le

/-! ## Adjacent magnitudes -/

/-- The second magnitude is the next one behind the first. -/
structure Adjacent (a b : Magnitude F) : Prop where
  /-- It lies behind the first. -/
  lt : a.value < b.value
  /-- There is nothing between them. -/
  le_or_le : ∀ c : Magnitude F, c.value ≤ a.value ∨ b.value ≤ c.value

/-- Halfway between two adjacent magnitudes, or between the greatest one and a number beyond the
range. -/
def IsHalfway (F : Format) (beyond q : ℚ) : Prop :=
  (∃ a b : Magnitude F, Adjacent a b ∧ 2 * q = a.value + b.value) ∨
    2 * q = (greatest : Magnitude F).value + beyond

/-- A step behind a magnitude there is the next one, unless the range ends there. -/
lemma exists_units_eq (m : Magnitude F) :
    (∃ c : Magnitude F, c.units = m.units + 2 ^ m.shift) ∨ m = greatest := by
  have hexact := rounded_ofUnits_steps (F := F) (k := m.significand + 1)
    (m.shift_eq_zero_or_le.imp_right fun hle => hle.trans (Nat.le_succ _)) m.significand_lt
  rw [← units_add_step] at hexact
  rcases hround : ofRatio? F (ofUnits F (m.units + 2 ^ m.shift)) with _ | c
  · right
    apply eq_greatest
    rw [← hexact]
    exact le_rounded_of_ofRatio?_eq_none hround
  · exact .inl ⟨c, (units_of_ofRatio? hround).trans hexact⟩

lemma adjacent_of_units_eq (h : b.units = a.units + 2 ^ a.shift) : Adjacent a b := by
  have hpos := Nat.two_pow_pos a.shift
  refine ⟨value_lt_value_iff.mpr (by omega), ?_⟩
  intro c
  rw [value_le_value_iff, value_le_value_iff]
  rcases Nat.lt_or_ge a.units c.units with hlt | hge
  · right
    rw [h]
    exact units_add_step_le hlt
  · exact .inl hge

/-- Every midpoint is halfway to what is next. -/
lemma isHalfway_midpoint {k : ℕ} (hk : F.precision + F.maxShift = k + F.unitPlaces)
    (m : Magnitude F) : IsHalfway F (2 ^ k) m.midpoint.value := by
  rcases m.exists_units_eq with ⟨c, hc⟩ | rfl
  · left
    refine ⟨m, c, adjacent_of_units_eq hc, ?_⟩
    rw [two_mul_value_midpoint, ← hc, value_eq c]
  · exact .inr (two_mul_value_midpoint_greatest hk)

/-- Of two adjacent magnitudes only one has an even significand. -/
lemma Adjacent.not_even (h : Adjacent a b) (ha : Even a.significand) : ¬ Even b.significand := by
  have hne : a.significand + 1 ≠ Nat.pow 2 F.precision := by
    intro heq
    have heven : Even (Nat.pow 2 F.precision) := even_two.pow_of_ne_zero F.precision_pos.ne'
    rw [← heq, Nat.even_add_one] at heven
    exact heven ha
  have hlt := a.significand_lt
  -- The next significand has the same shift, so the magnitude with it is the adjacent one.
  let c : Magnitude F := ⟨a.significand + 1, a.shift, by omega, a.shift_le,
    fun hpos => (a.normal hpos).trans (Nat.le_succ _)⟩
  have hc : c.units = a.units + 2 ^ a.shift := a.units_add_step.symm
  have hle := units_add_step_le (value_lt_value_iff.mp h.lt)
  have hge : b.units ≤ c.units := by
    have hpos := Nat.two_pow_pos a.shift
    rcases h.le_or_le c with hbefore | hbehind
    · rw [value_le_value_iff] at hbefore
      omega
    · exact value_le_value_iff.mp hbehind
  obtain rfl : b = c := units_injective (by omega)
  rw [Nat.even_add_one, not_not]
  exact ha

/-- The closest magnitude to a number halfway between two adjacent ones is one of them, and has an
even significand. -/
lemma IsClosest.of_halfway (h : m.IsClosest q) (hab : Adjacent a b)
    (hq : 2 * q = a.value + b.value) : (m = a ∨ m = b) ∧ Even m.significand := by
  have hlt := hab.lt
  have ha : |q - a.value| = (b.value - a.value) / 2 := by
    rw [abs_of_nonneg (by linarith)]
    linarith
  have hb : |q - b.value| = (b.value - a.value) / 2 := by
    rw [abs_of_nonpos (by linarith)]
    linarith
  have hle := h.le a
  rw [ha, abs_le] at hle
  rcases hab.le_or_le m with hbefore | hbehind
  · obtain rfl : m = a := value_injective (by linarith)
    exact ⟨.inl rfl, h.even b (fun hsame => hlt.ne' (by rw [hsame])) (ha.trans hb.symm)⟩
  · obtain rfl : m = b := value_injective (by linarith)
    exact ⟨.inr rfl, h.even a (fun hsame => hlt.ne (by rw [hsame])) (hb.trans ha.symm)⟩

/-! ## Rounding twice -/

/-- Fractions that are rounded to at most the same magnitudes are rounded alike. -/
lemma ofRatio?_eq_of_le_iff {r r' : Ratio}
    (h : ∀ m : Magnitude F, rounded F r ≤ m.units ↔ rounded F r' ≤ m.units) :
    ofRatio? F r = ofRatio? F r' := by
  rcases hround : ofRatio? F r with _ | m
  · rw [ofRatio?_eq_none_iff_lt_rounded, ← Nat.not_le, h, Nat.not_le] at hround
    exact (ofRatio?_eq_none_iff_lt_rounded.mpr hround).symm
  · have hunits := units_of_ofRatio? hround
    have hle : rounded F r' ≤ m.units := (h m).mp hunits.ge
    rcases hround' : ofRatio? F r' with _ | m'
    · rw [ofRatio?_eq_none_iff_lt_rounded] at hround'
      have := m.units_le_greatest
      omega
    · have hunits' := units_of_ofRatio? hround'
      have hge : rounded F r ≤ m'.units := (h m').mpr hunits'.ge
      rw [units_injective (show m.units = m'.units by omega)]

variable {G : Format}

/-- A midpoint is not changed by rounding to a format that holds all midpoints. -/
lemma toRat_ofUnits_rounded_midpoint (hG : F.halved.FitsIn G) (m : Magnitude F)
    (h : r.toRat = m.midpoint.value) : (ofUnits G (rounded G r)).toRat = m.midpoint.value := by
  obtain ⟨n, hn, hvalue⟩ := exists_ofRatio?_toRatio hG m.midpoint
  have hround : ofRatio? G r = some n := (ofRatio?_congr h).trans hn
  rw [← units_of_ofRatio? hround, ← toRatio_eq_ofUnits]
  exact hvalue

/-- The first of two roundings does not carry a number across a midpoint. -/
lemma toRat_lt_midpoint_iff (hG : F.halved.FitsIn G) (m : Magnitude F)
    (hmid : (ofUnits G (rounded G r)).toRat ≠ m.midpoint.value) :
    (ofUnits G (rounded G r)).toRat < m.midpoint.value ↔ r.toRat < m.midpoint.value := by
  have hkept := toRat_ofUnits_rounded_midpoint hG m (r := m.midpoint.toRatio) rfl
  constructor
  · intro hlt
    by_contra hge
    rw [not_lt] at hge
    have hle := toRat_ofUnits_rounded_mono (F := G) (a := m.midpoint.toRatio) hge
    rw [hkept] at hle
    exact absurd hlt (not_lt.mpr hle)
  · intro hlt
    have hle := toRat_ofUnits_rounded_mono (F := G) (b := m.midpoint.toRatio) hlt.le
    rw [hkept] at hle
    exact lt_of_le_of_ne hle hmid

lemma rounded_le_units_iff (hmid : r.toRat ≠ m.midpoint.value) :
    rounded F r ≤ m.units ↔ r.toRat < m.midpoint.value := by
  rcases hmid.lt_or_gt with hlt | hgt
  · exact iff_of_true (rounded_le_of_lt_midpoint hlt) hlt
  · exact iff_of_false (Nat.not_le.mpr (lt_rounded_of_midpoint_lt hgt)) (not_lt.mpr hgt.le)

/-- By way of a format that holds all midpoints a fraction is rounded as it is at once, unless the
first rounding hits a midpoint. -/
lemma ofRatio?_ofUnits_rounded (hG : F.halved.FitsIn G)
    (hmid : ∀ m : Magnitude F, (ofUnits G (rounded G r)).toRat ≠ m.midpoint.value) :
    ofRatio? F (ofUnits G (rounded G r)) = ofRatio? F r := by
  apply ofRatio?_eq_of_le_iff
  intro m
  have hmid' : r.toRat ≠ m.midpoint.value := fun h =>
    hmid m (toRat_ofUnits_rounded_midpoint hG m h)
  rw [rounded_le_units_iff (hmid m), rounded_le_units_iff hmid',
    toRat_lt_midpoint_iff hG m (hmid m)]

end Magnitude

end LineShell
