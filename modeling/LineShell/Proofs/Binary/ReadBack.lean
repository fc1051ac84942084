import LineShell.Proofs.Binary.Nearest

/-!
# Reading back by way of `double`

A text of type `float` is rounded twice, to a `double` and then to a `float`. `roundedTwice` is the
result in units, and `readsBackSingle_iff` says that a decimal reads back as a number exactly if it
is rounded to its units.

Between two powers of two the steps of both formats are even, and on such a stretch rounding twice
is rounding to the nearest step by way of finer steps (`IsNearestVia`, `roundedTwice_eq`).

* **Symmetry** (`roundedTwice_eq_of_abs_sub_le`): what is rounded to a number inside a stretch lies
  symmetrically around the number, so with one fraction all nearer ones are rounded to it.
* **Powers of two** (`roundedTwice_eq_two_pow_iff`): a power of two lies between two stretches, and
  twice as much is rounded to it from above as from below. The bounds are given exactly.
* **Nearness** (`roundedTwice_eq_of_near`): what differs from a number by at most one part in
  `2 ^ 27` is rounded to it.
-/

namespace LineShell

/-! ## The nearest number by way of finer steps -/

namespace IsNearest

lemma exists_of_nonneg {q : ℚ} (hq : 0 ≤ q) : ∃ n, IsNearest q n := by
  obtain ⟨r, rfl⟩ := Ratio.exists_toRat_eq hq
  exact ⟨_, r.isNearest_roundHalfEven⟩

/-- A half above an even number is rounded down. -/
lemma add_half {n : ℕ} (hn : Even n) : IsNearest (n + 1 / 2) n := by
  right
  rw [add_sub_cancel_left, abs_of_pos (by norm_num)]
  exact ⟨rfl, hn⟩

/-- A half below an even number is rounded up. -/
lemma sub_half {n : ℕ} (hn : Even n) : IsNearest (n - 1 / 2) n := by
  right
  rw [sub_sub_cancel_left, abs_neg, abs_of_pos (by norm_num)]
  exact ⟨rfl, hn⟩

/-- Numbers up to a half above an even number are not rounded above it. -/
lemma le_iff {q : ℚ} {n k : ℕ} (h : IsNearest q n) (hk : Even k) : n ≤ k ↔ q ≤ k + 1 / 2 := by
  constructor
  · intro hle
    have hcast : (n : ℚ) ≤ k := by exact_mod_cast hle
    have hhalf := (abs_le.mp h.abs_sub_le_half).2
    linarith
  · exact h.mono (add_half hk)

/-- Numbers down to a half below an even number are not rounded below it. -/
lemma ge_iff {q : ℚ} {n k : ℕ} (h : IsNearest q n) (hk : Even k) : k ≤ n ↔ k - 1 / 2 ≤ q := by
  constructor
  · intro hle
    have hcast : (k : ℚ) ≤ n := by exact_mod_cast hle
    have hhalf := (abs_le.mp h.abs_sub_le_half).1
    linarith
  · exact (sub_half hk).mono h

end IsNearest

/-- The natural number is nearest to the multiple of `1 / fine` that is nearest to the rational
number. -/
def IsNearestVia (fine : ℕ) (q : ℚ) (n : ℕ) : Prop :=
  ∃ k : ℕ, IsNearest (q * fine) k ∧ IsNearest (k / fine) n

namespace IsNearestVia

variable {fine n s : ℕ} {q : ℚ}

lemma exists_of_nonneg (fine : ℕ) (hq : 0 ≤ q) : ∃ n, IsNearestVia fine q n := by
  obtain ⟨k, hk⟩ := IsNearest.exists_of_nonneg (q := q * fine) (by positivity)
  obtain ⟨n, hn⟩ := IsNearest.exists_of_nonneg (q := (k : ℚ) / fine) (by positivity)
  exact ⟨n, k, hk, hn⟩

lemma natCast (hfine : 0 < fine) (n : ℕ) : IsNearestVia fine n n := by
  refine ⟨n * fine, by exact_mod_cast IsNearest.natCast (n * fine), ?_⟩
  push_cast
  rw [mul_div_cancel_right₀ _ (by positivity)]
  exact IsNearest.natCast n

lemma abs_div_sub_le {k : ℕ} (hfine : 0 < fine) (h : IsNearest (q * fine) k) :
    |(k : ℚ) / fine - q| ≤ 1 / (2 * fine) := by
  have hpos : (0 : ℚ) < fine := by exact_mod_cast hfine
  have hsub : (k : ℚ) / fine - q = (k - q * fine) / fine := by
    field_simp
  rw [hsub, abs_div, abs_of_pos hpos, abs_sub_comm, ← div_div]
  exact div_le_div_of_nonneg_right h.abs_sub_le_half hpos.le

/-- Two roundings go hardly farther than one. -/
lemma abs_sub_le (hfine : 0 < fine) (h : IsNearestVia fine q n) :
    |q - n| ≤ 1 / 2 + 1 / (2 * fine) := by
  obtain ⟨k, hk, hn⟩ := h
  have hstep := abs_div_sub_le hfine hk
  have hhalf := hn.abs_sub_le_half
  rw [abs_le] at hstep hhalf ⊢
  constructor
  · linarith
  · linarith

/-- What is near enough is rounded to a number, whatever the finer steps. -/
lemma of_abs_sub_le (hfine : 4 ≤ fine) (h : |q - n| ≤ 1 / 4) (hq : 0 ≤ q) :
    IsNearestVia fine q n := by
  obtain ⟨k, hk⟩ := IsNearest.exists_of_nonneg (q := q * fine) (by positivity)
  refine ⟨k, hk, .inl ?_⟩
  have hstep := abs_div_sub_le (by omega) hk
  have hsmall : 1 / (2 * (fine : ℚ)) ≤ 1 / 8 := by
    apply one_div_le_one_div_of_le (by norm_num)
    have : (4 : ℚ) ≤ fine := by exact_mod_cast hfine
    linarith
  rw [abs_le] at hstep h
  rw [abs_lt]
  constructor
  · linarith
  · linarith

/-- Turning the line around a positive number turns nearest numbers. -/
lemma reflect (hfine : 0 < fine) (hs : 0 < s) (h : IsNearestVia fine q s) :
    IsNearestVia fine (2 * s - q) s := by
  obtain ⟨k, hk, hn⟩ := h
  have hpos : (0 : ℚ) < fine := by exact_mod_cast hfine
  have hle : k ≤ 2 * (s * fine) := by
    have hone : (1 : ℚ) ≤ s := by exact_mod_cast hs
    have hhalf := (abs_le.mp hn.abs_sub_le_half).2
    have hle : (k : ℚ) / fine ≤ 2 * s := by linarith
    rw [div_le_iff₀ hpos, mul_assoc] at hle
    exact_mod_cast hle
  refine ⟨2 * (s * fine) - k, ?_, ?_⟩
  · have hturned := hk.reflect hle
    rwa [Nat.cast_mul, ← mul_assoc, ← sub_mul] at hturned
  · have hturned := hn.reflect (show s ≤ 2 * s by omega)
    rw [show 2 * s - s = s by omega] at hturned
    rwa [Nat.cast_sub hle, Nat.cast_mul, Nat.cast_mul, Nat.cast_ofNat, sub_div, ← mul_assoc,
      mul_div_cancel_right₀ _ hpos.ne']

/-- Half a step and half a fine step above an even number are rounded down. -/
lemma le_iff (hfine : 0 < fine) (hfour : 4 ∣ fine) (h : IsNearestVia fine q n) (hs : Even s) :
    n ≤ s ↔ q ≤ s + 1 / 2 + 1 / (2 * fine) := by
  obtain ⟨k, hk, hn⟩ := h
  obtain ⟨quarter, rfl⟩ := hfour
  have hpos : (0 : ℚ) < (4 * quarter : ℕ) := by exact_mod_cast hfine
  have heven : Even (s * (4 * quarter) + 2 * quarter) :=
    (hs.mul_right _).add (even_two.mul_right _)
  have hcoarse : (s + 1 / 2 : ℚ) * (4 * quarter : ℕ) = (s * (4 * quarter) + 2 * quarter : ℕ) := by
    push_cast
    ring
  have hbound : ((s * (4 * quarter) + 2 * quarter : ℕ) + 1 / 2 : ℚ) / (4 * quarter : ℕ)
      = s + 1 / 2 + 1 / (2 * (4 * quarter : ℕ)) := by
    rw [← hcoarse, add_div, mul_div_cancel_right₀ _ hpos.ne', div_div]
  rw [hn.le_iff hs, div_le_iff₀ hpos, hcoarse, Nat.cast_le, hk.le_iff heven, ← le_div_iff₀ hpos,
    hbound]

/-- Half a step and half a fine step below an even number are rounded up. -/
lemma ge_iff (hfine : 0 < fine) (hfour : 4 ∣ fine) (h : IsNearestVia fine q n) (hs : Even s)
    (hpositive : 0 < s) : s ≤ n ↔ s - 1 / 2 - 1 / (2 * fine) ≤ q := by
  obtain ⟨k, hk, hn⟩ := h
  obtain ⟨quarter, rfl⟩ := hfour
  have hpos : (0 : ℚ) < (4 * quarter : ℕ) := by exact_mod_cast hfine
  have hle : 2 * quarter ≤ s * (4 * quarter) := by nlinarith
  have heven : Even (s * (4 * quarter) - 2 * quarter) :=
    (Nat.even_sub hle).mpr (iff_of_true (hs.mul_right _) (even_two.mul_right _))
  have hcoarse : (s - 1 / 2 : ℚ) * (4 * quarter : ℕ) = (s * (4 * quarter) - 2 * quarter : ℕ) := by
    rw [Nat.cast_sub hle]
    push_cast
    ring
  have hbound : ((s * (4 * quarter) - 2 * quarter : ℕ) - 1 / 2 : ℚ) / (4 * quarter : ℕ)
      = s - 1 / 2 - 1 / (2 * (4 * quarter : ℕ)) := by
    rw [← hcoarse, sub_div, mul_div_cancel_right₀ _ hpos.ne', div_div]
  rw [hn.ge_iff hs, le_div_iff₀ hpos, hcoarse, Nat.cast_le, hk.ge_iff heven, ← div_le_iff₀ hpos,
    hbound]

end IsNearestVia

/-! ## Rounding twice -/

namespace Magnitude

open Format (single double)

variable {m : Magnitude single} {r a b : Ratio}

/-- So many units of a format as a fraction. -/
def ofUnits (F : Format) (n : ℕ) : Ratio :=
  ⟨n, 2 ^ F.unitPlaces, Nat.two_pow_pos _⟩

lemma toRatio_eq_ofUnits {F : Format} (m : Magnitude F) : m.toRatio = ofUnits F m.units :=
  rfl

/-- The number of units of type `float` to which a fraction is rounded by way of `double`. -/
def roundedTwice (r : Ratio) : ℕ :=
  rounded single (ofUnits double (rounded double r))

lemma toRat_ofUnits (F : Format) (n : ℕ) : (ofUnits F n).toRat = n / 2 ^ F.unitPlaces := by
  unfold ofUnits Ratio.toRat
  push_cast
  rfl

/-- The values that two numbers are rounded to are in their order. -/
lemma toRat_ofUnits_rounded_mono {F : Format} (h : a.toRat ≤ b.toRat) :
    (ofUnits F (rounded F a)).toRat ≤ (ofUnits F (rounded F b)).toRat := by
  have hle : rounded F a ≤ rounded F b := rounded_mono h
  rw [toRat_ofUnits, toRat_ofUnits]
  exact div_le_div_of_nonneg_right (by exact_mod_cast hle) (by positivity)

/-- Rounding twice keeps the order of the values. -/
lemma roundedTwice_mono (h : a.toRat ≤ b.toRat) : roundedTwice a ≤ roundedTwice b :=
  rounded_mono (toRat_ofUnits_rounded_mono h)

/-- What is too great for a format is too great for every format that fits into it. -/
lemma ofRatio?_ofUnits_eq_none {F G : Format} (h : F.FitsIn G) {n : ℕ}
    (hn : Nat.pow 2 (G.precision + G.maxShift) ≤ n) : ofRatio? F (ofUnits G n) = none := by
  obtain ⟨hprecision, hunitPlaces, hmaxShift⟩ := h
  apply ofRatio?_eq_none
  unfold wholeUnits ofUnits
  dsimp only
  rw [Nat.le_div_iff_mul_le (Nat.two_pow_pos _)]
  calc Nat.pow 2 (F.precision + F.maxShift) * Nat.pow 2 G.unitPlaces
      = Nat.pow 2 (F.precision + F.maxShift + G.unitPlaces) := (Nat.pow_add 2 _ _).symm
    _ ≤ Nat.pow 2 (G.precision + G.maxShift + F.unitPlaces) :=
        Nat.pow_le_pow_right Nat.two_pos (by omega)
    _ = Nat.pow 2 (G.precision + G.maxShift) * Nat.pow 2 F.unitPlaces := Nat.pow_add 2 _ _
    _ ≤ n * Nat.pow 2 F.unitPlaces := Nat.mul_le_mul_right _ hn

end Magnitude

open Magnitude in
/-- The second of two roundings starts from the units of the first one, also beyond the range. -/
lemma Binary.convert_ofRatio {F G : Format} (h : F.FitsIn G) (negative : Bool) (r : Ratio) :
    (ofRatio G negative r).convert F = ofRatio F negative (ofUnits G (rounded G r)) := by
  rcases hround : ofRatio? G r with _ | k
  · have hnone := ofRatio?_ofUnits_eq_none h (le_rounded_of_ofRatio?_eq_none hround)
    unfold ofRatio
    rw [hround, hnone]
    rfl
  · rw [ofRatio_eq_finite_iff.mpr ⟨rfl, hround⟩, ← units_of_ofRatio? hround,
      ← toRatio_eq_ofUnits]
    rfl

open Magnitude in
/-- A fraction rounded twice is a number if it has its sign and is rounded to its units. -/
lemma Binary.convert_ofRatio_eq_finite_iff {F G : Format} (h : F.FitsIn G)
    {negative negative' : Bool} {r : Ratio} {m : Magnitude F} :
    (ofRatio G negative r).convert F = .finite negative' m ↔
      negative = negative' ∧ rounded F (ofUnits G (rounded G r)) = m.units := by
  rw [convert_ofRatio h, ofRatio_eq_finite_iff, ofRatio?_eq_some_iff]

namespace Magnitude

open Format (single double)

variable {m : Magnitude single} {r a b : Ratio}

/-- A decimal with a sign is read as a number if it is rounded to its units. -/
lemma convert_ofDecimal_eq_finite_iff {negative negative' : Bool} {d : Decimal} :
    (Binary.ofDecimal double negative d).convert single = .finite negative' m ↔
      negative = negative' ∧ roundedTwice d.toRatio = m.units := by
  rw [Binary.ofDecimal_eq_ofRatio]
  exact Binary.convert_ofRatio_eq_finite_iff Format.single_fitsIn_double

/-- A decimal reads back as a number if it is rounded to its units. -/
lemma readsBackSingle_iff {d : Decimal} :
    m.readsBackSingle d = true ↔ roundedTwice d.toRatio = m.units := by
  unfold readsBackSingle
  rw [decide_eq_true_iff, convert_ofDecimal_eq_finite_iff]
  exact and_iff_right rfl

/-! ## Stretches of even steps -/

/-- The numbers of type `float` with this shift include all significands from `2 ^ t` up to
`2 ^ (t + 1)`. -/
structure Stretch (t k : ℕ) : Prop where
  /-- Significands keep to the precision. -/
  le : t ≤ 23
  /-- A shifted significand has all its digits. -/
  normal : k = 0 ∨ t = 23

/-- The number of fine steps, which are those of type `double`, in a step of a stretch. -/
def fineSteps (t : ℕ) : ℕ :=
  2 ^ (52 - t)

lemma fineSteps_pos (t : ℕ) : 0 < fineSteps t :=
  Nat.two_pow_pos _

lemma Stretch.four_dvd_fineSteps {t k : ℕ} (h : Stretch t k) : 4 ∣ fineSteps t := by
  have := h.le
  exact pow_dvd_pow 2 (show 2 ≤ 52 - t by omega)

lemma Stretch.four_le_fineSteps {t k : ℕ} (h : Stretch t k) : 4 ≤ fineSteps t :=
  Nat.le_of_dvd (fineSteps_pos t) h.four_dvd_fineSteps

/-- A number that is not zero lies on a stretch. -/
lemma exists_stretch (h : m.significand ≠ 0) :
    ∃ t, Stretch t m.shift ∧ 2 ^ t ≤ m.significand ∧ m.significand < 2 ^ (t + 1) := by
  have hlow : 2 ^ Nat.log2 m.significand ≤ m.significand := Nat.log2_self_le h
  have hlt : Nat.log2 m.significand < 24 := (Nat.log2_lt h).mpr m.significand_lt
  refine ⟨Nat.log2 m.significand, ⟨by omega, ?_⟩, hlow, Nat.lt_log2_self⟩
  rcases Nat.eq_zero_or_pos m.shift with hzero | hpos
  · exact .inl hzero
  · have hnormal : 23 ≤ Nat.log2 m.significand := (Nat.le_log2 h).mpr (m.normal hpos)
    omega

section Stretch

variable {t k s : ℕ} {x : ℚ}

lemma two_pow_mul_fineSteps (ht : Stretch t k) : (2 : ℚ) ^ t * fineSteps t = 2 ^ 52 := by
  have hle := ht.le
  unfold fineSteps
  push_cast
  rw [← pow_add, show t + (52 - t) = 52 by omega]

/-- On a stretch the first rounding counts fine steps. -/
lemma rounded_double_eq (ht : Stretch t k) (hx : r.toRat * 2 ^ 149 = x * 2 ^ k)
    (hlow : 2 ^ t ≤ x) (hhigh : x ≤ 2 ^ (t + 1)) {y : ℕ} (hy : IsNearest (x * fineSteps t) y) :
    rounded double r = y * 2 ^ (t + k + 873) := by
  have hle := ht.le
  -- The unit of type `double` is `925` places finer, and its significands have `52` places more
  -- than a first digit, which leaves `873`.
  have hunits : r.toRat * 2 ^ double.unitPlaces = x * 2 ^ (k + 925) := by
    calc r.toRat * 2 ^ (149 + 925) = r.toRat * 2 ^ 149 * 2 ^ 925 := by rw [pow_add, mul_assoc]
      _ = x * 2 ^ (k + 925) := by rw [hx, pow_add, mul_assoc]
  have hstep : (2 : ℚ) ^ (k + 925) = fineSteps t * 2 ^ (t + k + 873) := by
    unfold fineSteps
    push_cast
    rw [← pow_add, show 52 - t + (t + k + 873) = k + 925 by omega]
  apply rounded_eq
  · right
    rw [hunits]
    calc (2 : ℚ) ^ (52 + (t + k + 873)) = 2 ^ t * 2 ^ (k + 925) := by
          rw [← pow_add, show 52 + (t + k + 873) = t + (k + 925) by omega]
      _ ≤ x * 2 ^ (k + 925) := mul_le_mul_of_nonneg_right hlow (by positivity)
  · rw [hunits]
    calc x * 2 ^ (k + 925) ≤ 2 ^ (t + 1) * 2 ^ (k + 925) :=
          mul_le_mul_of_nonneg_right hhigh (by positivity)
      _ = (2 : ℚ) ^ (53 + (t + k + 873)) := by
          rw [← pow_add, show t + 1 + (k + 925) = 53 + (t + k + 873) by omega]
  · rw [hunits, hstep, ← mul_assoc, mul_div_cancel_right₀ _ (by positivity)]
    exact hy

/-- On a stretch the second rounding counts steps. -/
lemma rounded_single_eq (ht : Stretch t k) (hx : r.toRat * 2 ^ 149 = x * 2 ^ k)
    (hlow : 2 ^ t ≤ x) (hhigh : x ≤ 2 ^ (t + 1)) (hs : IsNearest x s) :
    rounded single r = s * 2 ^ k := by
  have hle := ht.le
  have hunits : r.toRat * 2 ^ single.unitPlaces = x * 2 ^ k := hx
  apply rounded_eq
  · rw [hunits]
    rcases ht.normal with hk | rfl
    · exact .inl hk
    · right
      calc (2 : ℚ) ^ (23 + k) = 2 ^ 23 * 2 ^ k := pow_add _ _ _
        _ ≤ x * 2 ^ k := mul_le_mul_of_nonneg_right hlow (by positivity)
  · rw [hunits]
    calc x * 2 ^ k ≤ 2 ^ (t + 1) * 2 ^ k := mul_le_mul_of_nonneg_right hhigh (by positivity)
      _ = (2 : ℚ) ^ (t + 1 + k) := (pow_add _ _ _).symm
      _ ≤ 2 ^ (24 + k) := pow_le_pow_right₀ (by norm_num) (by omega)
  · rw [hunits, mul_div_cancel_right₀ _ (by positivity)]
    exact hs

/-- On a stretch rounding twice goes to the nearest step by way of the fine steps. -/
lemma roundedTwice_eq (ht : Stretch t k) (hx : r.toRat * 2 ^ 149 = x * 2 ^ k) (hlow : 2 ^ t ≤ x)
    (hhigh : x ≤ 2 ^ (t + 1)) (h : IsNearestVia (fineSteps t) x s) :
    roundedTwice r = s * 2 ^ k := by
  obtain ⟨y, hy, hs⟩ := h
  have hpos : (0 : ℚ) < fineSteps t := by exact_mod_cast fineSteps_pos t
  have hfine := two_pow_mul_fineSteps ht
  have hylow : 2 ^ 52 ≤ y := by
    apply hy.ge_of_ge
    calc ((2 ^ 52 : ℕ) : ℚ) = 2 ^ t * fineSteps t := by
          rw [hfine]
          norm_num
      _ ≤ x * fineSteps t := mul_le_mul_of_nonneg_right hlow hpos.le
  have hyhigh : y ≤ 2 ^ 53 := by
    apply hy.le_of_le
    calc x * fineSteps t ≤ 2 ^ (t + 1) * fineSteps t := mul_le_mul_of_nonneg_right hhigh hpos.le
      _ = 2 * (2 ^ t * fineSteps t) := by ring
      _ = ((2 ^ 53 : ℕ) : ℚ) := by
          rw [hfine]
          norm_num
  have hpowers : (2 : ℚ) ^ (t + k + 873) * 2 ^ 149 * fineSteps t = 2 ^ k * 2 ^ 1074 := by
    have hle := ht.le
    unfold fineSteps
    push_cast
    rw [← pow_add, ← pow_add, ← pow_add,
      show t + k + 873 + 149 + (52 - t) = k + 1074 by omega]
  have hunits : (ofUnits double (rounded double r)).toRat * 2 ^ 149 = y / fineSteps t * 2 ^ k := by
    rw [rounded_double_eq ht hx hlow hhigh hy, toRat_ofUnits, div_mul_eq_mul_div,
      div_mul_eq_mul_div, div_eq_div_iff (by positivity) hpos.ne', Nat.cast_mul, Nat.cast_pow,
      Nat.cast_ofNat, mul_assoc, mul_assoc, mul_assoc]
    rw [← mul_assoc (_ ^ _), hpowers]
    rfl
  apply rounded_single_eq ht hunits _ _ hs
  · rw [le_div_iff₀ hpos, hfine]
    exact_mod_cast hylow
  · rw [div_le_iff₀ hpos, pow_succ, mul_right_comm, hfine]
    exact_mod_cast hyhigh

/-- A number of steps of a stretch is not changed. -/
lemma roundedTwice_natCast (ht : Stretch t k) (hr : r.toRat * 2 ^ 149 = s * 2 ^ k)
    (hlow : 2 ^ t ≤ s) (hhigh : s ≤ 2 ^ (t + 1)) : roundedTwice r = s * 2 ^ k :=
  roundedTwice_eq ht hr (by exact_mod_cast hlow) (by exact_mod_cast hhigh)
    (.natCast (fineSteps_pos t) s)

/-- Every fraction is a number of steps. -/
lemma exists_eq_steps (r : Ratio) (k : ℕ) : ∃ x : ℚ, r.toRat * 2 ^ 149 = x * 2 ^ k :=
  ⟨r.toRat * 2 ^ 149 / 2 ^ k, (div_mul_cancel₀ _ (by positivity)).symm⟩

/-- Every number of steps is the value of a fraction. -/
lemma exists_steps_eq (k : ℕ) (hx : 0 ≤ x) : ∃ r : Ratio, r.toRat * 2 ^ 149 = x * 2 ^ k := by
  obtain ⟨r, hr⟩ := Ratio.exists_toRat_eq (q := x * 2 ^ k / 2 ^ 149) (by positivity)
  refine ⟨r, ?_⟩
  rw [hr, div_mul_cancel₀ _ (by positivity)]

lemma steps_le_steps {x y : ℚ} (ha : a.toRat * 2 ^ 149 = x * 2 ^ k)
    (hb : b.toRat * 2 ^ 149 = y * 2 ^ k) : a.toRat ≤ b.toRat ↔ x ≤ y := by
  rw [← mul_le_mul_iff_of_pos_right (show (0 : ℚ) < 2 ^ 149 by positivity), ha, hb,
    mul_le_mul_iff_of_pos_right (by positivity)]

/-- What lies below a stretch is not rounded into it. -/
lemma roundedTwice_le_of_le (ht : Stretch t k) (hx : r.toRat * 2 ^ 149 = x * 2 ^ k)
    (h : x ≤ 2 ^ t) : roundedTwice r ≤ 2 ^ t * 2 ^ k := by
  obtain ⟨b, hb⟩ := exists_steps_eq k (x := (2 ^ t : ℕ)) (by positivity)
  rw [← roundedTwice_natCast ht hb le_rfl (Nat.pow_le_pow_right Nat.two_pos t.le_succ)]
  exact roundedTwice_mono ((steps_le_steps hx hb).mpr (by exact_mod_cast h))

/-- What lies above a stretch is not rounded into it. -/
lemma le_roundedTwice_of_le (ht : Stretch t k) (hx : r.toRat * 2 ^ 149 = x * 2 ^ k)
    (h : 2 ^ (t + 1) ≤ x) : 2 ^ (t + 1) * 2 ^ k ≤ roundedTwice r := by
  obtain ⟨b, hb⟩ := exists_steps_eq k (x := (2 ^ (t + 1) : ℕ)) (by positivity)
  rw [← roundedTwice_natCast ht hb (Nat.pow_le_pow_right Nat.two_pos t.le_succ) le_rfl]
  exact roundedTwice_mono ((steps_le_steps hb hx).mpr (by exact_mod_cast h))

/-! ## Numbers inside a stretch -/

/-- What is rounded to a number inside a stretch lies on the stretch. -/
lemma isNearestVia_of_roundedTwice_eq (ht : Stretch t k) (hx : r.toRat * 2 ^ 149 = x * 2 ^ k)
    (hlow : 2 ^ t < s) (hhigh : s < 2 ^ (t + 1)) (h : roundedTwice r = s * 2 ^ k) :
    IsNearestVia (fineSteps t) x s := by
  have hstart : 2 ^ t ≤ x := by
    by_contra hlt
    have hle := roundedTwice_le_of_le ht hx (not_le.mp hlt).le
    rw [h] at hle
    exact absurd (Nat.le_of_mul_le_mul_right hle (Nat.two_pow_pos k)) (Nat.not_le.mpr hlow)
  have hend : x ≤ 2 ^ (t + 1) := by
    by_contra hlt
    have hle := le_roundedTwice_of_le ht hx (not_le.mp hlt).le
    rw [h] at hle
    exact absurd (Nat.le_of_mul_le_mul_right hle (Nat.two_pow_pos k)) (Nat.not_le.mpr hhigh)
  obtain ⟨n, hn⟩ := IsNearestVia.exists_of_nonneg (fineSteps t) (q := x)
    ((show (0 : ℚ) ≤ 2 ^ t by positivity).trans hstart)
  have hsteps := roundedTwice_eq ht hx hstart hend hn
  rw [h] at hsteps
  rwa [Nat.eq_of_mul_eq_mul_right (Nat.two_pow_pos k) hsteps]

/-- What is within one step of a number inside a stretch lies on the stretch. -/
lemma roundedTwice_eq_of_abs_sub_le_one (ht : Stretch t k) (hx : r.toRat * 2 ^ 149 = x * 2 ^ k)
    (hlow : 2 ^ t < s) (hhigh : s < 2 ^ (t + 1)) (hone : |x - s| ≤ 1)
    (h : IsNearestVia (fineSteps t) x s) : roundedTwice r = s * 2 ^ k := by
  have hlow' : (2 : ℚ) ^ t + 1 ≤ s := by exact_mod_cast hlow
  have hhigh' : (s : ℚ) + 1 ≤ 2 ^ (t + 1) := by exact_mod_cast hhigh
  obtain ⟨hbelow, habove⟩ := abs_le.mp hone
  exact roundedTwice_eq ht hx (by linarith) (by linarith) h

/-- With a fraction, all that are nearer to a number inside a stretch are rounded to it. -/
lemma roundedTwice_eq_of_abs_sub_le (ht : Stretch t k) (hlow : 2 ^ t < s)
    (hhigh : s < 2 ^ (t + 1)) {v : ℚ} (hv : v * 2 ^ 149 = s * 2 ^ k)
    (ha : roundedTwice a = s * 2 ^ k) (h : |b.toRat - v| ≤ |a.toRat - v|) :
    roundedTwice b = s * 2 ^ k := by
  have hfine := fineSteps_pos t
  obtain ⟨x, hx⟩ := exists_eq_steps a k
  have hnear := isNearestVia_of_roundedTwice_eq ht hx hlow hhigh ha
  have hone : |x - s| ≤ 1 := by
    have hfine' : (1 : ℚ) ≤ fineSteps t := by exact_mod_cast hfine
    have hsmall : 1 / (2 * (fineSteps t : ℚ)) ≤ 1 / 2 :=
      one_div_le_one_div_of_le (by norm_num) (by linarith)
    linarith [hnear.abs_sub_le hfine]
  -- The fraction on the other side of the number, equally far away.
  have hopposite_nonneg : (0 : ℚ) ≤ 2 * s - x := by
    have : (1 : ℚ) ≤ s := by exact_mod_cast (Nat.two_pow_pos t).trans hlow
    linarith [(abs_le.mp hone).2]
  obtain ⟨a', ha'⟩ := exists_steps_eq k hopposite_nonneg
  have hopposite : roundedTwice a' = s * 2 ^ k := by
    apply roundedTwice_eq_of_abs_sub_le_one ht ha' hlow hhigh
    · rwa [show (2 * s - x : ℚ) - s = -(x - s) by ring, abs_neg]
    · exact hnear.reflect hfine ((Nat.two_pow_pos t).trans hlow)
  have hturned : a'.toRat = 2 * v - a.toRat := by
    apply mul_right_cancel₀ (show (2 : ℚ) ^ 149 ≠ 0 by positivity)
    rw [ha', sub_mul, sub_mul, mul_assoc, mul_assoc, hv, hx]
  rcases le_total a.toRat v with hle | hle
  · rw [abs_of_nonpos (sub_nonpos.mpr hle), abs_le] at h
    apply le_antisymm
    · rw [← hopposite]
      exact roundedTwice_mono (by linarith)
    · rw [← ha]
      exact roundedTwice_mono (by linarith)
  · rw [abs_of_nonneg (sub_nonneg.mpr hle), abs_le] at h
    apply le_antisymm
    · rw [← ha]
      exact roundedTwice_mono (by linarith)
    · rw [← hopposite]
      exact roundedTwice_mono (by linarith)

/-! ## Powers of two -/

lemma one_div_fineSteps_lt (ht : Stretch t k) : 1 / (2 * (fineSteps t : ℚ)) < 1 / 2 := by
  have hfour : (4 : ℚ) ≤ fineSteps t := by exact_mod_cast ht.four_le_fineSteps
  exact one_div_lt_one_div_of_lt (by norm_num) (by linarith)

/-- The numbers rounded to at most an even number of steps, inside a stretch or at its start. -/
lemma roundedTwice_le_iff (ht : Stretch t k) (hx : r.toRat * 2 ^ 149 = x * 2 ^ k) (hs : Even s)
    (hlow : 2 ^ t ≤ s) (hhigh : s < 2 ^ (t + 1)) :
    roundedTwice r ≤ s * 2 ^ k ↔ x ≤ s + 1 / 2 + 1 / (2 * fineSteps t) := by
  have hfine := fineSteps_pos t
  have hlow' : (2 : ℚ) ^ t ≤ s := by exact_mod_cast hlow
  have hhigh' : (s : ℚ) + 1 ≤ 2 ^ (t + 1) := by exact_mod_cast hhigh
  rcases lt_or_ge (2 ^ (t + 1)) x with hend | hend
  · have hle := le_roundedTwice_of_le ht hx hend.le
    have hlt : s * 2 ^ k < 2 ^ (t + 1) * 2 ^ k :=
      Nat.mul_lt_mul_of_pos_right hhigh (Nat.two_pow_pos k)
    have hsmall := one_div_fineSteps_lt ht
    exact iff_of_false (by omega) (by linarith)
  rcases lt_or_ge x (2 ^ t) with hstart | hstart
  · have hle := roundedTwice_le_of_le ht hx hstart.le
    have hpos : (0 : ℚ) ≤ 1 / (2 * fineSteps t) := by positivity
    exact iff_of_true (hle.trans (Nat.mul_le_mul_right _ hlow)) (by linarith)
  · obtain ⟨n, hn⟩ := IsNearestVia.exists_of_nonneg (fineSteps t) (q := x)
      ((show (0 : ℚ) ≤ 2 ^ t by positivity).trans hstart)
    rw [roundedTwice_eq ht hx hstart hend hn, Nat.mul_le_mul_right_iff (Nat.two_pow_pos k)]
    exact hn.le_iff hfine ht.four_dvd_fineSteps hs

/-- The numbers rounded to at least an even number of steps, inside a stretch or at its end. -/
lemma le_roundedTwice_iff (ht : Stretch t k) (hx : r.toRat * 2 ^ 149 = x * 2 ^ k) (hs : Even s)
    (hlow : 2 ^ t < s) (hhigh : s ≤ 2 ^ (t + 1)) :
    s * 2 ^ k ≤ roundedTwice r ↔ s - 1 / 2 - 1 / (2 * fineSteps t) ≤ x := by
  have hfine := fineSteps_pos t
  have hlow' : (2 : ℚ) ^ t + 1 ≤ s := by exact_mod_cast hlow
  have hhigh' : (s : ℚ) ≤ 2 ^ (t + 1) := by exact_mod_cast hhigh
  rcases lt_or_ge (2 ^ (t + 1)) x with hend | hend
  · have hle := le_roundedTwice_of_le ht hx hend.le
    have hpos : (0 : ℚ) ≤ 1 / (2 * fineSteps t) := by positivity
    exact iff_of_true ((Nat.mul_le_mul_right _ hhigh).trans hle) (by linarith)
  rcases lt_or_ge x (2 ^ t) with hstart | hstart
  · have hle := roundedTwice_le_of_le ht hx hstart.le
    have hlt : 2 ^ t * 2 ^ k < s * 2 ^ k :=
      Nat.mul_lt_mul_of_pos_right hlow (Nat.two_pow_pos k)
    have hsmall := one_div_fineSteps_lt ht
    exact iff_of_false (by omega) (by linarith)
  · obtain ⟨n, hn⟩ := IsNearestVia.exists_of_nonneg (fineSteps t) (q := x)
      ((show (0 : ℚ) ≤ 2 ^ t by positivity).trans hstart)
    rw [roundedTwice_eq ht hx hstart hend hn, Nat.mul_le_mul_right_iff (Nat.two_pow_pos k)]
    exact hn.ge_iff hfine ht.four_dvd_fineSteps hs ((Nat.two_pow_pos t).trans hlow)

end Stretch

/-- The parts in which the bounds are counted, by steps. -/
lemma two_pow_eq_parts {t k : ℕ} (ht : Stretch t k) :
    (2 : ℚ) ^ 54 = 4 * (2 ^ t * fineSteps t) := by
  rw [two_pow_mul_fineSteps ht]
  norm_num

/-- The least number rounded to `2 ^ j` units, in parts of `2 ^ (j - 54)` units. -/
def leastPart (j : ℕ) : ℕ :=
  2 ^ 54 - fineSteps (min (j - 1) 23) - 1

/-- The greatest number rounded to `2 ^ j` units, in parts of `2 ^ (j - 54)` units. -/
def greatestPart (j : ℕ) : ℕ :=
  2 ^ 54 + 2 * fineSteps (min j 23) + 2

lemma roundedTwice_le_two_pow_iff {j : ℕ} (hj : 0 < j) :
    roundedTwice r ≤ 2 ^ j ↔ r.toRat * 2 ^ 149 * 2 ^ 54 ≤ greatestPart j * 2 ^ j := by
  obtain ⟨k, hk⟩ : ∃ k, j = min j 23 + k := ⟨j - min j 23, by omega⟩
  unfold greatestPart
  set t := min j 23 with ht
  have hstretch : Stretch t k := ⟨by omega, by omega⟩
  have heven : Even (2 ^ t) := even_two.pow_of_ne_zero (by omega)
  obtain ⟨x, hx⟩ := exists_eq_steps r k
  have hiff := roundedTwice_le_iff hstretch hx heven le_rfl
    (Nat.pow_lt_pow_right Nat.one_lt_two t.lt_succ_self)
  rw [← pow_add, ← hk] at hiff
  have hfine : (fineSteps t : ℚ) ≠ 0 := by exact_mod_cast (fineSteps_pos t).ne'
  have hparts := two_pow_eq_parts hstretch
  have hpower : (2 : ℚ) ^ j = 2 ^ t * 2 ^ k := by rw [← pow_add, ← hk]
  have hbound : ((2 ^ t : ℕ) + 1 / 2 + 1 / (2 * fineSteps t) : ℚ) * 2 ^ k * 2 ^ 54
      = (2 ^ 54 + 2 * fineSteps t + 2 : ℕ) * 2 ^ j := by
    rw [Nat.cast_add, Nat.cast_add, Nat.cast_pow, Nat.cast_pow, Nat.cast_mul, Nat.cast_ofNat,
      hparts, hpower]
    field_simp
    ring
  rw [hiff, hx, ← hbound, mul_le_mul_iff_of_pos_right (by positivity),
    mul_le_mul_iff_of_pos_right (by positivity)]

lemma fineSteps_le (t : ℕ) : fineSteps t ≤ 2 ^ 52 :=
  Nat.pow_le_pow_right Nat.two_pos (Nat.sub_le 52 t)

lemma two_pow_le_roundedTwice_iff {j : ℕ} (hj : 0 < j) :
    2 ^ j ≤ roundedTwice r ↔ leastPart j * 2 ^ j ≤ r.toRat * 2 ^ 149 * 2 ^ 54 := by
  obtain ⟨k, hk⟩ : ∃ k, j = min (j - 1) 23 + 1 + k := ⟨j - 1 - min (j - 1) 23, by omega⟩
  unfold leastPart
  set t := min (j - 1) 23 with ht
  have hstretch : Stretch t k := ⟨by omega, by omega⟩
  have heven : Even (2 ^ (t + 1)) := even_two.pow_of_ne_zero (by omega)
  obtain ⟨x, hx⟩ := exists_eq_steps r k
  have hiff := le_roundedTwice_iff hstretch hx heven
    (Nat.pow_lt_pow_right Nat.one_lt_two t.lt_succ_self) le_rfl
  rw [← pow_add, ← hk] at hiff
  have hfine : (fineSteps t : ℚ) ≠ 0 := by exact_mod_cast (fineSteps_pos t).ne'
  have hparts := two_pow_eq_parts hstretch
  have hpower : (2 : ℚ) ^ j = 2 ^ (t + 1) * 2 ^ k := by rw [← pow_add, ← hk]
  have hle := fineSteps_le t
  have hbound : ((2 ^ (t + 1) : ℕ) - 1 / 2 - 1 / (2 * fineSteps t) : ℚ) * 2 ^ k * 2 ^ 54
      = (2 ^ 54 - fineSteps t - 1 : ℕ) * 2 ^ j := by
    rw [Nat.cast_sub (by omega), Nat.cast_sub (by omega), Nat.cast_pow, Nat.cast_pow, Nat.cast_one,
      Nat.cast_ofNat, hparts, hpower, pow_succ]
    field_simp
    ring
  rw [hiff, hx, ← hbound, mul_le_mul_iff_of_pos_right (by positivity),
    mul_le_mul_iff_of_pos_right (by positivity)]

/-- A power of two is surrounded by the numbers rounded to it, with more room above than below. -/
lemma roundedTwice_eq_two_pow_iff {j : ℕ} (hj : 0 < j) :
    roundedTwice r = 2 ^ j ↔ leastPart j * 2 ^ j ≤ r.toRat * 2 ^ 149 * 2 ^ 54 ∧
      r.toRat * 2 ^ 149 * 2 ^ 54 ≤ greatestPart j * 2 ^ j := by
  rw [← two_pow_le_roundedTwice_iff hj, ← roundedTwice_le_two_pow_iff hj, and_comm]
  exact le_antisymm_iff

/-! ## All numbers -/

lemma toRat_toRatio_mul (m : Magnitude single) :
    m.toRatio.toRat * 2 ^ 149 = m.significand * 2 ^ m.shift := by
  have hvalue : m.toRatio.toRat = m.units / 2 ^ 149 := toRat_ofUnits single m.units
  rw [hvalue, div_mul_cancel₀ _ (by positivity), units, Nat.pow_eq]
  push_cast
  rfl

lemma roundedTwice_toRatio (m : Magnitude single) : roundedTwice m.toRatio = m.units := by
  have hread : (Binary.ofRatio double false m.toRatio).convert single = .finite false m :=
    Binary.convert_convert Format.single_fitsIn_double (.finite false m)
  exact ((Binary.convert_ofRatio_eq_finite_iff Format.single_fitsIn_double).mp hread).2

/-- A number lies inside a stretch or is a power of two. -/
lemma inside_stretch_or_units_eq_two_pow (h : m.significand ≠ 0) :
    (∃ t, Stretch t m.shift ∧ 2 ^ t < m.significand ∧ m.significand < 2 ^ (t + 1)) ∨
      ∃ j ≤ 276, m.units = 2 ^ j := by
  obtain ⟨t, ht, hlow, hhigh⟩ := exists_stretch h
  rcases hlow.lt_or_eq with hlt | heq
  · exact .inl ⟨t, ht, hlt, hhigh⟩
  · have hshift : m.shift ≤ 253 := m.shift_le
    have hle := ht.le
    refine .inr ⟨t + m.shift, by omega, ?_⟩
    rw [units, ← heq, Nat.pow_eq, pow_add]

/-- Parts of two numbers are parts of their steps. -/
lemma abs_sub_mul_le_iff {u v x y : ℚ} {k : ℕ} (hu : u * 2 ^ 149 = x * 2 ^ k)
    (hv : v * 2 ^ 149 = y * 2 ^ k) : |u - v| * 2 ^ 27 ≤ v ↔ |x - y| * 2 ^ 27 ≤ y := by
  have hunits : (0 : ℚ) < 2 ^ 149 := by positivity
  have hsteps : (0 : ℚ) < 2 ^ k := by positivity
  have hdifference : |u - v| * 2 ^ 149 = |x - y| * 2 ^ k := by
    calc |u - v| * 2 ^ 149 = |(u - v) * 2 ^ 149| := by rw [abs_mul, abs_of_pos hunits]
      _ = |(x - y) * 2 ^ k| := by rw [sub_mul, sub_mul, hu, hv]
      _ = |x - y| * 2 ^ k := by rw [abs_mul, abs_of_pos hsteps]
  rw [← mul_le_mul_iff_of_pos_right hunits, mul_right_comm, hdifference, hv, mul_right_comm,
    mul_le_mul_iff_of_pos_right hsteps]

lemma two_pow_le_fineSteps_min (j : ℕ) : 2 ^ 29 ≤ fineSteps (min j 23) :=
  Nat.pow_le_pow_right Nat.two_pos (by omega)

lemma roundedTwice_eq_two_pow_of_near {j : ℕ} (hj : 0 < j)
    (h : |r.toRat * 2 ^ 149 - 2 ^ j| * 2 ^ 27 ≤ 2 ^ j) : roundedTwice r = 2 ^ j := by
  have hpower : (0 : ℚ) < 2 ^ j := by positivity
  have hleast : (leastPart j : ℚ) + 2 ^ 27 ≤ 2 ^ 54 := by
    have hfine := two_pow_le_fineSteps_min (j - 1)
    have hle : leastPart j + 2 ^ 27 ≤ 2 ^ 54 := by
      unfold leastPart
      omega
    exact_mod_cast hle
  have hgreatest : (2 : ℚ) ^ 54 + 2 ^ 27 ≤ greatestPart j := by
    have hfine := two_pow_le_fineSteps_min j
    have hle : 2 ^ 54 + 2 ^ 27 ≤ greatestPart j := by
      unfold greatestPart
      omega
    exact_mod_cast hle
  rw [← le_div_iff₀ (by positivity), abs_le] at h
  obtain ⟨hlow, hhigh⟩ := h
  rw [roundedTwice_eq_two_pow_iff hj]
  constructor
  · calc (leastPart j : ℚ) * 2 ^ j ≤ (2 ^ 54 - 2 ^ 27) * 2 ^ j :=
          mul_le_mul_of_nonneg_right (by linarith) hpower.le
      _ ≤ r.toRat * 2 ^ 149 * 2 ^ 54 := by linarith
  · calc r.toRat * 2 ^ 149 * 2 ^ 54 ≤ (2 ^ 54 + 2 ^ 27) * 2 ^ j := by linarith
      _ ≤ (greatestPart j : ℚ) * 2 ^ j := mul_le_mul_of_nonneg_right hgreatest hpower.le

/-- What differs from a number by at most one part in `2 ^ 27` is rounded to it. The least number
is apart, since it does not lie on a stretch together with what is below it. -/
lemma roundedTwice_eq_of_near (hm : m.significand ≠ 0) (hone : m.units ≠ 1)
    (h : |b.toRat - m.toRatio.toRat| * 2 ^ 27 ≤ m.toRatio.toRat) : roundedTwice b = m.units := by
  have hvalue := m.toRat_toRatio_mul
  rcases inside_stretch_or_units_eq_two_pow hm with ⟨t, ht, hlow, hhigh⟩ | ⟨j, -, hj⟩
  · obtain ⟨x, hx⟩ := exists_eq_steps b m.shift
    have hsteps := (abs_sub_mul_le_iff hx hvalue).mp h
    have hprecision : (m.significand : ℚ) ≤ 2 ^ 24 := by exact_mod_cast m.significand_lt.le
    have hquarter : |x - m.significand| ≤ 1 / 4 := by linarith
    have hnonneg : 0 ≤ x := by
      have : (1 : ℚ) ≤ m.significand := by exact_mod_cast Nat.pos_of_ne_zero hm
      linarith [(abs_le.mp hquarter).1]
    exact roundedTwice_eq_of_abs_sub_le_one ht hx hlow hhigh (by linarith)
      (.of_abs_sub_le ht.four_le_fineSteps hquarter hnonneg)
  · have hpos : 0 < j := by
      rcases Nat.eq_zero_or_pos j with rfl | hpos
      · exact absurd hj hone
      · exact hpos
    have hpower : (m.significand : ℚ) * 2 ^ m.shift = 2 ^ j * 2 ^ 0 := by
      rw [pow_zero, mul_one]
      exact_mod_cast hj
    rw [hj]
    apply roundedTwice_eq_two_pow_of_near hpos
    exact (abs_sub_mul_le_iff (by rw [pow_zero, mul_one]) (hvalue.trans hpower)).mp h

end Magnitude

end LineShell
