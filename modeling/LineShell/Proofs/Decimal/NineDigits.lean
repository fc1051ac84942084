import LineShell.Proofs.Coercion.Floating
import LineShell.Proofs.Decimal.Fewest

/-!
# Nine digits always show a `float`

A `float` is looked for at its nearest point on the grids of one, two and up to nine digits. These
points are the number, correctly rounded to so many digits (`Ratio.isRoundedTo_gridNearest`), and
the one of nine digits is near enough to read back (`Magnitude.readsBackSingle_gridNearest_nine`).

Main statement: the search ends with the first number of digits whose rounding reads back, so it
never comes to its fallback, for no number and neither sign (`search_nine_digits`).
-/

namespace LineShell

open Format (single double)

/-! ## Rounding to a number of digits -/

/-- The decimal is the number, rounded to `n` digits: it has `n` digits, or is the power of ten
behind them, no number with `n` digits is nearer, and of two equally near ones it is the one with
the even last digit. -/
structure IsRoundedTo (n : ℕ) (v : ℚ) (d : Decimal) : Prop where
  /-- There are `n` digits, or the power of ten behind them. -/
  digits : 0 < v → 10 ^ (n - 1) ≤ d.coefficient ∧ d.coefficient ≤ 10 ^ n
  /-- So many digits are enough to write the decimal. -/
  hasDigits : HasDigits n d.toRat
  /-- No number with so many digits is nearer. -/
  nearest : ∀ q, HasDigits n q → |d.toRat - v| ≤ |q - v|
  /-- The last digit is even if another number with so many digits is equally near. -/
  even : ∀ q, HasDigits n q → q ≠ d.toRat → |d.toRat - v| = |q - v| → Even d.coefficient

namespace Ratio

variable {r : Ratio} {n : ℕ} {q : ℚ}

/-- A number with `n` digits that is as near as the nearest point of the grid lies on the grid. -/
lemma exists_eq_of_abs_gridNearest_sub_eq (h : 0 < r.num) (hn : 0 < n) (hq : HasDigits n q)
    (htie : |(r.gridNearest n).toRat - r.toRat| = |q - r.toRat|) :
    ∃ c : ℕ, q = (Decimal.mk c (r.gridPower n)).toRat := by
  have hbelow := r.toRat_gridBelow_le n
  have habove := r.lt_toRat_gridAbove n
  rcases le_gridBelow_or_gridAbove_le h hn hq with hle | hle
  · have hpoint : |q - r.toRat| ≤ |(r.gridBelow n).toRat - r.toRat| :=
      htie ▸ r.abs_gridNearest_sub_le_of_grid n _
    rw [abs_of_nonpos (by linarith), abs_of_nonpos (by linarith)] at hpoint
    have heq : q = (r.gridBelow n).toRat := by linarith
    exact ⟨_, heq⟩
  · have hpoint : |q - r.toRat| ≤ |(r.gridAbove n).toRat - r.toRat| :=
      htie ▸ r.abs_gridNearest_sub_le_of_grid n _
    rw [abs_of_pos (by linarith), abs_of_pos (by linarith)] at hpoint
    have heq : q = (r.gridAbove n).toRat := by linarith
    exact ⟨_, heq⟩

/-- The nearest point of a grid is a positive fraction, rounded to its digits. -/
lemma isRoundedTo_gridNearest (h : 0 < r.num) (hn : 0 < n) :
    IsRoundedTo n r.toRat (r.gridNearest n) := by
  have hround := isNearest_roundHalfEven (r.scaleDown (r.gridPower n))
  obtain ⟨hlow, hhigh⟩ := scaleDown_gridPower_bounds h hn
  refine ⟨fun _ => ⟨?_, ?_⟩, hasDigits_gridNearest h hn, fun q => abs_gridNearest_sub_le h hn, ?_⟩
  · exact hround.ge_of_ge (by exact_mod_cast hlow)
  · exact hround.le_of_le (by exact_mod_cast hhigh.le)
  · intro q hq hne htie
    obtain ⟨c, rfl⟩ := exists_eq_of_abs_gridNearest_sub_eq h hn hq htie
    rw [abs_toRat_sub, abs_toRat_sub] at htie
    refine hround.even_of_tie (k := c) ?_ (mul_right_cancel₀ (by positivity) htie)
    rintro rfl
    exact hne rfl

end Ratio

namespace Magnitude

/-- Zero is rounded to no digits but zeros. -/
lemma isRoundedTo_gridNearest_zero {F : Format} (n : ℕ) :
    IsRoundedTo n (zero : Magnitude F).value ((zero : Magnitude F).toRatio.gridNearest n) := by
  have hscaled : ((zero : Magnitude F).toRatio.scaleDown
      ((zero : Magnitude F).toRatio.gridPower n)).num = 0 := by
    unfold Ratio.scaleDown
    split
    · exact Nat.zero_mul _
    · exact (congrArg (· * _) (Nat.zero_mul _)).trans (Nat.zero_mul _)
  have hcoefficient : ((zero : Magnitude F).toRatio.gridNearest n).coefficient = 0 :=
    Ratio.roundHalfEven_of_eq (by rw [hscaled, Nat.zero_mul])
  have hvalue : ((zero : Magnitude F).toRatio.gridNearest n).toRat = 0 := by
    rw [Decimal.toRat, hcoefficient, Nat.cast_zero, zero_mul]
  refine ⟨fun hpos => absurd hpos ?_, ⟨0, 0, by positivity, ?_⟩, fun q _ => ?_, fun q _ _ _ => ?_⟩
  · rw [value_zero]
    exact lt_irrefl 0
  · rw [hvalue, Nat.cast_zero, zero_mul]
  · rw [hvalue, value_zero, sub_zero, abs_zero]
    exact abs_nonneg _
  · rw [hcoefficient]
    exact Even.zero

variable {m : Magnitude single}

/-- Every point of the search is the number, rounded to as many digits as the grid has. -/
lemma isRoundedTo_gridNearest (m : Magnitude single) {n : ℕ} (hn : 0 < n) :
    IsRoundedTo n m.value (m.toRatio.gridNearest n) := by
  by_cases hm : m.significand = 0
  · rw [eq_zero hm]
    exact isRoundedTo_gridNearest_zero n
  · exact Ratio.isRoundedTo_gridNearest (num_toRatio_pos hm) hn

/-- Nine digits are enough for zero too. -/
lemma readsBackSingle_nine (m : Magnitude single) :
    m.readsBackSingle (m.toRatio.gridNearest 9) = true := by
  by_cases hm : m.significand = 0
  · rw [eq_zero hm]
    decide +kernel
  · exact readsBackSingle_gridNearest_nine hm

end Magnitude

/-! ## The search -/

/-- A search with one candidate for each number of digits finds the first one that passes. -/
lemma Decimal.search_eq_some_of_first {candidate : ℕ → Decimal} {test : Decimal → Bool}
    {limit p : ℕ} (hpos : 0 < p) (hle : p ≤ limit) (htest : test (candidate p) = true)
    (hfirst : ∀ k, 0 < k → k < p → test (candidate k) ≠ true) :
    search limit (fun n => [candidate n]) test = some (candidate p) := by
  obtain ⟨k, e, hk, hkp, he, hsearch⟩ := exists_search_eq_some (fun n => [candidate n]) hpos hle
    List.mem_cons_self htest
  rw [List.mem_singleton.mp he] at hsearch
  rcases hkp.lt_or_eq with hlt | rfl
  · exact absurd (test_of_search hsearch) (hfirst k hk hlt)
  · exact hsearch

/-- Reading back is the same for both signs. -/
lemma Magnitude.readsBackSingle_iff_convert {m : Magnitude single} {d : Decimal}
    (negative : Bool) : m.readsBackSingle d = true ↔
      (Binary.ofDecimal double negative d).convert single = .finite negative m := by
  unfold readsBackSingle
  rw [decide_eq_true_iff]
  constructor
  · exact fun h => Binary.convert_ofDecimal_eq_finite h negative
  · exact fun h => Binary.convert_ofDecimal_eq_finite h false

/-- **Nine digits are enough.** For every finite number of type `float` and either sign there is a
number of digits, at most nine, such that the number rounded to so many digits reads back, by way of
`double`, and the number rounded to fewer digits does not. There the search ends, so its fallback is
never used. -/
theorem search_nine_digits (negative : Bool) (m : Magnitude single) :
    ∃ p, 1 ≤ p ∧ p ≤ 9 ∧ IsRoundedTo p m.value (m.toRatio.gridNearest p) ∧
      (Binary.ofDecimal double negative (m.toRatio.gridNearest p)).convert single
        = .finite negative m ∧
      (∀ k, 1 ≤ k → k < p → IsRoundedTo k m.value (m.toRatio.gridNearest k) ∧
        (Binary.ofDecimal double negative (m.toRatio.gridNearest k)).convert single
          ≠ .finite negative m) ∧
      Decimal.search 9 (fun n => [m.toRatio.gridNearest n]) m.readsBackSingle
        = some (m.toRatio.gridNearest p) ∧
      m.shortestSingle = m.toRatio.gridNearest p := by
  have hexists : ∃ p, 0 < p ∧ m.readsBackSingle (m.toRatio.gridNearest p) = true :=
    ⟨9, by decide, m.readsBackSingle_nine⟩
  obtain ⟨hpos, hreads⟩ := Nat.find_spec hexists
  have hle : Nat.find hexists ≤ 9 := Nat.find_min' hexists ⟨by decide, m.readsBackSingle_nine⟩
  have hfirst : ∀ k, 0 < k → k < Nat.find hexists →
      m.readsBackSingle (m.toRatio.gridNearest k) ≠ true := fun k hk hlt h =>
    Nat.find_min hexists hlt ⟨hk, h⟩
  have hsearch := Decimal.search_eq_some_of_first hpos hle hreads hfirst
  refine ⟨Nat.find hexists, hpos, hle, m.isRoundedTo_gridNearest hpos,
    (Magnitude.readsBackSingle_iff_convert negative).mp hreads, fun k hk hlt => ⟨?_, ?_⟩, hsearch,
    ?_⟩
  · exact m.isRoundedTo_gridNearest hk
  · rw [ne_eq, ← Magnitude.readsBackSingle_iff_convert negative]
    exact hfirst k hk hlt
  · unfold Magnitude.shortestSingle
    rw [hsearch, Option.getD_some]

end LineShell
