import LineShell.Proofs.Coercion.Floating
import LineShell.Proofs.Text.Canonical

/-!
# The shape of floating texts

Plain notation has digits on both sides of a point, and notation with a power of ten has a single
digit in front of it. Neither has superfluous zeros (`Text.PlainForm`, `Text.ScientificForm`). That
comes from the digits of a decimal, which start and end with another digit than zero
(`Decimal.isStripped_digits`), wherever the point is put.

Main statement: the display of a finite number other than zero denotes exactly the decimal that
shows the number. It is plain exactly from a thousandth up to ten million, with both bounds taken as
numbers of type `double`, and has a power of ten otherwise (`display_isLayoutOf`).
-/

namespace LineShell

open Binary.layout (signText)
open Format (single double)

/-! ## Forms -/

namespace Text

/-- Digits behind a point. A zero stands at their end only if there is nothing else. -/
structure IsFraction (t : Text) : Prop where
  /-- There are only digits. -/
  digits : ∀ c ∈ t, c.isDigit = true
  /-- There is some digit. -/
  ne_nil : t ≠ []
  /-- A zero does not stand behind other digits. -/
  eq_zero : t.getLast? = some (('0' : Char) : CodePoint) → t = "0"

/-- Digits, a point and digits, behind a possible minus sign. -/
def IsPointed (t : Text) : Prop :=
  ∃ (negative : Bool) (whole fraction : Text), whole ≠ [] ∧ fraction ≠ [] ∧
    (∀ c ∈ whole, c.isDigit = true) ∧ (∀ c ∈ fraction, c.isDigit = true) ∧
    t = signText negative ++ (whole ++ "." ++ fraction)

/-- Plain notation, without superfluous zeros on either side of the point. -/
def PlainForm (negative : Bool) (t : Text) : Prop :=
  ∃ whole fraction : Text, whole.IsWhole ∧ fraction.IsFraction ∧
    t = signText negative ++ (whole ++ "." ++ fraction)

/-- Notation with a power of ten: one digit that is not zero in front of the point, and a canonical
exponent behind the mark. -/
def ScientificForm (negative : Bool) (t : Text) : Prop :=
  ∃ (first : CodePoint) (fraction exponent : Text), first.isDigit = true ∧ first ≠ ('0' : Char) ∧
    fraction.IsFraction ∧ exponent.IsCanonical ∧
    t = signText negative ++ ([first] ++ "." ++ fraction ++ "E" ++ exponent)

variable {negative : Bool} {t : Text}

lemma PlainForm.isPointed (h : PlainForm negative t) : t.IsPointed := by
  obtain ⟨whole, fraction, hwhole, hfraction, rfl⟩ := h
  exact ⟨negative, whole, fraction, hwhole.ne_nil, hfraction.ne_nil, hwhole.digits,
    hfraction.digits, rfl⟩

lemma mark_not_mem_signText (negative : Bool) : (('E' : Char) : CodePoint) ∉ signText negative := by
  cases negative with
  | false => decide
  | true => decide

/-- There is no mark of a power of ten among digits and a point. -/
lemma IsPointed.mark_not_mem (h : t.IsPointed) : (('E' : Char) : CodePoint) ∉ t := by
  obtain ⟨negative, whole, fraction, -, -, hwhole, hfraction, rfl⟩ := h
  have hdigit : (('E' : Char) : CodePoint).isDigit = false := by decide
  intro hmem
  rcases List.mem_append.mp hmem with hmem | hmem
  · exact mark_not_mem_signText negative hmem
  rcases List.mem_append.mp hmem with hmem | hmem
  · rcases List.mem_append.mp hmem with hmem | hmem
    · exact absurd (hwhole _ hmem) (by rw [hdigit]; decide)
    · exact absurd hmem (by decide)
  · exact absurd (hfraction _ hmem) (by rw [hdigit]; decide)

lemma ScientificForm.mark_mem (h : ScientificForm negative t) : (('E' : Char) : CodePoint) ∈ t := by
  obtain ⟨first, fraction, exponent, -, -, -, -, rfl⟩ := h
  apply List.mem_append_right
  apply List.mem_append_left
  exact List.mem_append_right _ (by decide)

end Text

/-! ## Digits without zeros at either end -/

/-- Some digits, the first and the last of which are not zero. -/
structure Text.IsStripped (t : Text) : Prop where
  /-- There are only digits. -/
  digits : ∀ c ∈ t, c.isDigit = true
  /-- There is some digit. -/
  ne_nil : t ≠ []
  /-- The first digit is not zero. -/
  head_ne : t.head? ≠ some (('0' : Char) : CodePoint)
  /-- The last digit is not zero. -/
  last_ne : t.getLast? ≠ some (('0' : Char) : CodePoint)

/-- The digits of a decimal that is not zero have no zeros at either end. -/
lemma Decimal.isStripped_digits {d : Decimal} (h : d.coefficient ≠ 0) : d.digits.IsStripped := by
  have hne := digits_ne_nil h
  refine ⟨fun _ => isDigit_of_mem_digits, hne, ?_, ?_⟩
  · obtain ⟨k, hk⟩ := d.exists_ofNat_eq_digits_append
    rw [← List.head?_append_of_ne_nil _ hne, ← hk]
    exact Text.head?_ofNat_ne (Nat.pos_of_ne_zero h)
  · intro hlast
    obtain ⟨front, hfront⟩ := List.getLast?_eq_some_iff.mp hlast
    apply not_ten_dvd_natOfDigits_digits h
    rw [hfront, Text.natOfDigits_concat]
    exact Nat.dvd_mul_left 10 _

namespace Text.IsStripped

variable {digits : Text}

/-- Zeros in front of the digits do not change their end. -/
lemma isFraction_zeros_append (h : digits.IsStripped) (k : ℕ) :
    IsFraction (zeros k ++ digits) := by
  refine ⟨fun c hc => ?_, List.append_ne_nil_of_right_ne_nil _ h.ne_nil, fun hlast => ?_⟩
  · rcases List.mem_append.mp hc with hc | hc
    · exact isDigit_of_mem_zeros hc
    · exact h.digits c hc
  · rw [List.getLast?_append_of_ne_nil _ h.ne_nil] at hlast
    exact absurd hlast h.last_ne

/-- The digits from some place on have the same end, if any are left. -/
lemma isFraction_fraction_drop (h : digits.IsStripped) (p : ℕ) :
    (Decimal.fraction (digits.drop p)).IsFraction := by
  unfold Decimal.fraction
  split
  · exact ⟨by decide, by decide, fun _ => rfl⟩
  · next hne =>
    refine ⟨fun c hc => h.digits c (List.mem_of_mem_drop hc), hne, fun hlast => ?_⟩
    rw [← List.getLast?_append_of_ne_nil (digits.take p) hne, List.take_append_drop] at hlast
    exact absurd hlast h.last_ne

/-- Some of the digits, with zeros behind them, have the same start. -/
lemma isWhole_take_append_zeros (h : digits.IsStripped) {p : ℕ} (hp : 0 < p) (k : ℕ) :
    IsWhole (digits.take p ++ zeros k) := by
  have hne : digits.take p ≠ [] := by
    simp [List.take_eq_nil_iff, h.ne_nil, hp.ne']
  refine ⟨fun c hc => ?_, List.append_ne_nil_of_left_ne_nil hne _, fun hhead => ?_⟩
  · rcases List.mem_append.mp hc with hc | hc
    · exact h.digits c (List.mem_of_mem_take hc)
    · exact isDigit_of_mem_zeros hc
  · rw [List.head?_append_of_ne_nil _ hne, List.head?_take, if_neg hp.ne'] at hhead
    exact absurd hhead h.head_ne

lemma plainForm (h : digits.IsStripped) (negative : Bool) (point : ℤ) :
    PlainForm negative (signText negative ++ Decimal.plain digits point) := by
  have hzero : IsWhole "0" := ⟨by decide, by decide, fun _ => rfl⟩
  rcases point with (_ | p) | p
  · exact ⟨_, _, hzero, h.isFraction_zeros_append 0, rfl⟩
  · exact ⟨_, _, h.isWhole_take_append_zeros p.succ_pos _, h.isFraction_fraction_drop _, rfl⟩
  · exact ⟨_, _, hzero, h.isFraction_zeros_append (p + 1), rfl⟩

lemma scientificForm (h : digits.IsStripped) (negative : Bool) (point : ℤ) :
    ScientificForm negative (signText negative ++ Decimal.scientific digits point) := by
  obtain ⟨first, rest, rfl⟩ := List.exists_cons_of_ne_nil h.ne_nil
  refine ⟨first, _, _, h.digits first List.mem_cons_self, fun hfirst => ?_,
    h.isFraction_fraction_drop 1, isCanonical_ofInt (point - 1), rfl⟩
  exact h.head_ne (congrArg some hfirst)

end Text.IsStripped

/-! ## The range of plain notation -/

/-- The number is at least a thousandth and less than ten million, both rounded to type `double`. -/
def IsPlainSize (v : ℚ) : Prop :=
  ∃ low high : Magnitude double, Binary.ofDecimal double false ⟨1, -3⟩ = .finite false low ∧
    Binary.ofDecimal double false ⟨1, 7⟩ = .finite false high ∧ low.value ≤ v ∧ v < high.value

namespace Magnitude

/-- The number of type `double` nearest to a thousandth. -/
def thousandth : Magnitude double :=
  ⟨4611686018427388, 1012, by decide, by decide, by decide⟩

/-- Ten million, as a number of type `double`. -/
def tenMillion : Magnitude double :=
  ⟨10000000 * 2 ^ 29, 1045, by decide, by decide, by decide⟩

lemma ofDecimal_thousandth : Binary.ofDecimal double false ⟨1, -3⟩ = .finite false thousandth := by
  decide +kernel

lemma ofDecimal_tenMillion : Binary.ofDecimal double false ⟨1, 7⟩ = .finite false tenMillion := by
  decide +kernel

lemma value_thousandth : thousandth.value = plainStart.toRat :=
  Ratio.toRat_eq_iff.mpr (by decide +kernel)

lemma value_tenMillion : tenMillion.value = plainEnd.toRat :=
  Ratio.toRat_eq_iff.mpr (by decide +kernel)

end Magnitude

namespace Ratio

variable {a b r : Ratio}

lemma le_iff_toRat_le : a.le b = true ↔ a.toRat ≤ b.toRat := by
  have ha : (0 : ℚ) < a.den := Nat.cast_pos.mpr a.den_pos
  have hb : (0 : ℚ) < b.den := Nat.cast_pos.mpr b.den_pos
  unfold le toRat
  rw [decide_eq_true_iff, div_le_div_iff₀ ha hb]
  exact_mod_cast Iff.rfl

lemma lt_iff_toRat_lt : a.lt b = true ↔ a.toRat < b.toRat := by
  have ha : (0 : ℚ) < a.den := Nat.cast_pos.mpr a.den_pos
  have hb : (0 : ℚ) < b.den := Nat.cast_pos.mpr b.den_pos
  unfold lt toRat
  rw [decide_eq_true_iff, div_lt_div_iff₀ ha hb]
  exact_mod_cast Iff.rfl

lemma isPlain_iff : r.isPlain = true ↔ IsPlainSize r.toRat := by
  unfold isPlain IsPlainSize
  rw [Bool.and_eq_true, le_iff_toRat_le, lt_iff_toRat_lt, Magnitude.ofDecimal_thousandth,
    Magnitude.ofDecimal_tenMillion, ← Magnitude.value_thousandth, ← Magnitude.value_tenMillion]
  constructor
  · rintro ⟨hlow, hhigh⟩
    exact ⟨_, _, rfl, rfl, hlow, hhigh⟩
  · rintro ⟨low, high, hlow, hhigh, hle, hlt⟩
    cases hlow
    cases hhigh
    exact ⟨hle, hlt⟩

end Ratio

/-! ## Displays -/

/-- The text is laid out for a number with this sign and this size, shown by a decimal: it denotes
the decimal, and is plain or has a power of ten by the size of the number. -/
structure IsLayoutOf (negative : Bool) (size : ℚ) (shown : Decimal) (t : Text) : Prop where
  /-- The text denotes the decimal, with the sign. -/
  denotes : Denotes t (.exact negative shown.toRat)
  /-- Only numbers of plain size have a text without a power of ten. -/
  isPointed_iff : t.IsPointed ↔ IsPlainSize size
  /-- The text of a number of plain size has no superfluous zeros. -/
  plain : IsPlainSize size → t.PlainForm negative
  /-- All other texts have a power of ten. -/
  scientific : ¬ IsPlainSize size → t.ScientificForm negative

lemma isSign_signText (negative : Bool) : IsSign (signText negative) negative := by
  cases negative with
  | false => exact .none
  | true => exact .minus

/-- Whatever decimal shows a number, its text is laid out by the size of the number. -/
lemma isLayoutOf_layout {F : Format} {shown : Magnitude F → Decimal} {m : Magnitude F}
    (hm : m.significand ≠ 0) (hshown : (shown m).coefficient ≠ 0) (negative : Bool) :
    IsLayoutOf negative m.value (shown m) ((Binary.finite negative m).layout shown) := by
  have hdenotes : Denotes ((Binary.finite negative m).layout shown)
      (.exact negative (shown m).toRat) := by
    obtain ⟨n, hn, -, hvalue, htext⟩ := Binary.exists_layout_eq hm hshown negative
    rw [htext, ← hvalue, Numeral.toRat_toDecimal, ← List.append_nil n.text]
    exact .numeral (isSign_signText negative) hn (by decide)
  have hdigits := Decimal.isStripped_digits hshown
  have hsize : m.toRatio.isPlain = true ↔ IsPlainSize m.value := Ratio.isPlain_iff
  rw [Binary.layout, if_neg hm] at hdenotes ⊢
  dsimp only at hdenotes ⊢
  by_cases hplain : IsPlainSize m.value
  · rw [if_pos (hsize.mpr hplain)] at hdenotes ⊢
    have hform := hdigits.plainForm negative (shown m).point
    exact ⟨hdenotes, iff_of_true hform.isPointed hplain, fun _ => hform,
      fun hnot => absurd hplain hnot⟩
  · rw [if_neg fun h => hplain (hsize.mp h)] at hdenotes ⊢
    have hform := hdigits.scientificForm negative (shown m).point
    have hpointed : ¬ Text.IsPointed _ := fun h => h.mark_not_mem hform.mark_mem
    exact ⟨hdenotes, iff_of_false hpointed hplain, fun h => absurd h hplain, fun _ => hform⟩

/-- **Displays of floating numbers.** The display of a finite number other than zero denotes exactly
the decimal that shows the number. From a thousandth up to ten million it is plain, otherwise it has
a power of ten, and there are no superfluous zeros. -/
theorem display_isLayoutOf (negative : Bool) :
    (∀ m : Magnitude single, m.significand ≠ 0 →
      IsLayoutOf negative m.value m.shortestSingle (Value.float32 (.finite negative m)).display) ∧
    ∀ m : Magnitude double, m.significand ≠ 0 →
      IsLayoutOf negative m.value m.shortestDouble
        (Value.float64 (.finite negative m)).display := by
  constructor
  · intro m hm
    have hreads := of_decide_eq_true m.readsBackSingle_shortestSingle
    exact isLayoutOf_layout hm (Binary.coefficient_ne_zero hreads hm) negative
  · intro m hm
    have hreads : (Binary.ofDecimal double false m.shortestDouble).convert double
        = .finite false m := by
      rw [Binary.convert_self]
      exact of_decide_eq_true m.readsBackDouble_shortestDouble
    exact isLayoutOf_layout hm (Binary.coefficient_ne_zero hreads hm) negative

/-- The bounds of plain notation: the lower one is plain and the upper one is not. The least `float`
has a negative power of ten. -/
theorem display_isLayoutOf_bounds :
    ((Value.float64 (.finite true .thousandth)).display = "-0.001" ∧
      Text.PlainForm true "-0.001") ∧
    ((Value.float64 (.finite false .tenMillion)).display = "1.0E7" ∧
      Text.ScientificForm false "1.0E7") ∧
    IsLayoutOf true Magnitude.least.value Magnitude.least.shortestSingle "-1.0E-45" := by
  have hlow : (Value.float64 (.finite true .thousandth)).display = "-0.001" := by decide +kernel
  have hhigh : (Value.float64 (.finite false .tenMillion)).display = "1.0E7" := by decide +kernel
  have hleast : (Value.float32 (.finite true .least)).display = "-1.0E-45" := by decide +kernel
  have hplain : IsPlainSize Magnitude.thousandth.value := by
    refine ⟨_, _, Magnitude.ofDecimal_thousandth, Magnitude.ofDecimal_tenMillion, le_rfl, ?_⟩
    exact Magnitude.value_lt_value_iff.mpr (by decide +kernel)
  have hnot : ¬ IsPlainSize Magnitude.tenMillion.value := by
    rintro ⟨low, high, -, hten, -, hlt⟩
    rw [Magnitude.ofDecimal_tenMillion] at hten
    cases hten
    exact lt_irrefl _ hlt
  refine ⟨⟨hlow, ?_⟩, ⟨hhigh, ?_⟩, ?_⟩
  · rw [← hlow]
    exact ((display_isLayoutOf true).2 .thousandth (by decide)).plain hplain
  · rw [← hhigh]
    exact ((display_isLayoutOf false).2 .tenMillion (by decide)).scientific hnot
  · rw [← hleast]
    exact (display_isLayoutOf true).1 .least (by decide)

end LineShell
