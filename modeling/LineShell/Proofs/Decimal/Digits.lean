import LineShell.Proofs.Decimal.Grid
import LineShell.Proofs.Decimal.Notation

/-!
# Significant digits

The significant digits of a written number are those left of its power of ten, without zeros at
either end (`Text.significantDigits`).

* **Numerals** (`Text.significantDigits_numeral`): whatever stands around a numeral, the significant
  digits are those of the decimal that it writes. Digits without zeros in front are the only
  spelling of a number (`Text.ofNat_natOfDigits`), so nothing else is left.
* **Values** (`Decimal.length_digits_le_iff`): how many there are depends on the value alone. They
  are the fewest with which the value can be written.
-/

namespace LineShell

open Text (natOfDigits zeros)

/-! ## Digits and their values -/

namespace CodePoint

lemma val_ofDigit : ∀ d < 10, (ofDigit d).val = 0x30 + d := by decide

lemma digitValue_of_isDigit {c : CodePoint} (h : c.isDigit = true) :
    c.val = 0x30 + c.digitValue := by
  obtain ⟨hlow, hhigh⟩ := within_iff.mp h
  unfold digitValue
  rw [if_pos hhigh]
  omega

lemma ofDigit_digitValue {c : CodePoint} (h : c.isDigit = true) : ofDigit c.digitValue = c := by
  apply ext_val
  rw [val_ofDigit _ (digitValue_lt_ten h), digitValue_of_isDigit h]

lemma digitValue_eq_zero_iff {c : CodePoint} (h : c.isDigit = true) :
    c.digitValue = 0 ↔ c = ('0' : Char) := by
  constructor
  · intro hzero
    apply ext_val
    rw [digitValue_of_isDigit h, hzero]
    rfl
  · rintro rfl
    rfl

end CodePoint

namespace Text

lemma natOfDigits_concat (digits : Text) (c : CodePoint) :
    natOfDigits (digits ++ [c]) = natOfDigits digits * 10 + c.digitValue :=
  natOfBase_concat 10 digits c

/-- Only zeros denote zero. -/
lemma natOfDigits_eq_zero_iff {digits : Text} (h : ∀ c ∈ digits, c.isDigit = true) :
    natOfDigits digits = 0 ↔ digits.dropWhile (· = ('0' : CodePoint)) = [] := by
  rw [List.dropWhile_eq_nil_iff]
  induction digits using List.reverseRecOn with
  | nil => simp [natOfDigits]
  | append_singleton digits c ih =>
      have hc : c.isDigit = true := h c (by simp)
      rw [natOfDigits_concat]
      simp only [Nat.add_eq_zero_iff, Nat.mul_eq_zero, OfNat.ofNat_ne_zero, or_false,
        CodePoint.digitValue_eq_zero_iff hc, ih fun d hd => h d (List.mem_append_left _ hd),
        List.mem_append, List.mem_singleton, or_imp, forall_and, forall_eq, decide_eq_true_eq]

/-- Digits without zeros in front are the numeral of their number. -/
lemma ofNat_natOfDigits {digits : Text} (h : ∀ c ∈ digits, c.isDigit = true)
    (hne : natOfDigits digits ≠ 0) :
    ofNat (natOfDigits digits) = digits.dropWhile (· = ('0' : CodePoint)) := by
  induction digits using List.reverseRecOn with
  | nil => exact absurd rfl hne
  | append_singleton digits c ih =>
      have hc : c.isDigit = true := h c (by simp)
      have hdigits : ∀ d ∈ digits, d.isDigit = true := fun d hd => h d (List.mem_append_left _ hd)
      have hlt := CodePoint.digitValue_lt_ten hc
      rw [natOfDigits_concat] at hne ⊢
      by_cases hzero : natOfDigits digits = 0
      · have hdrop := (natOfDigits_eq_zero_iff hdigits).mp hzero
        have hc_ne : c ≠ ('0' : Char) := by
          rw [ne_eq, ← CodePoint.digitValue_eq_zero_iff hc]
          omega
        rw [hzero, Nat.zero_mul, Nat.zero_add, ofNat, if_pos hlt, CodePoint.ofDigit_digitValue hc]
        simp [List.dropWhile_append, hdrop, hc_ne]
      · have hdrop : digits.dropWhile (· = ('0' : CodePoint)) ≠ [] :=
          fun hnil => hzero ((natOfDigits_eq_zero_iff hdigits).mpr hnil)
        rw [ofNat, if_neg (by omega),
          show (natOfDigits digits * 10 + c.digitValue) / 10 = natOfDigits digits by omega,
          show (natOfDigits digits * 10 + c.digitValue) % 10 = c.digitValue by omega,
          ih hdigits hzero, CodePoint.ofDigit_digitValue hc]
        simp [List.dropWhile_append, hdrop]

/-! ## Significant digits of a text -/

/-- The digits in front of a power of ten. -/
def mantissa (t : Text) : Text :=
  (t.takeWhile fun c => c ≠ ('e' : CodePoint) ∧ c ≠ ('E' : CodePoint)).filter CodePoint.isDigit

/-- The digits of a number as it is written, its power of ten and the zeros at both ends of the
digits apart. -/
def significantDigits (t : Text) : Text :=
  (((mantissa t).dropWhile (· = ('0' : CodePoint))).reverse.dropWhile
    (· = ('0' : CodePoint))).reverse

/-- Neither digits nor the mark of a power of ten. -/
def Digitless (t : Text) : Prop :=
  ∀ c ∈ t, c.isDigit = false ∧ c ≠ ('e' : Char) ∧ c ≠ ('E' : Char)

lemma digitless_nil : Digitless [] :=
  fun c hc => by cases hc

lemma digitless_singleton {c : CodePoint}
    (h : c.isDigit = false ∧ c ≠ ('e' : Char) ∧ c ≠ ('E' : Char)) : Digitless [c] := by
  intro d hd
  rw [List.mem_singleton.mp hd]
  exact h

lemma Digitless.append {t u : Text} (ht : t.Digitless) (hu : u.Digitless) : (t ++ u).Digitless := by
  intro c hc
  rcases List.mem_append.mp hc with hc | hc
  · exact ht c hc
  · exact hu c hc

lemma mantissa_append {t : Text} (h : ∀ c ∈ t, c ≠ ('e' : Char) ∧ c ≠ ('E' : Char)) (u : Text) :
    mantissa (t ++ u) = t.filter CodePoint.isDigit ++ mantissa u := by
  unfold mantissa
  rw [List.takeWhile_append_of_pos fun c hc => by simpa using h c hc, List.filter_append]

lemma mantissa_digits_append {digits : Text} (h : ∀ c ∈ digits, c.isDigit = true) (u : Text) :
    mantissa (digits ++ u) = digits ++ mantissa u := by
  rw [mantissa_append, List.filter_eq_self.mpr h]
  intro c hc
  have hdigit := h c hc
  constructor
  · rintro rfl
    exact absurd hdigit (by decide)
  · rintro rfl
    exact absurd hdigit (by decide)

lemma Digitless.mantissa_append {t : Text} (h : t.Digitless) (u : Text) :
    mantissa (t ++ u) = mantissa u := by
  have hfilter : t.filter CodePoint.isDigit = [] := by
    rw [List.filter_eq_nil_iff]
    intro c hc
    simp [(h c hc).1]
  rw [Text.mantissa_append (fun c hc => (h c hc).2), hfilter, List.nil_append]

lemma Digitless.mantissa_eq_nil {t : Text} (h : t.Digitless) : mantissa t = [] := by
  have happend := h.mantissa_append []
  rwa [List.append_nil] at happend

/-- The mark of a power of ten ends the digits. -/
lemma mantissa_exponent_append {e : Exponent} (he : e.WellFormed) (u : Text) :
    mantissa (e.text ++ u) = [] := by
  unfold mantissa Exponent.text
  rcases he.mark with hmark | hmark
  · simp [hmark]
  · simp [hmark]

/-- The digits of a numeral, whatever stands around it. -/
lemma mantissa_numeral {n : Numeral} (hn : n.WellFormed) {front behind : Text}
    (hfront : front.Digitless) (hbehind : behind.Digitless) :
    mantissa (front ++ n.text ++ behind) = n.whole ++ n.fractionDigits := by
  have hexponent : mantissa (Numeral.exponentText n.exponent ++ behind) = [] := by
    rcases hexponent : n.exponent with _ | e
    · exact hbehind.mantissa_eq_nil
    · exact mantissa_exponent_append (hn.exponent e hexponent) behind
  have hfraction : mantissa (Numeral.fractionText n.fraction
      ++ (Numeral.exponentText n.exponent ++ behind)) = n.fractionDigits := by
    unfold Numeral.fractionDigits
    rcases hfraction : n.fraction with _ | digits
    · exact hexponent
    · have hdigits : ∀ c ∈ digits, c.isDigit = true := by
        have hall := hn.fraction
        rwa [hfraction] at hall
      have hpoint : Digitless [('.' : Char)] := digitless_singleton (by decide)
      calc mantissa ([(('.' : Char) : CodePoint)]
              ++ (digits ++ (Numeral.exponentText n.exponent ++ behind)))
          = digits ++ mantissa (Numeral.exponentText n.exponent ++ behind) := by
            rw [hpoint.mantissa_append, mantissa_digits_append hdigits]
        _ = digits := by rw [hexponent, List.append_nil]
  rw [List.append_assoc, hfront.mantissa_append, Numeral.text, List.append_assoc, List.append_assoc,
    mantissa_digits_append hn.whole, hfraction]

/-- The significant digits of a numeral, whatever stands around it, are those of its decimal. -/
lemma significantDigits_numeral {n : Numeral} (hn : n.WellFormed) (hne : n.coefficient ≠ 0)
    {front behind : Text} (hfront : front.Digitless) (hbehind : behind.Digitless) :
    significantDigits (front ++ n.text ++ behind) = n.toDecimal.digits := by
  have hdigits : ∀ c ∈ n.whole ++ n.fractionDigits, c.isDigit = true := by
    intro c hc
    rcases List.mem_append.mp hc with hc | hc
    · exact hn.whole c hc
    · exact hn.fraction c hc
  unfold significantDigits Decimal.digits
  rw [mantissa_numeral hn hfront hbehind, ← ofNat_natOfDigits hdigits hne]
  rfl

end Text

/-! ## The number of digits of a value -/

namespace Decimal

variable {d : Decimal}

/-- The last digit is not zero. -/
lemma not_ten_dvd_natOfDigits_digits (h : d.coefficient ≠ 0) : ¬ 10 ∣ natOfDigits d.digits := by
  obtain ⟨front, last, hsplit⟩ : ∃ front last, d.digits = front ++ [last] :=
    ⟨_, _, (List.dropLast_append_getLast (digits_ne_nil h)).symm⟩
  have hdigit : last.isDigit = true := by
    apply isDigit_of_mem_digits (d := d)
    rw [hsplit]
    exact List.mem_append_right _ List.mem_cons_self
  have hlast : last ≠ ('0' : Char) := by
    have hreversed : (Text.ofNat d.coefficient).reverse.dropWhile (· = ('0' : CodePoint))
        = last :: front.reverse := by
      simpa [digits] using congrArg List.reverse hsplit
    have hhead := List.head?_dropWhile_not (· = ('0' : CodePoint))
      (Text.ofNat d.coefficient).reverse
    rw [hreversed] at hhead
    simpa using hhead
  have hvalue : last.digitValue ≠ 0 := fun hzero =>
    hlast ((CodePoint.digitValue_eq_zero_iff hdigit).mp hzero)
  have hlt := CodePoint.digitValue_lt_ten hdigit
  rw [hsplit, Text.natOfDigits_concat]
  omega

/-- The first digit is not zero. -/
lemma ten_pow_le_natOfDigits_digits (h : d.coefficient ≠ 0) :
    10 ^ (d.digits.length - 1) ≤ natOfDigits d.digits := by
  obtain ⟨k, hk⟩ := d.exists_ofNat_eq_digits_append
  have hlength := List.length_pos_of_ne_nil (digits_ne_nil h)
  have hwidth : width d.coefficient = d.digits.length + k := by
    rw [← length_ofNat (Nat.pos_of_ne_zero h), hk, List.length_append, zeros,
      List.length_replicate]
  have hle : 10 ^ (width d.coefficient - 1) ≤ d.coefficient :=
    power_width_le (Nat.pos_of_ne_zero h)
  rw [hwidth, coefficient_eq hk, show d.digits.length + k - 1 = d.digits.length - 1 + k by omega,
    pow_add] at hle
  exact Nat.le_of_mul_le_mul_right hle (Nat.pow_pos (by norm_num))

/-- A number that is no multiple of ten is at most every other one with the same digits. -/
lemma le_of_mul_zpow_eq {a b : ℕ} {i j : ℤ} (ha : ¬ 10 ∣ a)
    (h : (a : ℚ) * 10 ^ i = b * 10 ^ j) : a ≤ b := by
  have hten : (10 : ℚ) ≠ 0 := by norm_num
  rcases le_or_gt j i with hle | hlt
  · obtain ⟨k, rfl⟩ := Int.le.dest hle
    have hcast : (a * 10 ^ k : ℚ) = b := by
      apply mul_right_cancel₀ (zpow_ne_zero j hten)
      rw [← h, zpow_add₀ hten, zpow_natCast]
      ring
    have heq : a * 10 ^ k = b := by exact_mod_cast hcast
    rw [← heq]
    exact Nat.le_mul_of_pos_right _ (Nat.pow_pos (by norm_num))
  · obtain ⟨k, rfl⟩ := Int.lt.dest hlt
    have hcast : (a : ℚ) = b * 10 ^ k * 10 := by
      apply mul_right_cancel₀ (zpow_ne_zero i hten)
      rw [h, zpow_add₀ hten, zpow_natCast, pow_succ]
      ring
    have heq : a = b * 10 ^ k * 10 := by exact_mod_cast hcast
    exact absurd ⟨b * 10 ^ k, heq.trans (Nat.mul_comm _ _)⟩ ha

/-- A value has as many digits as are needed to write it. -/
lemma length_digits_le_iff (h : d.coefficient ≠ 0) {n : ℕ} :
    d.digits.length ≤ n ↔ HasDigits n d.toRat := by
  constructor
  · intro hle
    have hlt : natOfDigits d.digits < 10 ^ d.digits.length :=
      Text.natOfBase_lt 10 _ fun c hc => CodePoint.digitValue_lt_ten (isDigit_of_mem_digits hc)
    exact ⟨_, _, hlt.trans_le (Nat.pow_le_pow_right (by norm_num) hle), toRat_eq h⟩
  · rintro ⟨c, e, hc, hvalue⟩
    rw [toRat_eq h] at hvalue
    have hle := le_of_mul_zpow_eq (not_ten_dvd_natOfDigits_digits h) hvalue
    have hpower : 10 ^ (d.digits.length - 1) < 10 ^ n :=
      (ten_pow_le_natOfDigits_digits h).trans_lt (hle.trans_lt hc)
    have hlt := (Nat.pow_lt_pow_iff_right (by norm_num)).mp hpower
    omega

end Decimal

end LineShell
