import LineShell.Decimal.Layout
import LineShell.Proofs.Binary.Rounding
import LineShell.Proofs.Lexeme.Spelling
import Mathlib.Data.List.Induction

/-!
# Notations are numerals of the same value

Plain notation and notation with a power of ten spread the digits of a decimal around a point and
fill up with zeros. What they write is the text of a numeral with the value of the decimal
(`exists_writes_plain`, `exists_writes_scientific`). Zeros before the digits and behind them are all
there is to it: `toRat_of_padded` says what they are worth, wherever the point stands.
-/

namespace LineShell

/-! ## Digits and zeros -/

namespace Text

lemma natOfDigits_append (a b : Text) :
    natOfDigits (a ++ b) = natOfDigits a * 10 ^ b.length + natOfDigits b := by
  induction b using List.reverseRecOn with
  | nil => simp [natOfDigits]
  | append_singleton b c ih =>
      unfold natOfDigits at ih ⊢
      rw [← List.append_assoc, natOfBase_concat, natOfBase_concat, ih, List.length_append,
        List.length_singleton, pow_succ]
      ring

/-- A run of zeros. -/
def zeros (k : Nat) : Text :=
  List.replicate k ('0' : CodePoint)

lemma natOfDigits_zeros (k : Nat) : natOfDigits (zeros k) = 0 := by
  induction k with
  | zero => rfl
  | succ k ih =>
      have hsplit : zeros (k + 1) = zeros k ++ [('0' : CodePoint)] := List.replicate_succ'
      rw [hsplit, natOfDigits_append, ih]
      rfl

lemma isDigit_of_mem_zeros {k : Nat} {c : CodePoint} (h : c ∈ zeros k) : c.isDigit = true := by
  rw [List.eq_of_mem_replicate h]
  decide

end Text

open Text (natOfDigits zeros)

namespace Decimal

/-- A positive number has as many digits as its width says. -/
lemma length_ofNat {n : Nat} (h : 0 < n) : (Text.ofNat n).length = width n := by
  fun_induction Text.ofNat n with
  | case1 n hn =>
      rw [width_of_pos h, Nat.div_eq_of_lt hn, width_zero]
      rfl
  | case2 n hn ih => rw [List.length_append, ih (by omega), width_of_pos h, List.length_singleton]

/-- Only zeros are left out at the end. -/
lemma exists_ofNat_eq_digits_append (d : Decimal) :
    ∃ k, Text.ofNat d.coefficient = d.digits ++ zeros k := by
  set reversed := (Text.ofNat d.coefficient).reverse with hreversed
  set trailing := reversed.takeWhile (· = ('0' : CodePoint)) with htrailing
  have hzeros : trailing = zeros trailing.length := by
    apply List.eq_replicate_of_mem
    intro c hc
    simpa using List.mem_takeWhile_imp hc
  refine ⟨trailing.length, ?_⟩
  calc Text.ofNat d.coefficient
      = (trailing ++ reversed.dropWhile (· = ('0' : CodePoint))).reverse := by
        rw [htrailing, List.takeWhile_append_dropWhile, hreversed, List.reverse_reverse]
    _ = d.digits ++ trailing.reverse := List.reverse_append
    _ = d.digits ++ zeros trailing.length := by
        conv_lhs => rw [hzeros, zeros, List.reverse_replicate]
        rfl

lemma isDigit_of_mem_digits {d : Decimal} {c : CodePoint} (h : c ∈ d.digits) :
    c.isDigit = true := by
  obtain ⟨k, hk⟩ := d.exists_ofNat_eq_digits_append
  apply Text.isDigit_of_mem_ofNat (n := d.coefficient)
  rw [hk]
  exact List.mem_append_left _ h

lemma coefficient_eq {d : Decimal} {k : Nat} (h : Text.ofNat d.coefficient = d.digits ++ zeros k) :
    d.coefficient = natOfDigits d.digits * 10 ^ k := by
  rw [← Text.natOfDigits_ofNat d.coefficient, h, Text.natOfDigits_append, Text.natOfDigits_zeros]
  simp [zeros]

lemma digits_ne_nil {d : Decimal} (h : d.coefficient ≠ 0) : d.digits ≠ [] := by
  intro hnil
  obtain ⟨k, hk⟩ := d.exists_ofNat_eq_digits_append
  apply h
  rw [coefficient_eq hk, hnil]
  simp [natOfDigits]

/-- The value of a decimal by its digits and its point. -/
lemma toRat_eq {d : Decimal} (h : d.coefficient ≠ 0) :
    d.toRat = natOfDigits d.digits * 10 ^ (d.point - d.digits.length) := by
  obtain ⟨k, hk⟩ := d.exists_ofNat_eq_digits_append
  have hwidth : width d.coefficient = d.digits.length + k := by
    rw [← length_ofNat (Nat.pos_of_ne_zero h), hk, List.length_append, zeros,
      List.length_replicate]
  have hpower : d.point - d.digits.length = k + d.power := by
    unfold point
    omega
  unfold toRat
  rw [hpower, coefficient_eq hk, zpow_add₀ (by norm_num), zpow_natCast]
  push_cast
  ring

end Decimal

/-! ## Numerals as decimals -/

namespace Numeral

/-- The decimal that a numeral writes. -/
def toDecimal (n : Numeral) : Decimal :=
  ⟨n.coefficient, n.power⟩

/-- The value of a numeral whose digits stand between zeros. -/
lemma toRat_of_padded {n : Numeral} {digits : Text} {before behind : Nat}
    (h : n.whole ++ n.fractionDigits = zeros before ++ digits ++ zeros behind) :
    n.toDecimal.toRat = natOfDigits digits * 10 ^ (n.power + behind) := by
  have hcoefficient : n.coefficient = natOfDigits digits * 10 ^ behind := by
    unfold coefficient
    rw [h, Text.natOfDigits_append, Text.natOfDigits_append, Text.natOfDigits_zeros,
      Text.natOfDigits_zeros]
    simp [zeros]
  unfold Decimal.toRat toDecimal
  rw [hcoefficient, zpow_add₀ (by norm_num), zpow_natCast]
  push_cast
  ring

/-- The numeral writes some digits with the point at some place, and starts with a digit of its
own. -/
structure Writes (n : Numeral) (digits : Text) (point : Int) : Prop where
  /-- The numeral is well formed. -/
  wellFormed : n.WellFormed
  /-- It starts with a digit. -/
  whole_ne_nil : n.whole ≠ []
  /-- Its value is that of the digits with this point. -/
  toRat_eq : n.toDecimal.toRat = natOfDigits digits * 10 ^ (point - digits.length)

end Numeral

/-- The exponent of an integer. -/
def Exponent.ofInt (k : Int) : Exponent :=
  ⟨'E', if k < 0 then some ('-' : CodePoint) else none, Text.ofNat k.natAbs⟩

namespace Exponent

lemma text_ofInt (k : Int) : (ofInt k).text = ('E' : CodePoint) :: Text.ofInt k := by
  cases k with
  | ofNat n => simp [ofInt, text, Text.ofInt]
  | negSucc n => simp [ofInt, text, Text.ofInt, Int.negSucc_lt_zero]

lemma value_ofInt (k : Int) : (ofInt k).value = k := by
  unfold ofInt value
  dsimp only
  rw [Text.natOfDigits_ofNat]
  by_cases hk : k < 0
  · rw [if_pos hk]
    exact (if_pos rfl).trans (by omega)
  · rw [if_neg hk]
    exact (if_neg (by simp)).trans (by omega)

lemma wellFormed_ofInt (k : Int) : (ofInt k).WellFormed := by
  refine ⟨.inr rfl, ?_, Text.ofNat_ne_nil _, fun c hc => Text.isDigit_of_mem_ofNat hc⟩
  intro c hc
  unfold ofInt at hc
  dsimp only at hc
  split at hc
  · exact .inr (Option.some.inj hc).symm
  · cases hc

end Exponent

/-! ## Notations as numerals -/

namespace Numeral

/-- Digits on both sides of a point, zeros before the given ones and behind them, write the given
digits. -/
lemma writes_of_padded {digits whole fraction : Text} {point : Int} {before behind : Nat}
    (hwhole : ∀ c ∈ whole, c.isDigit = true) (hfraction : ∀ c ∈ fraction, c.isDigit = true)
    (hne : whole ≠ []) (h : whole ++ fraction = zeros before ++ digits ++ zeros behind)
    (hpoint : (behind : Int) - fraction.length = point - digits.length) :
    Writes ⟨whole, some fraction, none⟩ digits point := by
  refine ⟨⟨hwhole, hfraction, fun hnil => hne hnil.1, fun e he => by cases he⟩, hne, ?_⟩
  have hpower : power ⟨whole, some fraction, none⟩ + behind = point - digits.length := by
    simp only [power, fractionDigits, Option.getD_some]
    omega
  rw [← hpower]
  exact toRat_of_padded h

lemma text_point (whole fraction : Text) :
    text ⟨whole, some fraction, none⟩ = whole ++ "." ++ fraction := by
  simp [text, fractionText, exponentText, Text.ofString]

lemma text_withExponent {n : Numeral} (hnone : n.exponent = none) (k : Int) :
    text { n with exponent := some (.ofInt k) } = n.text ++ "E" ++ Text.ofInt k := by
  simp [text, exponentText, hnone, Exponent.text_ofInt, Text.ofString]

/-- A power of ten moves the point. -/
lemma Writes.withExponent {n : Numeral} {digits : Text} {point : Int} (hn : n.Writes digits point)
    (hnone : n.exponent = none) (k : Int) :
    Writes { n with exponent := some (.ofInt k) } digits (point + k) := by
  obtain ⟨⟨hwhole, hfraction, hne, -⟩, hwhole_ne, hvalue⟩ := hn
  refine ⟨⟨hwhole, hfraction, hne, ?_⟩, hwhole_ne, ?_⟩
  · intro e he
    obtain rfl := Option.some.inj he
    exact Exponent.wellFormed_ofInt k
  · have hpower : power { n with exponent := some (.ofInt k) } = n.power + k := by
      simp only [power, fractionDigits, hnone, Exponent.value_ofInt]
      omega
    have hten : (10 : ℚ) ≠ 0 := by norm_num
    calc (toDecimal { n with exponent := some (.ofInt k) }).toRat
        = n.coefficient * 10 ^ power { n with exponent := some (.ofInt k) } := rfl
      _ = n.toDecimal.toRat * 10 ^ k := by
          rw [hpower, zpow_add₀ hten, ← mul_assoc]
          rfl
      _ = natOfDigits digits * 10 ^ (point + k - digits.length) := by
          rw [hvalue, mul_assoc, ← zpow_add₀ hten]
          congr 2
          omega

end Numeral

namespace Decimal

variable {digits : Text}

lemma isDigit_of_mem_fraction (h : ∀ c ∈ digits, c.isDigit = true) :
    ∀ c ∈ fraction digits, c.isDigit = true := by
  unfold fraction
  split
  · decide
  · exact h

/-- Zeros can stand between the point and the digits. -/
lemma writes_zeros_append (h : ∀ c ∈ digits, c.isDigit = true) (k : Nat) :
    Numeral.Writes ⟨"0", some (zeros k ++ digits), none⟩ digits (-k) := by
  have hfraction : ∀ c ∈ zeros k ++ digits, c.isDigit = true := by
    intro c hc
    rcases List.mem_append.mp hc with hc | hc
    · exact Text.isDigit_of_mem_zeros hc
    · exact h c hc
  have hpadded : "0" ++ (zeros k ++ digits) = zeros (k + 1) ++ digits ++ zeros 0 := by
    simp [zeros, List.replicate_succ, Text.ofString]
  apply Numeral.writes_of_padded (by decide) hfraction (by decide) hpadded
  simp only [List.length_append, zeros, List.length_replicate]
  omega

/-- The point can stand among the digits, or behind them with zeros up to it. -/
lemma writes_take_drop (h : ∀ c ∈ digits, c.isDigit = true) (hne : digits ≠ []) {p : Nat}
    (hp : 0 < p) :
    Numeral.Writes ⟨digits.take p ++ zeros (p - digits.length),
      some (fraction (digits.drop p)), none⟩ digits p := by
  have hfraction : ∀ c ∈ fraction (digits.drop p), c.isDigit = true :=
    isDigit_of_mem_fraction fun c hc => h c (List.mem_of_mem_drop hc)
  have hwhole : ∀ c ∈ digits.take p ++ zeros (p - digits.length), c.isDigit = true := by
    intro c hc
    rcases List.mem_append.mp hc with hc | hc
    · exact h c (List.mem_of_mem_take hc)
    · exact Text.isDigit_of_mem_zeros hc
  have hwhole_ne : digits.take p ++ zeros (p - digits.length) ≠ [] := by
    simp [List.take_eq_nil_iff, hne, Nat.pos_iff_ne_zero.mp hp]
  -- Either some digits are left for the fraction, or a zero has to stand there.
  by_cases hlength : p < digits.length
  · have hdrop : digits.drop p ≠ [] := by simpa using hlength
    have hpadded : digits.take p ++ zeros (p - digits.length) ++ fraction (digits.drop p)
        = zeros 0 ++ digits ++ zeros 0 := by
      rw [fraction, if_neg hdrop, Nat.sub_eq_zero_of_le hlength.le]
      simp [zeros]
    apply Numeral.writes_of_padded hwhole hfraction hwhole_ne hpadded
    rw [fraction, if_neg hdrop, List.length_drop]
    omega
  · rw [Nat.not_lt] at hlength
    have hpadded : digits.take p ++ zeros (p - digits.length) ++ fraction (digits.drop p)
        = zeros 0 ++ digits ++ zeros (p - digits.length + 1) := by
      rw [List.take_of_length_le hlength, List.drop_of_length_le hlength]
      simp [zeros, fraction, List.replicate_succ', Text.ofString]
    apply Numeral.writes_of_padded hwhole hfraction hwhole_ne hpadded
    rw [List.drop_of_length_le hlength]
    simp [fraction, Text.ofString]
    omega

/-- Plain notation is a numeral. -/
lemma exists_writes_plain (h : ∀ c ∈ digits, c.isDigit = true) (hne : digits ≠ [])
    (point : Int) : ∃ n : Numeral, n.text = plain digits point ∧ n.Writes digits point := by
  rcases point with (_ | p) | p
  · exact ⟨_, Numeral.text_point _ _, writes_zeros_append h 0⟩
  · exact ⟨_, Numeral.text_point _ _, writes_take_drop h hne p.succ_pos⟩
  · exact ⟨_, Numeral.text_point _ _, writes_zeros_append h (p + 1)⟩

/-- Notation with a power of ten is a numeral. -/
lemma exists_writes_scientific (h : ∀ c ∈ digits, c.isDigit = true) (hne : digits ≠ [])
    (point : Int) : ∃ n : Numeral, n.text = scientific digits point ∧ n.Writes digits point := by
  have hwrites := (writes_take_drop h hne Nat.one_pos).withExponent rfl (point - 1)
  rw [Nat.cast_one, add_sub_cancel] at hwrites
  refine ⟨_, ?_, hwrites⟩
  have hzeros : zeros (1 - digits.length) = [] := by
    have := List.length_pos_of_ne_nil hne
    rw [Nat.sub_eq_zero_of_le this]
    rfl
  rw [Numeral.text_withExponent rfl, Numeral.text_point, hzeros, List.append_nil]
  simp [scientific, Text.ofString]

end Decimal

end LineShell
