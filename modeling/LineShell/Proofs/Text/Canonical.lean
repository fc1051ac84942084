import LineShell.Proofs.Decimal.Digits
import Mathlib.Data.Nat.Digits.Defs

/-!
# Canonical numerals

A number has many spellings, since zeros can stand in front of its digits. Without superfluous
zeros there is only one, and it is the one that `Text.ofNat` writes (`Text.IsWhole`,
`Text.isWhole_ofNat`, `Text.IsWhole.ofNat_natOfDigits`). Integers have no plus sign and no negative
zero besides (`Text.IsCanonical`, `Text.isCanonical_ofInt`).

What digits denote is also stated without the loop that reads them: `Text.positional` counts every
digit with its power of ten.
-/

namespace LineShell

namespace Text

/-! ## Digits by their places -/

/-- The number that decimal digits denote, the last one counted once, the one before it ten times
and so on. -/
def positional (digits : Text) : ℕ :=
  Nat.ofDigits 10 (digits.map CodePoint.digitValue).reverse

lemma natOfDigits_eq_positional (digits : Text) : natOfDigits digits = positional digits := by
  unfold positional
  induction digits using List.reverseRecOn with
  | nil => rfl
  | append_singleton digits c ih =>
      rw [natOfDigits_concat, ih, List.map_append, List.reverse_append, List.map_singleton,
        List.reverse_singleton, List.singleton_append, Nat.ofDigits_cons]
      ring

/-! ## Natural numbers -/

/-- Digits without a superfluous zero in front. -/
structure IsWhole (t : Text) : Prop where
  /-- There are only digits. -/
  digits : ∀ c ∈ t, c.isDigit = true
  /-- There is some digit. -/
  ne_nil : t ≠ []
  /-- A zero does not stand in front of other digits. -/
  eq_zero : t.head? = some (('0' : Char) : CodePoint) → t = "0"

/-- The numeral of a positive number does not start with a zero. -/
lemma head?_ofNat_ne {n : Nat} (h : 0 < n) :
    (ofNat n).head? ≠ some (('0' : Char) : CodePoint) := by
  fun_induction ofNat n with
  | case1 n hn =>
      intro hhead
      have hdigit := congrArg CodePoint.digitValue (Option.some.inj hhead)
      rw [CodePoint.digitValue_ofDigit n (by omega)] at hdigit
      exact absurd hdigit h.ne'
  | case2 n hn ih =>
      rw [List.head?_append_of_ne_nil _ (ofNat_ne_nil _)]
      exact ih (by omega)

lemma isWhole_ofNat (n : Nat) : (ofNat n).IsWhole := by
  refine ⟨fun c hc => isDigit_of_mem_ofNat hc, ofNat_ne_nil n, fun hhead => ?_⟩
  rcases Nat.eq_zero_or_pos n with rfl | hpos
  · decide +kernel
  · exact absurd hhead (head?_ofNat_ne hpos)

/-- Only zero is written with a zero in front. -/
lemma IsWhole.ofNat_natOfDigits {t : Text} (h : t.IsWhole) : ofNat (natOfDigits t) = t := by
  obtain ⟨c, rest, rfl⟩ := List.exists_cons_of_ne_nil h.ne_nil
  by_cases hc : c = ('0' : Char)
  · rw [h.eq_zero (by rw [hc, List.head?_cons])]
    decide +kernel
  · have hdrop : (c :: rest).dropWhile (· = ('0' : CodePoint)) = c :: rest := by
      simp [hc]
    have hne : natOfDigits (c :: rest) ≠ 0 := by
      rw [ne_eq, natOfDigits_eq_zero_iff h.digits, hdrop]
      exact List.cons_ne_nil c rest
    rw [Text.ofNat_natOfDigits h.digits hne, hdrop]

/-! ## Integers -/

/-- The numeral of an integer: a minus sign for negative numbers, and digits without a superfluous
zero in front. -/
inductive IsCanonical : Text → Prop
  | whole {t : Text} (h : t.IsWhole) : IsCanonical t
  | negative {t : Text} (h : t.IsWhole) (hne : t ≠ "0") : IsCanonical (('-' : Char) :: t)

lemma isCanonical_ofInt (z : ℤ) : (ofInt z).IsCanonical := by
  cases z with
  | ofNat n => exact .whole (isWhole_ofNat n)
  | negSucc n =>
      refine .negative (isWhole_ofNat (n + 1)) fun hzero => ?_
      have hhead := head?_ofNat_ne n.succ_pos
      rw [hzero] at hhead
      exact hhead rfl

end Text

end LineShell
