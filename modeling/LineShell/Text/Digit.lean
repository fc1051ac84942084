import LineShell.Text.CodePoint

/-!
# ASCII digits and numerals

Digits of the bases eight, ten and sixteen, the number a run of digits denotes, and the decimal
numeral of a number. Main statement: reading the numeral of a number gives the number back
(`natOfDigits_ofNat`).
-/

namespace LineShell

namespace CodePoint

/-- Whether the code point is one of the ASCII digits `0` to `9`. -/
def isDigit (c : CodePoint) : Bool :=
  c.within 0x30 0x39

/-- Whether the code point is one of the digits `0` to `7`. -/
def isOctalDigit (c : CodePoint) : Bool :=
  c.within 0x30 0x37

/-- Whether the code point is an ASCII letter. -/
def isLetter (c : CodePoint) : Bool :=
  c.within 0x41 0x5A || c.within 0x61 0x7A

/-- Whether the code point is a hexadecimal digit of either case. -/
def isHexDigit (c : CodePoint) : Bool :=
  c.isDigit || c.within 0x41 0x46 || c.within 0x61 0x66

/-- The value of a digit: `0` to `9` as usual, the letters of either case from ten on. -/
def digitValue (c : CodePoint) : Nat :=
  if c.val ≤ 0x39 then c.val - 0x30
  else if c.val ≤ 0x46 then c.val - 0x41 + 10
  else c.val - 0x61 + 10

/-- The lower-case digit of a value below sixteen. -/
def ofDigit (d : Nat) : CodePoint :=
  if d < 10 then ofChar (Char.ofNat (0x30 + d)) else ofChar (Char.ofNat (0x57 + d))

theorem digitValue_ofDigit : ∀ d < 16, (ofDigit d).digitValue = d := by decide

theorem isDigit_ofDigit : ∀ d < 10, (ofDigit d).isDigit = true := by decide

/-- An octal digit stands for a number below eight. -/
theorem digitValue_lt_eight {c : CodePoint} (h : c.isOctalDigit = true) : c.digitValue < 8 := by
  have hc := within_iff.mp h
  simp only [digitValue]
  split <;> omega

/-- A decimal digit stands for a number below ten. -/
theorem digitValue_lt_ten {c : CodePoint} (h : c.isDigit = true) : c.digitValue < 10 := by
  have hc := within_iff.mp h
  simp only [digitValue]
  split <;> omega

/-- A hexadecimal digit stands for a number below sixteen. -/
theorem digitValue_lt_sixteen {c : CodePoint} (h : c.isHexDigit = true) :
    c.digitValue < 16 := by
  simp only [isHexDigit, Bool.or_eq_true, isDigit, within_iff] at h
  simp only [digitValue]
  split
  · omega
  · split <;> omega

end CodePoint

namespace Text

/-- The number that digits of a base denote, the most significant digit first. -/
def natOfBase (base : Nat) (digits : Text) : Nat :=
  digits.foldl (fun n c => n * base + c.digitValue) 0

/-- The number that decimal digits denote. -/
def natOfDigits (digits : Text) : Nat :=
  natOfBase 10 digits

@[simp] theorem natOfBase_nil (base : Nat) : natOfBase base [] = 0 := rfl

theorem natOfBase_concat (base : Nat) (digits : Text) (c : CodePoint) :
    natOfBase base (digits ++ [c]) = natOfBase base digits * base + c.digitValue := by
  simp [natOfBase, List.foldl_append]

/-- Digits below the base denote a number below the power of the base with their count. -/
theorem natOfBase_lt (base : Nat) (digits : Text)
    (h : ∀ c ∈ digits, c.digitValue < base) :
    natOfBase base digits < Nat.pow base digits.length := by
  suffices hacc : ∀ acc : Nat, ∀ ds : Text, (∀ c ∈ ds, c.digitValue < base) →
      ds.foldl (fun n c => n * base + c.digitValue) acc < (acc + 1) * Nat.pow base ds.length by
    simpa [natOfBase] using hacc 0 digits h
  intro acc ds
  induction ds generalizing acc with
  | nil => simp
  | cons c rest ih =>
    intro hds
    have hc : c.digitValue < base := hds c (by simp)
    have hrest := ih (acc * base + c.digitValue) fun d hd => hds d (by simp [hd])
    simp only [List.foldl_cons, List.length_cons]
    refine Nat.lt_of_lt_of_le hrest ?_
    have hstep : acc * base + c.digitValue + 1 ≤ (acc + 1) * base := by
      rw [Nat.add_mul]
      omega
    calc (acc * base + c.digitValue + 1) * Nat.pow base rest.length
        ≤ (acc + 1) * base * Nat.pow base rest.length := Nat.mul_le_mul_right _ hstep
      _ = (acc + 1) * (Nat.pow base rest.length * base) := by
        rw [Nat.mul_assoc, Nat.mul_comm base]

/-- The decimal numeral of a natural number, without superfluous zeros. -/
def ofNat (n : Nat) : Text :=
  if n < 10 then [CodePoint.ofDigit n]
  else ofNat (n / 10) ++ [CodePoint.ofDigit (n % 10)]
termination_by n
decreasing_by omega

/-- The decimal numeral of an integer, with a minus sign in front of a negative one. -/
def ofInt : Int → Text
  | .ofNat n => ofNat n
  | .negSucc n => '-' :: ofNat (n + 1)

/-- Exactly `width` hexadecimal digits for the lowest digits of `n`. -/
def ofNatHex : Nat → Nat → Text
  | 0, _ => []
  | width + 1, n => ofNatHex width (n / 16) ++ [CodePoint.ofDigit (n % 16)]

theorem natOfDigits_ofNat (n : Nat) : natOfDigits (ofNat n) = n := by
  fun_induction ofNat n with
  | case1 n h =>
    have hv := CodePoint.digitValue_ofDigit n (by omega)
    simp [natOfDigits, natOfBase, hv]
  | case2 n h ih =>
    have hv := CodePoint.digitValue_ofDigit (n % 10) (by omega)
    have hc := natOfBase_concat 10 (ofNat (n / 10)) (CodePoint.ofDigit (n % 10))
    simp only [natOfDigits] at ih ⊢
    rw [hc, ih, hv]
    omega

/-- A decimal numeral holds decimal digits only. -/
theorem isDigit_of_mem_ofNat {n : Nat} {c : CodePoint} (h : c ∈ ofNat n) :
    c.isDigit = true := by
  fun_induction ofNat n with
  | case1 n hn =>
    rw [List.mem_singleton.mp h]
    exact CodePoint.isDigit_ofDigit n hn
  | case2 n hn ih =>
    rcases List.mem_append.mp h with h | h
    · exact ih h
    · rw [List.mem_singleton.mp h]
      exact CodePoint.isDigit_ofDigit _ (by omega)

theorem ofNat_ne_nil (n : Nat) : ofNat n ≠ [] := by
  unfold ofNat
  split <;> simp

end Text

end LineShell
