import LineShell.Proofs.Coercion.Floating
import LineShell.Proofs.Text.Canonical

/-!
# Integers from text

`DenotesInteger` is the grammar of integers, a possible sign and some digits, together with the
number that the digits denote by their places and with how many they are. It is what the reader
splits a text into (`denotesInteger_iff`), so `Coercion.integer_of_denotes` says all about texts
with an integer and `Coercion.integer_of_not_denotes` all about the others.

Main statement: the types of integers read exactly the integers of their two's complement range,
and a value is displayed by the canonical numeral of its integer (`coercedTo_integer_exact`). The
number of digits is limited, and the limit comes before the range.
-/

namespace LineShell

open Text (natOfDigits positional)

/-! ## The grammar of integers -/

/-- The integer with this sign and these digits. -/
def signedInteger (negative : Bool) (digits : Text) : ℤ :=
  if negative then -(positional digits : ℤ) else positional digits

/-- The text is an integer of so many digits: a possible sign and the digits, zeros in front
included. -/
inductive DenotesInteger : Text → ℕ → ℤ → Prop
  | mk {sign digits : Text} {negative : Bool} (hsign : IsSign sign negative) (hne : digits ≠ [])
      (hdigits : ∀ c ∈ digits, c.isDigit = true) :
      DenotesInteger (sign ++ digits) digits.length (signedInteger negative digits)

namespace Coercion

lemma signed_eq_signedInteger (negative : Bool) (digits : Text) :
    signed negative digits = signedInteger negative digits := by
  unfold signed signedInteger
  rw [Text.natOfDigits_eq_positional]

lemma integerParts?_append {sign digits : Text} {negative : Bool} (hsign : IsSign sign negative)
    (hne : digits ≠ []) (hdigits : ∀ c ∈ digits, c.isDigit = true) :
    integerParts? (sign ++ digits) = some (negative, digits) := by
  obtain ⟨c, rest, rfl⟩ := List.exists_cons_of_ne_nil hne
  have hstart : ∀ d : CodePoint, d.isDigit = false → c ≠ d := by
    rintro d hd rfl
    rw [hdigits c List.mem_cons_self] at hd
    cases hd
  obtain ⟨mark, hscan, hmark⟩ := Numeral.scanSign_append hsign (hstart ('+' : Char) (by decide))
    (hstart ('-' : Char) (by decide)) rest
  unfold integerParts?
  rw [hscan]
  simp only [if_pos (And.intro hne (List.all_eq_true.mpr hdigits)), hmark]

lemma exists_of_integerParts? {t digits : Text} {negative : Bool}
    (h : integerParts? t = some (negative, digits)) :
    ∃ sign, IsSign sign negative ∧ digits ≠ [] ∧ (∀ c ∈ digits, c.isDigit = true) ∧
      t = sign ++ digits := by
  have hsign := Numeral.isSign_of_scanSign t
  have hsplit := Numeral.toList_append_of_scanSign t
  unfold integerParts? at h
  dsimp only at h
  split at h
  · next hdigits =>
    cases h
    exact ⟨_, hsign, hdigits.1, List.all_eq_true.mp hdigits.2, hsplit.symm⟩
  · cases h

end Coercion

/-- The reader splits off the sign of an integer and nothing else. -/
lemma denotesInteger_iff {t : Text} {k : ℕ} {z : ℤ} :
    DenotesInteger t k z ↔ ∃ negative digits,
      Coercion.integerParts? t = some (negative, digits) ∧ digits.length = k ∧
      Coercion.signed negative digits = z := by
  constructor
  · rintro ⟨hsign, hne, hdigits⟩
    exact ⟨_, _, Coercion.integerParts?_append hsign hne hdigits, rfl,
      Coercion.signed_eq_signedInteger _ _⟩
  · rintro ⟨negative, digits, hparts, rfl, rfl⟩
    obtain ⟨sign, hsign, hne, hdigits, rfl⟩ := Coercion.exists_of_integerParts? hparts
    rw [Coercion.signed_eq_signedInteger]
    exact .mk hsign hne hdigits

/-- A text denotes one integer only, by one number of digits. -/
lemma DenotesInteger.unique {t : Text} {k k' : ℕ} {z z' : ℤ} (h : DenotesInteger t k z)
    (h' : DenotesInteger t k' z') : k = k' ∧ z = z' := by
  obtain ⟨negative, digits, hparts, rfl, rfl⟩ := denotesInteger_iff.mp h
  obtain ⟨negative', digits', hparts', rfl, rfl⟩ := denotesInteger_iff.mp h'
  rw [hparts] at hparts'
  cases hparts'
  exact ⟨rfl, rfl⟩

/-! ## Canonical numerals of integers -/

lemma denotesInteger_ofInt (z : ℤ) :
    DenotesInteger (Text.ofInt z) (Text.ofNat z.natAbs).length z := by
  refine denotesInteger_iff.mpr ⟨_, _, Coercion.integerParts?_ofInt z, rfl, ?_⟩
  unfold Coercion.signed
  rw [Text.natOfDigits_ofNat]
  simp only [decide_eq_true_eq]
  split
  · omega
  · omega

lemma Text.IsWhole.denotesInteger {t : Text} (h : t.IsWhole) :
    DenotesInteger t t.length (natOfDigits t) := by
  rw [Text.natOfDigits_eq_positional]
  exact .mk .none h.ne_nil h.digits

/-- An integer has one canonical numeral. -/
lemma Text.IsCanonical.eq_ofInt {t : Text} {k : ℕ} {z : ℤ} (ht : t.IsCanonical)
    (h : DenotesInteger t k z) : t = Text.ofInt z := by
  cases ht with
  | whole hwhole =>
      rw [(h.unique hwhole.denotesInteger).2]
      exact hwhole.ofNat_natOfDigits.symm
  | @negative digits hwhole hne =>
      have hminus : DenotesInteger (('-' : Char) :: digits) digits.length
          (-(natOfDigits digits : ℤ)) := by
        rw [Text.natOfDigits_eq_positional]
        exact .mk .minus hwhole.ne_nil hwhole.digits
      have hread := hwhole.ofNat_natOfDigits
      rw [(h.unique hminus).2]
      -- Without the sign it would be the numeral of zero.
      obtain ⟨n, hn⟩ : ∃ n, natOfDigits digits = n + 1 := by
        refine Nat.exists_eq_succ_of_ne_zero fun hzero => hne ?_
        rw [← hread, hzero]
        decide +kernel
      rw [hn] at hread ⊢
      exact congrArg _ hread.symm

/-- The canonical numeral of an integer, without the function that writes it. -/
lemma Text.eq_ofInt_iff {t : Text} {z : ℤ} :
    t = Text.ofInt z ↔ t.IsCanonical ∧ ∃ k, DenotesInteger t k z := by
  constructor
  · rintro rfl
    exact ⟨Text.isCanonical_ofInt z, _, denotesInteger_ofInt z⟩
  · rintro ⟨ht, k, h⟩
    exact ht.eq_ofInt h

lemma Text.ofInt_injective {z z' : ℤ} (h : Text.ofInt z = Text.ofInt z') : z = z' := by
  have hread := denotesInteger_ofInt z
  rw [h] at hread
  exact (hread.unique (denotesInteger_ofInt z')).2

/-! ## Reading -/

namespace Coercion

variable {tag : Tag} {low high z : ℤ} {t : Text} {k : ℕ}

/-- What is read from an integer. The number of digits is looked at before the range. -/
lemma integer_of_denotes (h : DenotesInteger t k z) :
    integer tag low high t =
      if digitLimit < k then .error (.fault (.integerTooLong k))
      else if low ≤ z ∧ z ≤ high then .ok z else .error (.error (.outOfRange tag t)) := by
  obtain ⟨negative, digits, hparts, rfl, rfl⟩ := denotesInteger_iff.mp h
  unfold integer
  rw [hparts]

/-- Whatever is no integer is malformed. -/
lemma integer_of_not_denotes (h : ¬ ∃ k z, DenotesInteger t k z) :
    integer tag low high t = .error (.error (.malformed tag t)) := by
  rcases hparts : integerParts? t with _ | ⟨negative, digits⟩
  · unfold integer
    rw [hparts]
  · exact absurd ⟨_, _, denotesInteger_iff.mpr ⟨negative, digits, hparts, rfl, rfl⟩⟩ h

end Coercion

/-! ## Values that are integers -/

/-- The number of bits of the integers of a kind. -/
def Tag.bits? : Tag → Option ℕ
  | .int32 => some 32
  | .int64 => some 64
  | _ => none

/-- The integer has a two's complement form of so many bits. -/
def FitsBits (bits : ℕ) (z : ℤ) : Prop :=
  -2 ^ (bits - 1) ≤ z ∧ z ≤ 2 ^ (bits - 1) - 1

instance (bits : ℕ) (z : ℤ) : Decidable (FitsBits bits z) :=
  inferInstanceAs (Decidable (_ ∧ _))

namespace Value

/-- The integer that a value is. -/
def integer? : Value → Option ℤ
  | int32 n => some n.toInt
  | int64 n => some n.toInt
  | _ => none

/-- The value of a kind of integers. -/
def ofInteger (tag : Tag) (z : ℤ) : Value :=
  if tag = .int64 then int64 (.ofInt z) else int32 (.ofInt z)

lemma display_of_integer? {v : Value} {z : ℤ} (h : v.integer? = some z) :
    v.display = Text.ofInt z := by
  cases v with
  | int32 n => exact congrArg Text.ofInt (Option.some.inj h)
  | int64 n => exact congrArg Text.ofInt (Option.some.inj h)
  | bool | float32 | float64 | str => cases h

/-- An integer of the range is kept as it is. -/
lemma integer?_ofInteger {tag : Tag} {bits : ℕ} {z : ℤ} (hbits : tag.bits? = some bits)
    (hz : FitsBits bits z) : (ofInteger tag z).integer? = some z ∧ (ofInteger tag z).tag = tag := by
  cases tag with
  | int32 =>
      cases hbits
      exact ⟨congrArg some (Int32.toInt_ofInt_of_le hz.1 (by have := hz.2; omega)), rfl⟩
  | int64 =>
      cases hbits
      exact ⟨congrArg some (Int64.toInt_ofInt_of_le hz.1 (by have := hz.2; omega)), rfl⟩
  | bool | float32 | float64 | str => cases hbits

end Value

lemma Tag.coerce_of_bits? {tag : Tag} {bits : ℕ} (hbits : tag.bits? = some bits) (t : Text) :
    tag.coerce t = (Coercion.integer tag (-2 ^ (bits - 1)) (2 ^ (bits - 1) - 1) t).map
      (Value.ofInteger tag) := by
  cases tag with
  | int32 =>
      cases hbits
      rfl
  | int64 =>
      cases hbits
      rfl
  | bool | float32 | float64 | str => cases hbits

namespace Store

variable {type : VarType} {bits k : ℕ} {t : Text} {z : ℤ} {v : Value}

/-- What a type of integers reads from an integer. -/
lemma coercedTo_of_denotes (hbits : type.tag.bits? = some bits) (h : DenotesInteger t k z) :
    coercedTo type.name t =
      if Coercion.digitLimit < k then .error (.fault (.integerTooLong k))
      else if FitsBits bits z then .ok (.ofInteger type.tag z)
      else .error (.error (.coercion (.outOfRange type.tag t))) := by
  rw [coercedTo_of_ofName? (VarType.ofName?_name type), coerced, Tag.coerce_of_bits? hbits,
    Coercion.integer_of_denotes h]
  by_cases hlimit : Coercion.digitLimit < k
  · rw [if_pos hlimit, if_pos hlimit]
    rfl
  · rw [if_neg hlimit, if_neg hlimit]
    by_cases hfits : FitsBits bits z
    · rw [if_pos hfits, if_pos (show _ ∧ _ from hfits)]
      rfl
    · rw [if_neg hfits, if_neg (show ¬ (_ ∧ _) from hfits)]
      rfl

/-- Whatever is no integer is refused as malformed. -/
lemma coercedTo_of_not_denotes (hbits : type.tag.bits? = some bits)
    (h : ¬ ∃ k z, DenotesInteger t k z) :
    coercedTo type.name t = .error (.error (.coercion (.malformed type.tag t))) := by
  rw [coercedTo_of_ofName? (VarType.ofName?_name type), coerced, Tag.coerce_of_bits? hbits,
    Coercion.integer_of_not_denotes h]
  rfl

/-- A value of a type of integers is the integer of its text. -/
lemma exists_denotes_of_coercedTo (hbits : type.tag.bits? = some bits)
    (h : coercedTo type.name t = .ok v) :
    ∃ k z, DenotesInteger t k z ∧ v.integer? = some z := by
  by_cases hdenotes : ∃ k z, DenotesInteger t k z
  · obtain ⟨k, z, hz⟩ := hdenotes
    refine ⟨k, z, hz, ?_⟩
    rw [coercedTo_of_denotes hbits hz] at h
    split at h
    · cases h
    · split at h
      · next hfits =>
        cases h
        exact (Value.integer?_ofInteger hbits hfits).1
      · cases h
  · rw [coercedTo_of_not_denotes hbits hdenotes] at h
    cases h

end Store

/-- **Integers are read exactly.** A text that is an integer of at most 4300 digits is read by a
type of integers as this integer, if it has a two's complement form of as many bits as the type, and
refused as out of range otherwise. An integer of more digits is a fault, whatever its value, and
every other text is refused as malformed. A value is displayed by the only canonical numeral of its
integer, so texts are displayed alike exactly if they denote the same integer. -/
theorem coercedTo_integer_exact (type : VarType) (bits : ℕ) (hbits : type.tag.bits? = some bits)
    (x : Text) :
    (∀ k z, DenotesInteger x k z →
      (k ≤ 4300 → FitsBits bits z → ∃ v, Store.coercedTo type.name x = .ok v ∧ v.tag = type.tag ∧
        v.integer? = some z ∧ ∀ t, t = v.display ↔ t.IsCanonical ∧ ∃ j, DenotesInteger t j z) ∧
      (k ≤ 4300 → ¬ FitsBits bits z →
        Store.coercedTo type.name x = .error (.error (.coercion (.outOfRange type.tag x)))) ∧
      (4300 < k → Store.coercedTo type.name x = .error (.fault (.integerTooLong k)))) ∧
    ((¬ ∃ k z, DenotesInteger x k z) →
      Store.coercedTo type.name x = .error (.error (.coercion (.malformed type.tag x)))) ∧
    ∀ (type' : VarType) (bits' : ℕ) (x' : Text) (v v' : Value), type'.tag.bits? = some bits' →
      Store.coercedTo type.name x = .ok v → Store.coercedTo type'.name x' = .ok v' →
      (v.display = v'.display ↔ ∃ k k' z, DenotesInteger x k z ∧ DenotesInteger x' k' z) := by
  refine ⟨fun k z hz => ⟨?_, ?_, ?_⟩, Store.coercedTo_of_not_denotes hbits, ?_⟩
  · intro hk hfits
    obtain ⟨hinteger, htag⟩ := Value.integer?_ofInteger hbits hfits
    refine ⟨_, ?_, htag, hinteger, fun t => ?_⟩
    · have hlimit : ¬ Coercion.digitLimit < k := not_lt.mpr hk
      rw [Store.coercedTo_of_denotes hbits hz, if_neg hlimit, if_pos hfits]
    · rw [Value.display_of_integer? hinteger, Text.eq_ofInt_iff]
  · intro hk hfits
    have hlimit : ¬ Coercion.digitLimit < k := not_lt.mpr hk
    rw [Store.coercedTo_of_denotes hbits hz, if_neg hlimit, if_neg hfits]
  · intro hk
    rw [Store.coercedTo_of_denotes hbits hz]
    exact if_pos hk
  · intro type' bits' x' v v' hbits' hv hv'
    obtain ⟨k, z, hz, hinteger⟩ := Store.exists_denotes_of_coercedTo hbits hv
    obtain ⟨k', z', hz', hinteger'⟩ := Store.exists_denotes_of_coercedTo hbits' hv'
    rw [Value.display_of_integer? hinteger, Value.display_of_integer? hinteger']
    constructor
    · intro hsame
      obtain rfl := Text.ofInt_injective hsame
      exact ⟨k, k', z, hz, hz'⟩
    · rintro ⟨j, j', y, hy, hy'⟩
      rw [(hz.unique hy).2, (hz'.unique hy').2]

/-- The least integer of 32 bits with zeros in front is displayed without them, as the same integer
of 64 bits is. The next one above the greatest is out of range, 4301 zeros are too many digits, and
a point makes a text malformed. -/
theorem coercedTo_integer_exact_least :
    (∃ v v', Store.coercedTo "int" "-0002147483648" = .ok v ∧ v.integer? = some (-2147483648) ∧
      v.display = "-2147483648" ∧ Store.coercedTo "Long" "-2147483648" = .ok v' ∧
      v.display = v'.display) ∧
    Store.coercedTo "int" "+2147483648"
      = .error (.error (.coercion (.outOfRange .int32 "+2147483648"))) ∧
    Store.coercedTo "int" (Text.zeros 4301) = .error (.fault (.integerTooLong 4301)) ∧
    Store.coercedTo "int" "1.0" = .error (.error (.coercion (.malformed .int32 "1.0"))) := by
  have hint : Tag.bits? VarType.int.tag = some 32 := rfl
  have hlong : Tag.bits? VarType.boxedLong.tag = some 64 := rfl
  have hleast : DenotesInteger "-0002147483648" 13 (-2147483648) :=
    denotesInteger_iff.mpr ⟨true, "0002147483648", by decide, by decide, by decide +kernel⟩
  have hcanonical : DenotesInteger "-2147483648" 10 (-2147483648) :=
    denotesInteger_iff.mpr ⟨true, "2147483648", by decide, by decide, by decide +kernel⟩
  have hgreater : DenotesInteger "+2147483648" 10 2147483648 :=
    denotesInteger_iff.mpr ⟨false, "2147483648", by decide, by decide, by decide +kernel⟩
  have hzeros : DenotesInteger (Text.zeros 4301) 4301 (signedInteger false (Text.zeros 4301)) := by
    have hlength : (Text.zeros 4301).length = 4301 := List.length_replicate
    have hne : Text.zeros 4301 ≠ [] := List.ne_nil_of_length_eq_add_one hlength
    have hmk := DenotesInteger.mk .none hne fun c hc => Text.isDigit_of_mem_zeros hc
    rwa [hlength] at hmk
  have hpoint : ¬ ∃ k z, DenotesInteger "1.0" k z := by
    rintro ⟨k, z, h⟩
    obtain ⟨negative, digits, hparts, -⟩ := denotesInteger_iff.mp h
    rw [show Coercion.integerParts? "1.0" = none by decide] at hparts
    cases hparts
  obtain ⟨v, hv, -, hinteger, hdisplay⟩ :=
    ((coercedTo_integer_exact .int 32 hint _).1 _ _ hleast).1 (by decide) (by decide)
  obtain ⟨v', hv', -⟩ :=
    ((coercedTo_integer_exact .boxedLong 64 hlong _).1 _ _ hcanonical).1 (by decide) (by decide)
  refine ⟨⟨v, v', hv, hinteger, ?_, hv', ?_⟩, ?_, ?_, ?_⟩
  · have hshort : Text.IsWhole "2147483648" := ⟨by decide, by decide, by decide⟩
    exact ((hdisplay "-2147483648").mpr ⟨.negative hshort (by decide), _, hcanonical⟩).symm
  · exact ((coercedTo_integer_exact .int 32 hint _).2.2 .boxedLong 64 _ v v' hlong hv hv').mpr
      ⟨_, _, _, hleast, hcanonical⟩
  · exact ((coercedTo_integer_exact .int 32 hint _).1 _ _ hgreater).2.1 (by decide) (by decide)
  · exact ((coercedTo_integer_exact .int 32 hint _).1 _ _ hzeros).2.2 (by decide)
  · exact (coercedTo_integer_exact .int 32 hint _).2.1 hpoint

end LineShell
