import LineShell.Proofs.Coercion.Floating

/-!
# Type `float`, rounded twice

A text of type `float` is read as a `double` and rounded again. The second rounding does not see
the text, so it may differ from rounding at once, but only where the `double` lies exactly halfway
between two neighbours of type `float`. The power of two behind the greatest number counts as a
neighbour of it.

* **Elsewhere** (`Binary.convert_ofRatio_of_not_isHalfway`) rounding twice is rounding once.
* **Halfway** between two numbers (`Binary.convert_of_adjacent`) the one with the even significand
  is taken, and behind the greatest number (`Binary.convert_of_behind_greatest`) an infinity.

`coercedTo_float_roundsTo` puts these together for texts.
-/

namespace LineShell

open Format (single double)
open Magnitude (Adjacent greatest ofUnits rounded)
open Text (natOfDigits)

/-- The format `double` holds the numbers halfway between those of type `float`. -/
lemma Format.halved_single_fitsIn_double : single.halved.FitsIn double :=
  ⟨by decide, by decide, by decide⟩

namespace Binary

variable {F G : Format} {negative : Bool} {r : Ratio}

/-- A finite number lies halfway between neighbours of a format, with a number beyond the range
as a neighbour of the greatest one. Signs make no difference. -/
def IsHalfway (F : Format) (beyond : ℚ) : Binary G → Prop
  | finite _ k => Magnitude.IsHalfway F beyond k.value
  | infinite _ => False
  | nan => False

/-- A number that is not halfway is no midpoint, and neither is what is beyond the range. -/
lemma toRat_ne_midpoint (hG : F.halved.FitsIn G) {k : ℕ}
    (hk : F.precision + F.maxShift = k + F.unitPlaces)
    (h : ¬ (ofRatio G negative r).IsHalfway F (2 ^ k)) (m : Magnitude F) :
    (ofUnits G (rounded G r)).toRat ≠ m.midpoint.value := by
  intro hmid
  rcases hround : Magnitude.ofRatio? G r with _ | d
  · -- Midpoints are numbers of the first format, so they are not beyond its range.
    obtain ⟨n, -, hn⟩ := Magnitude.exists_ofRatio?_toRatio hG m.midpoint
    have hvalue : (n.units : ℚ) / 2 ^ G.unitPlaces = rounded G r / 2 ^ G.unitPlaces := by
      rw [← Magnitude.value_eq, ← Magnitude.toRat_ofUnits, hmid]
      exact hn
    rw [div_left_inj' (by positivity), Nat.cast_inj] at hvalue
    have hlt := n.units_lt
    have hle := Magnitude.le_rounded_of_ofRatio?_eq_none hround
    omega
  · apply h
    rw [ofRatio_eq_finite_iff.mpr ⟨rfl, hround⟩]
    rw [← Magnitude.units_of_ofRatio? hround, ← Magnitude.toRatio_eq_ofUnits] at hmid
    have hhalfway := m.isHalfway_midpoint hk
    rw [← hmid] at hhalfway
    exact hhalfway

/-- Rounding twice is rounding once, unless the first rounding ends halfway. -/
lemma convert_ofRatio_of_not_isHalfway (hF : F.FitsIn G) (hG : F.halved.FitsIn G) {k : ℕ}
    (hk : F.precision + F.maxShift = k + F.unitPlaces)
    (h : ¬ (ofRatio G negative r).IsHalfway F (2 ^ k)) :
    (ofRatio G negative r).convert F = ofRatio F negative r := by
  rw [convert_ofRatio hF]
  unfold ofRatio
  rw [Magnitude.ofRatio?_ofUnits_rounded hG (toRat_ne_midpoint hG hk h)]

lemma ofRatio_eq_infinite_iff :
    ofRatio F negative r = .infinite negative ↔
      (greatest : Magnitude F).midpoint.value ≤ r.toRat := by
  rw [← Magnitude.ofRatio?_eq_none_iff]
  unfold ofRatio
  rcases Magnitude.ofRatio? F r with _ | m
  · simp
  · simp

/-- Unless the first rounding ends halfway, the value is not the one where the range ends. -/
lemma convert_ofRatio_eq_infinite_iff (hF : F.FitsIn G) (hG : F.halved.FitsIn G) {k : ℕ}
    (hk : F.precision + F.maxShift = k + F.unitPlaces)
    (h : ¬ (ofRatio G negative r).IsHalfway F (2 ^ k)) :
    (ofRatio G negative r).convert F = .infinite negative ↔
      (greatest : Magnitude F).midpoint.value < r.toRat := by
  have hne : r.toRat ≠ (greatest : Magnitude F).midpoint.value := fun hmid =>
    toRat_ne_midpoint hG hk h greatest
      (Magnitude.toRat_ofUnits_rounded_midpoint hG greatest hmid)
  rw [convert_ofRatio_of_not_isHalfway hF hG hk h, ofRatio_eq_infinite_iff, le_iff_lt_or_eq]
  exact or_iff_left hne.symm

/-- A number halfway between two adjacent ones goes to the one with the even significand. -/
lemma convert_of_adjacent (negative : Bool) (hF : 1 < F.precision) {n : Magnitude G}
    {a b : Magnitude F} (hab : Adjacent a b) (hn : 2 * n.value = a.value + b.value) :
    ((finite negative n).convert F = finite negative a ∧ Even a.significand) ∨
      ((finite negative n).convert F = finite negative b ∧ Even b.significand) := by
  have hlt := hab.lt
  have hle := Magnitude.value_le_value_iff.mpr b.units_le_greatest
  have hrange : n.value < (greatest : Magnitude F).midpoint.value := by
    linarith [(greatest : Magnitude F).value_lt_midpoint]
  rcases hround : Magnitude.ofRatio? F n.toRatio with _ | m
  · rw [Magnitude.ofRatio?_eq_none_iff] at hround
    exact absurd hrange (not_lt.mpr hround)
  · have hconvert : (finite negative n).convert F = finite negative m :=
      ofRatio_eq_finite_iff.mpr ⟨rfl, hround⟩
    obtain ⟨rfl | rfl, heven⟩ :=
      (Magnitude.isClosest_of_ofRatio? hF hround).of_halfway hab hn
    · exact .inl ⟨hconvert, heven⟩
    · exact .inr ⟨hconvert, heven⟩

/-- A number halfway between the greatest one and the power of two behind it goes to infinity. -/
lemma convert_of_behind_greatest {n : Magnitude G} {k : ℕ}
    (hk : F.precision + F.maxShift = k + F.unitPlaces)
    (hn : 2 * n.value = (greatest : Magnitude F).value + 2 ^ k) :
    (finite negative n).convert F = infinite negative := by
  have hmid := Magnitude.two_mul_value_midpoint_greatest hk
  have hle : (greatest : Magnitude F).midpoint.value ≤ n.value := by linarith
  exact ofRatio_eq_infinite_iff.mpr hle

end Binary

namespace Store

lemma coercedTo_float (text : Text) :
    coercedTo "float" text
      = match Coercion.floating? text.trim with
        | some y => .ok (.float32 (y.convert single))
        | none => .error (.error (.coercion (.malformed .float32 text))) :=
  coercedTo_floating (VarType.ofName?_name .float) (fun _ => rfl) text

end Store

/-- **Rounding twice is harmless but halfway.** A text that denotes a rational number has a value
`d` of type `double` and a value `x` of type `float`. If `d` is not exactly halfway between
neighbours of type `float`, then `x` is the rational number itself, rounded once, and is infinite
exactly beyond `2 ^ 128 - 2 ^ 103`. If `d` is halfway, then `x` is the neighbour with the even
significand, or infinite behind the greatest number, whatever the rational number is. -/
theorem coercedTo_float_roundsTo (text : Text) (negative : Bool) (r : ℚ)
    (h : Denotes text.trim (.exact negative r)) :
    ∃ (d : Binary double) (x : Binary single),
      Store.coercedTo "double" text = .ok (.float64 d) ∧
      Store.coercedTo "float" text = .ok (.float32 x) ∧
      (¬ d.IsHalfway single (2 ^ 128) →
        RoundsTo (2 ^ 128 - 2 ^ 103) (.exact negative r) x ∧
        (x = .infinite negative ↔ 2 ^ 128 - 2 ^ 103 < r)) ∧
      ∀ (sign : Bool) (n : Magnitude double), d = .finite sign n →
        (∀ a b : Magnitude single, Adjacent a b → 2 * n.value = a.value + b.value →
          (x = .finite negative a ∨ x = .finite negative b) ∧
          (x = .finite negative a ↔ Even a.significand) ∧
          (x = .finite negative b ↔ Even b.significand)) ∧
        (2 * n.value = (greatest : Magnitude single).value + 2 ^ 128 →
          x = .infinite negative) := by
  obtain ⟨r, rfl, hread⟩ := Coercion.floating?_of_denotes_exact h
  have hlimit : (greatest : Magnitude single).midpoint.value = 2 ^ 128 - 2 ^ 103 :=
    Magnitude.value_midpoint_greatest rfl rfl
  refine ⟨Binary.ofRatio double negative r, (Binary.ofRatio double negative r).convert single,
    ?_, ?_, ?_, ?_⟩
  · rw [Store.coercedTo_double, hread]
  · rw [Store.coercedTo_float, hread]
  · intro hhalfway
    rw [← hlimit, Binary.convert_ofRatio_eq_infinite_iff Format.single_fitsIn_double
      Format.halved_single_fitsIn_double rfl hhalfway]
    refine ⟨?_, Iff.rfl⟩
    rw [Binary.convert_ofRatio_of_not_isHalfway Format.single_fitsIn_double
      Format.halved_single_fitsIn_double rfl hhalfway]
    exact roundsTo_ofRatio (by decide) negative r
  · intro sign n hd
    obtain ⟨rfl, -⟩ := Binary.ofRatio_eq_finite_iff.mp hd
    rw [hd]
    constructor
    · intro a b hab hn
      have hne : a ≠ b := by
        rintro rfl
        exact lt_irrefl _ hab.lt
      rcases Binary.convert_of_adjacent negative (by decide) hab hn with
        ⟨hx, heven⟩ | ⟨hx, heven⟩
      · refine ⟨.inl hx, iff_of_true hx heven, iff_of_false ?_ (hab.not_even heven)⟩
        rw [hx]
        simpa using hne
      · refine ⟨.inr hx, iff_of_false ?_ fun ha => hab.not_even ha heven, iff_of_true hx heven⟩
        rw [hx]
        simpa using hne.symm
    · exact Binary.convert_of_behind_greatest rfl

/-- The number `16777217` of type `double`, halfway between two numbers of type `float`. -/
def Magnitude.halfwayDouble : Magnitude double :=
  ⟨16777217 * 2 ^ 28, 1046, by decide, by decide, by decide⟩

/-- The number `16777216` of type `float`. -/
def Magnitude.evenBelow : Magnitude single :=
  ⟨2 ^ 23, 150, by decide, by decide, by decide⟩

/-- The number `16777218` of type `float`. -/
def Magnitude.oddAbove : Magnitude single :=
  ⟨2 ^ 23 + 1, 150, by decide, by decide, by decide⟩

/-- A numeral of a number that is nearer to `16777218` than to `16777216`. -/
def nearOddAbove : Numeral :=
  ⟨"16777217", some "000000001", none⟩

lemma value_nearOddAbove : nearOddAbove.value = 16777217 + 1 / 10 ^ 9 := by
  have hwhole : natOfDigits nearOddAbove.whole = 16777217 := by decide +kernel
  have hfraction : natOfDigits nearOddAbove.fractionDigits = 1 := by decide +kernel
  have hlength : nearOddAbove.fractionDigits.length = 9 := by decide
  have hexponent : nearOddAbove.exponentValue = 0 := by decide
  rw [Numeral.value, hwhole, hfraction, hlength, hexponent]
  norm_num

lemma Magnitude.value_of_units_eq {F : Format} {m : Magnitude F} {n : ℕ}
    (h : m.units = n * 2 ^ F.unitPlaces) : m.value = n := by
  rw [value_eq, h, Nat.cast_mul, Nat.cast_pow, Nat.cast_ofNat,
    mul_div_cancel_right₀ _ (by positivity)]

/-- The first rounding loses the digit that tells the neighbours apart, and the second one goes to
the farther one, which has the even significand. -/
theorem coercedTo_float_roundsTo_farther :
    Denotes (Text.trim "16777217.000000001") (.exact false (16777217 + 1 / 10 ^ 9)) ∧
    Store.coercedTo "double" "16777217.000000001" = .ok (.float64 (.finite false .halfwayDouble)) ∧
    Store.coercedTo "float" "16777217.000000001" = .ok (.float32 (.finite false .evenBelow)) ∧
    |(16777217 + 1 / 10 ^ 9 : ℚ) - Magnitude.oddAbove.value|
      < |(16777217 + 1 / 10 ^ 9 : ℚ) - Magnitude.evenBelow.value| := by
  have hdenotes : Denotes (Text.trim "16777217.000000001")
      (.exact false (16777217 + 1 / 10 ^ 9)) := by
    have htext : Text.trim "16777217.000000001" = [] ++ (nearOddAbove.text ++ []) := by
      decide +kernel
    rw [htext, ← value_nearOddAbove]
    exact .numeral .none ⟨by decide, by decide, by decide, fun e he => by cases he⟩ (by decide)
  have hdouble : Store.coercedTo "double" "16777217.000000001"
      = .ok (.float64 (.finite false .halfwayDouble)) := by
    have hread : Coercion.floating? (Text.trim "16777217.000000001")
        = some (.finite false .halfwayDouble) := by
      decide +kernel
    rw [Store.coercedTo_double, hread]
  have hbetween : Magnitude.halfwayDouble.value = (16777217 : ℕ) :=
    Magnitude.value_of_units_eq (by decide +kernel)
  have hbelow : Magnitude.evenBelow.value = (16777216 : ℕ) :=
    Magnitude.value_of_units_eq (by decide +kernel)
  have habove : Magnitude.oddAbove.value = (16777218 : ℕ) :=
    Magnitude.value_of_units_eq (by decide +kernel)
  have hadjacent : Adjacent Magnitude.evenBelow Magnitude.oddAbove :=
    Magnitude.adjacent_of_units_eq (by decide +kernel)
  have heven : Even Magnitude.evenBelow.significand := by decide +kernel
  obtain ⟨d, x, hd, hx, -, hhalfway⟩ := coercedTo_float_roundsTo _ _ _ hdenotes
  rw [hdouble] at hd
  cases hd
  have hfar := (hhalfway false .halfwayDouble rfl).1 .evenBelow .oddAbove hadjacent
    (by rw [hbetween, hbelow, habove]; norm_num)
  rw [hfar.2.1.mpr heven] at hx
  refine ⟨hdenotes, hdouble, hx, ?_⟩
  rw [hbelow, habove]
  norm_num [abs_of_neg, abs_of_pos]

end LineShell
