import LineShell.Proofs.Coercion.Numeral
import LineShell.Proofs.Decimal.Notation
import LineShell.Proofs.Fragment.Simulation

/-!
# Displays are read back

The store builds the value of a variable from a display, so no display may lose anything. Main
statement: whatever text gave a value of a type, the display of the value gives the same value
again (`coercedTo_display_of_coercedTo`). Integers and texts are plain. A floating number is shown
by a decimal that reads back as it, and its text is a numeral of the same value: `floating_layout`
puts the two together, for both formats, and `Value.coerce_display` for all kinds.
-/

namespace LineShell

open Text

/-! ## Numerals as text -/

namespace Text

lemma trimEnd_of_forall {t : Text} (h : ∀ c ∈ t, c.isBlank = false) : t.trimEnd = t := by
  induction t with
  | nil => rfl
  | cons c rest ih =>
      rw [trimEnd, ih fun d hd => h d (List.mem_cons_of_mem c hd)]
      cases rest with
      | nil => simp [h c List.mem_cons_self]
      | cons d rest => rfl

/-- A text without blanks is not trimmed. -/
lemma trim_of_forall {t : Text} (h : ∀ c ∈ t, c.isBlank = false) : t.trim = t := by
  have hdrop : t.dropWhile CodePoint.isBlank = t := by
    cases t with
    | nil => rfl
    | cons c rest => simp [h c List.mem_cons_self]
  rw [trim, hdrop, trimEnd_of_forall h]

end Text

lemma CodePoint.isBlank_of_isDigit {c : CodePoint} (h : c.isDigit = true) : c.isBlank = false := by
  obtain ⟨hlow, hhigh⟩ := within_iff.mp h
  exact isBlank_of_between (by omega) (by omega)

/-- There are no blanks in a numeral. -/
lemma Numeral.WellFormed.isBlank_of_mem {n : Numeral} (hn : n.WellFormed) {c : CodePoint}
    (h : c ∈ n.text) : c.isBlank = false := by
  have hmarks : ∀ d ∈ (".eE+-" : Text), d.isBlank = false := by decide
  rcases hn.mem_text h with hc | hc
  · exact CodePoint.isBlank_of_isDigit hc
  · exact hmarks c hc

/-! ## Floating numbers -/

open Binary.layout (signText)

lemma isBlank_of_mem_signText {negative : Bool} {c : CodePoint} (h : c ∈ signText negative) :
    c.isBlank = false := by
  cases negative with
  | false => cases h
  | true =>
      rw [List.mem_singleton.mp h]
      decide

namespace Numeral

/-- A digit is no sign. -/
lemma scanSign_of_isDigit {c : CodePoint} (hc : c.isDigit = true) (rest : Text) :
    scanSign (c :: rest) = (none, c :: rest) := by
  have hplus : c ≠ ('+' : Char) := by
    rintro rfl
    exact absurd hc (by decide)
  have hminus : c ≠ ('-' : Char) := by
    rintro rfl
    exact absurd hc (by decide)
  simp only [scanSign, hplus, hminus, or_self, if_false]

/-- A numeral starts with its first digit, if there is one before the point. -/
lemma exists_text_eq_cons {n : Numeral} (hn : n.WellFormed) (hne : n.whole ≠ []) :
    ∃ c rest, c.isDigit = true ∧ n.text = c :: rest := by
  obtain ⟨c, whole, hwhole⟩ := List.exists_cons_of_ne_nil hne
  refine ⟨c, whole ++ fractionText n.fraction ++ exponentText n.exponent, ?_, ?_⟩
  · exact hn.whole c (hwhole ▸ List.mem_cons_self)
  · rw [text, hwhole]
    rfl

end Numeral

namespace Coercion

/-- A numeral with a sign is read as the number nearest to its value. -/
lemma floating?_numeral {n : Numeral} (hn : n.WellFormed) (hne : n.whole ≠ []) (negative : Bool) :
    floating? (signText negative ++ n.text)
      = some (Binary.ofDecimal Format.double negative n.toDecimal) := by
  obtain ⟨c, rest, hc, htext⟩ := Numeral.exists_text_eq_cons hn hne
  have hsign : Numeral.scanSign (signText negative ++ n.text)
      = (if negative then some (('-' : Char) : CodePoint) else none, n.text) := by
    cases negative with
    | true => rfl
    | false =>
        rw [htext]
        exact Numeral.scanSign_of_isDigit hc rest
  -- The two words that stand for numbers do not start with a digit.
  have hword : ∀ word : Text, EndsRun CodePoint.isDigit word → n.text ≠ word := by
    rintro word hend rfl
    have hdigit := hend c (by rw [htext, List.head?_cons])
    rw [hc] at hdigit
    cases hdigit
  have hnan : n.text ≠ "NaN" := hword _ (endsRun_cons (by decide) _)
  have hinfinity : n.text ≠ "Infinity" := hword _ (endsRun_cons (by decide) _)
  have hread : numeral? (withoutSuffix n.text) = some n := by
    rw [withoutSuffix_text hn]
    exact numeral?_eq_some_iff.mpr ⟨hn, rfl⟩
  unfold floating?
  simp only [hsign, hnan, hinfinity, if_false, hread]
  cases negative with
  | true => rfl
  | false => rfl

/-- The text of a numeral with a sign is read as the number nearest to its value. -/
lemma floating_numeral (tag : Tag) {n : Numeral} (hn : n.WellFormed) (hne : n.whole ≠ [])
    (negative : Bool) :
    floating tag (signText negative ++ n.text)
      = .ok (Binary.ofDecimal Format.double negative n.toDecimal) := by
  have htrim : Text.trim (signText negative ++ n.text) = signText negative ++ n.text := by
    apply Text.trim_of_forall
    intro c hc
    rcases List.mem_append.mp hc with hc | hc
    · exact isBlank_of_mem_signText hc
    · exact hn.isBlank_of_mem hc
  unfold floating
  rw [htrim, floating?_numeral hn hne]

end Coercion

/-! ## Floating numbers that are read back -/

/-- Only one magnitude has the significand zero. -/
lemma Magnitude.eq_zero {F : Format} {m : Magnitude F} (h : m.significand = 0) : m = .zero := by
  apply ext_significand_shift h
  by_contra hshift
  have hnormal := m.normal (Nat.pos_of_ne_zero hshift)
  rw [h] at hnormal
  exact absurd hnormal (Nat.not_le.mpr (two_power_pos _))

namespace Binary

variable {F G : Format}

lemma convert_zero (negative : Bool) :
    (finite negative .zero : Binary F).convert G = finite negative .zero := by
  have hvalue : (Magnitude.zero : Magnitude F).toRatio.toRat
      = (Magnitude.zero : Magnitude G).toRatio.toRat := by
    simp [Magnitude.toRatio, Magnitude.units, Magnitude.zero, Ratio.toRat]
  calc ofRatio G negative (Magnitude.zero : Magnitude F).toRatio
      = ofRatio G negative (Magnitude.zero : Magnitude G).toRatio := ofRatio_congr hvalue negative
    _ = finite negative .zero := ofRatio_toRatio negative .zero

/-- The sign of a decimal is no part of its rounding, in two steps either. -/
lemma convert_ofDecimal_eq_finite {negative : Bool} {d : Decimal} {m : Magnitude G}
    (h : (ofDecimal F negative d).convert G = finite negative m) (negative' : Bool) :
    (ofDecimal F negative' d).convert G = finite negative' m := by
  rcases hread : ofDecimal F negative d with _ | sign | ⟨sign, k⟩
  · rw [hread] at h
    cases h
  · rw [hread] at h
    cases h
  · rw [hread] at h
    obtain ⟨-, hk⟩ := ofRatio_eq_finite_iff.mp h
    obtain ⟨-, hd⟩ := ofDecimal_eq_finite_iff.mp hread
    have hread' : ofDecimal F negative' d = finite negative' k :=
      ofDecimal_eq_finite_iff.mpr ⟨rfl, hd⟩
    rw [hread']
    exact ofRatio_eq_finite_iff.mpr ⟨rfl, hk⟩

/-- A decimal that is rounded to another magnitude than zero is not zero. -/
lemma coefficient_ne_zero {negative : Bool} {d : Decimal} {m : Magnitude G}
    (h : (ofDecimal F negative d).convert G = finite negative m) (hm : m.significand ≠ 0) :
    d.coefficient ≠ 0 := by
  intro hzero
  rw [ofDecimal, if_pos hzero, convert_zero] at h
  cases h
  exact hm rfl

/-- The text of a number that is not zero is a numeral with the value of the decimal that shows
it. -/
lemma exists_layout_eq {shown : Magnitude F → Decimal} {m : Magnitude F} (hm : m.significand ≠ 0)
    (hshown : (shown m).coefficient ≠ 0) (negative : Bool) :
    ∃ n : Numeral, n.WellFormed ∧ n.whole ≠ [] ∧ n.toDecimal.toRat = (shown m).toRat ∧
      (finite negative m).layout shown = signText negative ++ n.text := by
  have hdigits : ∀ c ∈ (shown m).digits, c.isDigit = true := fun _ => Decimal.isDigit_of_mem_digits
  have hne := Decimal.digits_ne_nil hshown
  rw [layout, if_neg hm, Decimal.toRat_eq hshown]
  dsimp only
  by_cases hplain : m.toRatio.isPlain = true
  · obtain ⟨n, htext, hn, hwhole, hvalue⟩ :=
      Decimal.exists_writes_plain hdigits hne (shown m).point
    refine ⟨n, hn, hwhole, hvalue, ?_⟩
    rw [if_pos hplain, htext]
  · obtain ⟨n, htext, hn, hwhole, hvalue⟩ :=
      Decimal.exists_writes_scientific hdigits hne (shown m).point
    refine ⟨n, hn, hwhole, hvalue, ?_⟩
    rw [if_neg hplain, htext]

end Binary

/-- A number whose magnitude is shown by a decimal that reads back is read back from its text. -/
lemma Coercion.floating_layout {F : Format} {shown : Magnitude F → Decimal}
    (hshown : ∀ m, (Binary.ofDecimal Format.double false (shown m)).convert F = .finite false m)
    (tag : Tag) (x : Binary F) :
    ∃ y, floating tag (x.layout shown) = .ok y ∧ y.convert F = x := by
  rcases x with _ | negative | ⟨negative, m⟩
  · exact ⟨.nan, rfl, rfl⟩
  · cases negative with
    | true => exact ⟨.infinite true, rfl, rfl⟩
    | false => exact ⟨.infinite false, rfl, rfl⟩
  · by_cases hm : m.significand = 0
    · -- No decimal shows a zero. It has a text of its own, and keeps its sign.
      have hzero : Numeral.WellFormed ⟨"0", some "0", none⟩ :=
        ⟨by decide, by decide, by decide, fun e he => by cases he⟩
      refine ⟨.finite negative .zero, ?_, ?_⟩
      · rw [Binary.layout, if_pos hm]
        exact floating_numeral tag hzero (by decide) negative
      · rw [Magnitude.eq_zero hm]
        exact Binary.convert_zero negative
    · have hread := Binary.convert_ofDecimal_eq_finite (hshown m) negative
      have hcoefficient := Binary.coefficient_ne_zero (hshown m) hm
      obtain ⟨n, hn, hwhole, hvalue, htext⟩ := Binary.exists_layout_eq hm hcoefficient negative
      refine ⟨_, ?_, hread⟩
      rw [htext, floating_numeral tag hn hwhole, Binary.ofDecimal_congr hvalue]

/-! ## Values -/

/-- An integer of 64 bits has few digits. -/
lemma Coercion.length_ofNat_natAbs_le {n : Int} (hlow : -9223372036854775808 ≤ n)
    (hhigh : n ≤ 9223372036854775807) : (Text.ofNat n.natAbs).length ≤ digitLimit := by
  have habs : n.natAbs < 10000000000000000000 := by omega
  exact (Text.length_ofNat_le 18 habs).trans (by decide)

/-- The display of a value is read back as the value. -/
lemma Value.coerce_display (v : Value) : v.tag.coerce v.display = .ok v := by
  cases v with
  | int32 n =>
      have hlow : -2147483648 ≤ n.toInt := n.le_toInt
      have hhigh : n.toInt ≤ 2147483647 := n.toInt_le
      have hread := Coercion.integer_ofInt .int32 hlow hhigh
        (Coercion.length_ofNat_natAbs_le (by omega) (by omega))
      simp only [tag, display, Tag.coerce, hread, Except.map, Int32.ofInt_toInt]
  | int64 n =>
      have hlow : -9223372036854775808 ≤ n.toInt := n.le_toInt
      have hhigh : n.toInt ≤ 9223372036854775807 := n.toInt_le
      have hread := Coercion.integer_ofInt .int64 hlow hhigh
        (Coercion.length_ofNat_natAbs_le hlow hhigh)
      simp only [tag, display, Tag.coerce, hread, Except.map, Int64.ofInt_toInt]
  | bool b =>
      cases b with
      | true => rfl
      | false => rfl
  | float32 x =>
      obtain ⟨y, hread, hconvert⟩ := Coercion.floating_layout
        (fun m => of_decide_eq_true m.readsBackSingle_shortestSingle) .float32 x
      simp only [tag, display, Tag.coerce, Binary.displaySingle, hread, Except.map, hconvert]
  | float64 x =>
      have hshown : ∀ m : Magnitude Format.double,
          (Binary.ofDecimal Format.double false m.shortestDouble).convert Format.double
            = .finite false m := by
        intro m
        rw [Binary.convert_self]
        exact of_decide_eq_true m.readsBackDouble_shortestDouble
      obtain ⟨y, hread, hconvert⟩ := Coercion.floating_layout hshown .float64 x
      rw [Binary.convert_self] at hconvert
      simp only [tag, display, Tag.coerce, Binary.displayDouble, hread, Except.map, hconvert]
  | str t => rfl

/-! ## Values of a type -/

namespace Store

/-- A value is read back in its type from its display. -/
lemma coerced_display {type : VarType} {text : Text} {v : Value} (h : coerced type text = .ok v) :
    coerced type v.display = .ok v := by
  rw [coerced_eq_ok_iff, ← tag_of_coerced h]
  exact v.coerce_display

/-- The value that a text denotes in the type of a name, which has to exist. -/
def coercedTo (typeName text : Text) : Except (Failure EvalError) Value := do
  let type ← typeOf typeName
  coerced type text

lemma coercedTo_of_ofName? {typeName : Text} {type : VarType}
    (h : VarType.ofName? typeName = some type) (text : Text) :
    coercedTo typeName text = coerced type text := by
  unfold coercedTo typeOf
  rw [h]
  rfl

end Store

/-- **Displays are read back.** For every type name, whatever text gave a value of this type, the
display of the value gives the same value again. Equal floating numbers have the same sign and the
same bits, so zeros keep their sign. -/
theorem coercedTo_display_of_coercedTo (typeName text : Text) (v : Value)
    (h : Store.coercedTo typeName text = .ok v) : Store.coercedTo typeName v.display = .ok v := by
  rcases htype : VarType.ofName? typeName with _ | type
  · unfold Store.coercedTo Store.typeOf at h
    rw [htype] at h
    cases h
  · rw [Store.coercedTo_of_ofName? htype] at h ⊢
    exact Store.coerced_display h

/-- The least magnitude of type `float` that is not zero. -/
def Magnitude.least : Magnitude Format.single :=
  ⟨1, 0, by decide, by decide, by decide⟩

/-- The number of type `float` next to zero from below. -/
def nearZero : Binary Format.single :=
  .finite true .least

/-- A number next to zero, rounded up to from a text between blanks. It is shown by one digit. -/
theorem coercedTo_display_of_coercedTo_nearZero :
    Store.coercedTo "float" " -8e-46f" = .ok (.float32 nearZero) ∧
    Store.coercedTo "float" "-1.0E-45" = .ok (.float32 nearZero) := by
  have hread : Coercion.floating? (Text.trim " -8e-46f")
      = some (Binary.ofDecimal Format.double true ⟨8, -46⟩) := by
    decide +kernel
  have hround : (Binary.ofDecimal Format.double true ⟨8, -46⟩).convert Format.single
      = nearZero := by
    decide +kernel
  have htype : VarType.ofName? "float" = some .float := VarType.ofName?_name .float
  have hvalue : Store.coercedTo "float" " -8e-46f" = .ok (.float32 nearZero) := by
    rw [Store.coercedTo_of_ofName? htype, Store.coerced_eq_ok_iff]
    simp only [VarType.tag, Tag.coerce, Coercion.floating, hread, Except.map, hround]
  have hdisplay : (Value.float32 nearZero).display = "-1.0E-45" := by decide +kernel
  refine ⟨hvalue, ?_⟩
  rw [← hdisplay]
  exact coercedTo_display_of_coercedTo "float" " -8e-46f" _ hvalue

end LineShell
