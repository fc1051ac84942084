import LineShell.Proofs.Binary.Neighbours
import LineShell.Proofs.Display

/-!
# Floating numbers from text

`Denotes` is the grammar of floating texts together with what they stand for: no number, an
infinity, or a rational number with a sign. `RoundsTo` says that a number of a format is such a
quantity, rounded once.

* **Grammar** (`Coercion.exists_floating?_eq_some`, `Coercion.exists_denotes`): exactly the texts
  that denote something are read.
* **Rounding** (`roundsTo_ofRatio`): a fraction is rounded to the nearest number of either sign,
  with the sign kept on zeros, and to an infinity from the midpoint behind the greatest number on.
* **Type `double`** (`coercedTo_double_roundsTo`): a text is a value of type `double` exactly if it
  denotes something, and then the value is what it denotes, rounded once.
-/

namespace LineShell

open Text (natOfDigits)
open Magnitude (greatest)

/-! ## Quantities -/

/-- What a floating text stands for. Rational numbers have a sign of their own, since zeros have
one too. -/
inductive Quantity where
  | nan
  | infinite (negative : Bool)
  | exact (negative : Bool) (magnitude : ℚ)

/-- A rational number with a sign. -/
def withSign (negative : Bool) (q : ℚ) : ℚ :=
  if negative then -q else q

lemma abs_withSign_sub (negative : Bool) (q c : ℚ) :
    |withSign negative q - withSign negative c| = |q - c| := by
  cases negative with
  | false => rfl
  | true =>
      unfold withSign
      rw [if_pos rfl, if_pos rfl, neg_sub_neg, abs_sub_comm]

lemma withSign_not (negative : Bool) (c : ℚ) :
    withSign (!negative) c = withSign negative (-c) := by
  cases negative with
  | false => rfl
  | true =>
      unfold withSign
      simp

/-- The number is the quantity, rounded once: infinite from the limit on, otherwise with no number
of either sign nearer, and with an even significand if another number is equally near. The sign is
kept, on zeros too. -/
inductive RoundsTo {F : Format} (limit : ℚ) : Quantity → Binary F → Prop
  | nan : RoundsTo limit .nan .nan
  | infinite (negative : Bool) : RoundsTo limit (.infinite negative) (.infinite negative)
  | beyond {negative : Bool} {q : ℚ} (h : limit ≤ q) :
      RoundsTo limit (.exact negative q) (.infinite negative)
  | nearest {negative : Bool} {q : ℚ} {m : Magnitude F} (hlt : q < limit)
      (hle : ∀ (sign : Bool) (m' : Magnitude F),
        |withSign negative q - withSign negative m.value|
          ≤ |withSign negative q - withSign sign m'.value|)
      (heven : ∀ (sign : Bool) (m' : Magnitude F),
        withSign sign m'.value ≠ withSign negative m.value →
        |withSign negative q - withSign negative m.value|
          = |withSign negative q - withSign sign m'.value| → Even m.significand) :
      RoundsTo limit (.exact negative q) (.finite negative m)

namespace Magnitude

variable {F : Format} {m : Magnitude F} {q : ℚ}

lemma value_zero : (zero : Magnitude F).value = 0 := by
  simp [value, toRatio, units, zero, Ratio.toRat]

/-- The numbers of the other sign are no nearer than zero is. -/
lemma IsClosest.abs_sub_le_abs_add (h : m.IsClosest q) (hq : 0 ≤ q) (m' : Magnitude F) :
    |q - m.value| ≤ |q + m'.value| := by
  have hzero := h.le zero
  rw [value_zero, sub_zero, abs_of_nonneg hq] at hzero
  have hnonneg := m'.value_nonneg
  rw [abs_of_nonneg (add_nonneg hq hnonneg)]
  linarith

/-- A number of the other sign is equally near only if zero is. -/
lemma IsClosest.even_of_abs_sub_eq_abs_add (h : m.IsClosest q) (hq : 0 ≤ q) {m' : Magnitude F}
    (hne : -m'.value ≠ m.value) (htie : |q - m.value| = |q + m'.value|) : Even m.significand := by
  have hzero := h.le zero
  have hnonneg := m'.value_nonneg
  rw [abs_of_nonneg (add_nonneg hq hnonneg)] at htie
  rw [value_zero, sub_zero, abs_of_nonneg hq] at hzero
  have hvalue : m'.value = 0 := by linarith
  apply h.even zero
  · rintro rfl
    rw [value_zero, hvalue] at hne
    exact hne neg_zero
  · rw [htie, hvalue, value_zero, sub_zero, add_zero, abs_of_nonneg hq]

end Magnitude

/-- A fraction with a sign is rounded once. -/
lemma roundsTo_ofRatio {F : Format} (hF : 1 < F.precision) (negative : Bool) (r : Ratio) :
    RoundsTo (greatest : Magnitude F).midpoint.value (.exact negative r.toRat)
      (Binary.ofRatio F negative r) := by
  unfold Binary.ofRatio
  rcases hround : Magnitude.ofRatio? F r with _ | m
  · exact .beyond (Magnitude.ofRatio?_eq_none_iff.mp hround)
  · have hclosest := Magnitude.isClosest_of_ofRatio? hF hround
    refine .nearest ?_ ?_ ?_
    · rw [← not_le, ← Magnitude.ofRatio?_eq_none_iff, hround]
      exact Option.some_ne_none m
    · intro sign m'
      rw [abs_withSign_sub]
      rcases Bool.eq_or_eq_not sign negative with rfl | rfl
      · rw [abs_withSign_sub]
        exact hclosest.le m'
      · rw [withSign_not, abs_withSign_sub, sub_neg_eq_add]
        exact hclosest.abs_sub_le_abs_add r.toRat_nonneg m'
    · intro sign m' hne htie
      rw [abs_withSign_sub] at htie
      rcases Bool.eq_or_eq_not sign negative with rfl | rfl
      · rw [abs_withSign_sub] at htie
        exact hclosest.even m' (fun hsame => hne (by rw [hsame])) htie
      · rw [withSign_not, abs_withSign_sub, sub_neg_eq_add] at htie
        rw [withSign_not] at hne
        exact hclosest.even_of_abs_sub_eq_abs_add r.toRat_nonneg (fun hsame => hne (by rw [hsame]))
          htie

/-! ## The value of a numeral -/

namespace Numeral

/-- The power of ten that is written, or none. -/
def exponentValue (n : Numeral) : Int :=
  match n.exponent with
  | some e => e.value
  | none => 0

/-- The value of a numeral: the digits before the point, the digits behind it in their places, and
the exponent. -/
def value (n : Numeral) : ℚ :=
  (natOfDigits n.whole + natOfDigits n.fractionDigits / 10 ^ n.fractionDigits.length)
    * 10 ^ n.exponentValue

lemma toRat_toDecimal (n : Numeral) : n.toDecimal.toRat = n.value := by
  have hten : (10 : ℚ) ≠ 0 := by norm_num
  have hpower : n.power = n.exponentValue - n.fractionDigits.length := rfl
  calc n.toDecimal.toRat = n.coefficient * 10 ^ n.power := rfl
    _ = (natOfDigits n.whole * 10 ^ n.fractionDigits.length + natOfDigits n.fractionDigits : ℕ)
          * (10 ^ n.exponentValue / 10 ^ n.fractionDigits.length) := by
        rw [coefficient, Text.natOfDigits_append, hpower, zpow_sub₀ hten, zpow_natCast]
    _ = n.value := by
        unfold value
        push_cast
        field_simp

end Numeral

/-! ## Texts that denote something -/

/-- A possible sign in front, and whether it is a minus. -/
inductive IsSign : Text → Bool → Prop
  | none : IsSign [] false
  | plus : IsSign "+" false
  | minus : IsSign "-" true

/-- What may stand behind a numeral. -/
def floatingSuffixes : List Text :=
  [[], "f", "F", "d", "D"]

/-- What a text without blanks around it denotes as a floating number. -/
inductive Denotes : Text → Quantity → Prop
  | nan {sign : Text} {negative : Bool} (hsign : IsSign sign negative) :
      Denotes (sign ++ "NaN") .nan
  | infinity {sign : Text} {negative : Bool} (hsign : IsSign sign negative) :
      Denotes (sign ++ "Infinity") (.infinite negative)
  | numeral {sign : Text} {negative : Bool} {n : Numeral} {suffix : Text}
      (hsign : IsSign sign negative) (hn : n.WellFormed) (hsuffix : suffix ∈ floatingSuffixes) :
      Denotes (sign ++ (n.text ++ suffix)) (.exact negative n.value)

namespace Numeral

/-- A sign is told from what is behind it, unless another sign follows. -/
lemma scanSign_append {sign : Text} {negative : Bool} (hsign : IsSign sign negative)
    {c : CodePoint} (hplus : c ≠ ('+' : Char)) (hminus : c ≠ ('-' : Char)) (rest : Text) :
    ∃ mark, scanSign (sign ++ c :: rest) = (mark, c :: rest) ∧
      decide (mark = some (('-' : Char) : CodePoint)) = negative := by
  cases hsign with
  | none => exact ⟨none, by simp [scanSign, hplus, hminus], rfl⟩
  | plus => exact ⟨some ('+' : Char), rfl, rfl⟩
  | minus => exact ⟨some ('-' : Char), rfl, rfl⟩

/-- What is taken off the front of a text as a sign is one. -/
lemma isSign_of_scanSign (t : Text) :
    IsSign (scanSign t).1.toList (decide ((scanSign t).1 = some (('-' : Char) : CodePoint))) := by
  cases t with
  | nil => exact .none
  | cons c rest =>
      unfold scanSign
      dsimp only
      split
      · next hc =>
        rcases hc with rfl | rfl
        · exact .plus
        · exact .minus
      · exact .none

end Numeral

namespace Coercion

lemma isSuffix_iff {c : CodePoint} : isSuffix c = true ↔ [c] ∈ floatingSuffixes := by
  constructor
  · intro h
    simp only [isSuffix, Bool.or_eq_true, decide_eq_true_eq] at h
    rcases h with ((rfl | rfl) | rfl) | rfl
    all_goals decide
  · intro h
    have hall : ∀ suffix ∈ floatingSuffixes, ∀ d ∈ suffix, isSuffix d = true := by decide
    exact hall _ h c List.mem_cons_self

/-- What stands in front of a suffix is left when it is taken off. -/
lemma withoutSuffix_text_append {n : Numeral} {suffix : Text} (hn : n.WellFormed)
    (h : suffix ∈ floatingSuffixes) : withoutSuffix (n.text ++ suffix) = n.text := by
  rcases List.mem_cons.mp h with rfl | hletter
  · rw [List.append_nil, withoutSuffix_text hn]
  · have hall : ∀ s ∈ floatingSuffixes.tail, s.length = 1 := by decide
    obtain ⟨c, rfl⟩ := List.length_eq_one_iff.mp (hall suffix hletter)
    exact withoutSuffix_concat (isSuffix_iff.mpr h)

/-- A numeral with sign and suffix is read as the number nearest to its value. -/
lemma floating?_suffixed {sign suffix : Text} {negative : Bool} {n : Numeral}
    (hsign : IsSign sign negative) (hn : n.WellFormed) (hsuffix : suffix ∈ floatingSuffixes) :
    floating? (sign ++ (n.text ++ suffix))
      = some (Binary.ofDecimal Format.double negative n.toDecimal) := by
  have hread : numeral? (withoutSuffix (n.text ++ suffix)) = some n := by
    rw [withoutSuffix_text_append hn hsuffix]
    exact numeral?_eq_some_iff.mpr ⟨hn, rfl⟩
  obtain ⟨c, tail, htext, hc, -⟩ := Scan.exists_startsNumber hn
  -- A digit or a point starts neither a sign nor one of the two words.
  have hstart : ∀ d : CodePoint, d.isDigit = false → d ≠ ('.' : Char) → c ≠ d := by
    rintro d hdigit hdot rfl
    rcases hc with hc | hc
    · rw [hdigit] at hc
      cases hc
    · exact hdot hc
  rw [htext, List.cons_append] at hread ⊢
  obtain ⟨mark, hscan, hnegative⟩ := Numeral.scanSign_append hsign
    (hstart ('+' : Char) (by decide) (by decide)) (hstart ('-' : Char) (by decide) (by decide))
    (tail ++ suffix)
  have hnan : c :: (tail ++ suffix) ≠ ("NaN" : Text) := fun h =>
    hstart ('N' : Char) (by decide) (by decide) (List.cons.inj h).1
  have hinfinity : c :: (tail ++ suffix) ≠ ("Infinity" : Text) := fun h =>
    hstart ('I' : Char) (by decide) (by decide) (List.cons.inj h).1
  unfold floating?
  simp only [hscan, hnan, hinfinity, if_false, hread, hnegative]
  rfl

/-- A text that denotes a rational number is read as a fraction of this value, rounded. -/
lemma floating?_of_denotes_exact {t : Text} {negative : Bool} {q : ℚ}
    (h : Denotes t (.exact negative q)) :
    ∃ r : Ratio, r.toRat = q ∧ floating? t = some (Binary.ofRatio Format.double negative r) := by
  cases h with
  | @numeral sign negative n suffix hsign hn hsuffix =>
      refine ⟨n.toDecimal.toRatio, ?_, ?_⟩
      · rw [Decimal.toRat_toRatio, Numeral.toRat_toDecimal]
      · rw [floating?_suffixed hsign hn hsuffix, Binary.ofDecimal_eq_ofRatio]

/-- The number that is read from a text that denotes something is what it denotes, rounded once. -/
lemma exists_floating?_eq_some {t : Text} {q : Quantity} (h : Denotes t q) :
    ∃ y, floating? t = some y ∧
      RoundsTo (greatest : Magnitude Format.double).midpoint.value q y := by
  rcases q with _ | negative | ⟨negative, q⟩
  · refine ⟨.nan, ?_, .nan⟩
    cases h with
    | nan hsign =>
        cases hsign with
        | none => rfl
        | plus => rfl
        | minus => rfl
  · refine ⟨.infinite negative, ?_, .infinite negative⟩
    cases h with
    | infinity hsign =>
        cases hsign with
        | none => rfl
        | plus => rfl
        | minus => rfl
  · obtain ⟨r, rfl, hread⟩ := floating?_of_denotes_exact h
    exact ⟨_, hread, roundsTo_ofRatio (by decide) negative r⟩

/-- A text that is read denotes something. -/
lemma exists_denotes {t : Text} {y : Binary Format.double} (h : floating? t = some y) :
    ∃ q, Denotes t q := by
  have hsign := Numeral.isSign_of_scanSign t
  have hsplit := Numeral.toList_append_of_scanSign t
  unfold floating? at h
  dsimp only at h
  generalize Numeral.scanSign t = parts at h hsign hsplit
  obtain ⟨mark, body⟩ := parts
  dsimp only at h hsign hsplit
  subst hsplit
  split at h
  · next hnan =>
    subst hnan
    exact ⟨_, .nan hsign⟩
  · split at h
    · next hinfinity =>
      subst hinfinity
      exact ⟨_, .infinity hsign⟩
    · obtain ⟨n, hread, -⟩ := Option.map_eq_some_iff.mp h
      obtain ⟨hn, htext⟩ := numeral?_eq_some_iff.mp hread
      obtain ⟨suffix, hsuffix, hbody⟩ := exists_suffix body
      rw [hbody, ← htext]
      refine ⟨_, .numeral hsign hn ?_⟩
      rcases hsuffix with rfl | ⟨c, hc, rfl⟩
      · exact List.mem_cons_self
      · exact isSuffix_iff.mp hc

/-- A text that denotes nothing is not read. -/
lemma floating?_eq_none {t : Text} (h : ¬ ∃ q, Denotes t q) : floating? t = none := by
  rcases hread : floating? t with _ | y
  · rfl
  · exact absurd (exists_denotes hread) h

end Coercion

/-! ## Type `double` -/

namespace Store

/-- A type of floating numbers reads what stands between the blanks, and keeps some form of it. -/
lemma coercedTo_floating {typeName : Text} {type : VarType} {tag : Tag}
    {form : Binary Format.double → Value} (htype : VarType.ofName? typeName = some type)
    (hform : ∀ t, type.tag.coerce t = (Coercion.floating tag t).map form) (text : Text) :
    coercedTo typeName text
      = match Coercion.floating? text.trim with
        | some y => .ok (form y)
        | none => .error (.error (.coercion (.malformed tag text))) := by
  rw [coercedTo_of_ofName? htype, coerced, hform, Coercion.floating]
  rcases Coercion.floating? text.trim with _ | y
  · rfl
  · rfl

lemma coercedTo_double (text : Text) :
    coercedTo "double" text
      = match Coercion.floating? text.trim with
        | some y => .ok (.float64 y)
        | none => .error (.error (.coercion (.malformed .float64 text))) :=
  coercedTo_floating (VarType.ofName?_name .double) (fun _ => rfl) text

end Store

/-- **Type `double` is rounded once.** A text is a value of type `double` exactly if it denotes
something between its blanks, and any other text is refused as malformed. The value is what the
text denotes, rounded once to the nearest number, and infinite from `2 ^ 1024 - 2 ^ 970` on. -/
theorem coercedTo_double_roundsTo (text : Text) :
    ((∃ v, Store.coercedTo "double" text = .ok v) ↔ ∃ q, Denotes text.trim q) ∧
    ((¬ ∃ q, Denotes text.trim q) → Store.coercedTo "double" text
      = .error (.error (.coercion (.malformed .float64 text)))) ∧
    ∀ q, Denotes text.trim q → ∃ y : Binary Format.double,
      Store.coercedTo "double" text = .ok (.float64 y) ∧ RoundsTo (2 ^ 1024 - 2 ^ 970) q y := by
  have hrefused : (¬ ∃ q, Denotes text.trim q) → Store.coercedTo "double" text
      = .error (.error (.coercion (.malformed .float64 text))) := by
    intro hnone
    rw [Store.coercedTo_double, Coercion.floating?_eq_none hnone]
  have hrounds : ∀ q, Denotes text.trim q → ∃ y : Binary Format.double,
      Store.coercedTo "double" text = .ok (.float64 y) ∧ RoundsTo (2 ^ 1024 - 2 ^ 970) q y := by
    intro q hq
    obtain ⟨y, hread, hround⟩ := Coercion.exists_floating?_eq_some hq
    refine ⟨y, ?_, ?_⟩
    · rw [Store.coercedTo_double, hread]
    · rwa [Magnitude.value_midpoint_greatest (j := 970) (k := 1024) rfl rfl] at hround
  refine ⟨⟨?_, ?_⟩, hrefused, hrounds⟩
  · rintro ⟨v, hv⟩
    by_contra hnone
    rw [hrefused hnone] at hv
    cases hv
  · rintro ⟨q, hq⟩
    obtain ⟨y, hy, -⟩ := hrounds q hq
    exact ⟨_, hy⟩

/-- The number `2 ^ 53`, of type `double`. -/
def Magnitude.evenNeighbour : Magnitude Format.double :=
  ⟨2 ^ 52, 1075, by decide, by decide, by decide⟩

/-- A numeral of `2 ^ 53 + 1`. -/
def halfwayNumeral : Numeral :=
  ⟨"90071992547409", some "93", some ⟨'e', none, "2"⟩⟩

lemma wellFormed_halfwayNumeral : halfwayNumeral.WellFormed := by
  refine ⟨by decide, by decide, by decide, ?_⟩
  intro e he
  cases he
  exact ⟨.inl rfl, by simp, by decide, by decide⟩

lemma value_halfwayNumeral : halfwayNumeral.value = 2 ^ 53 + 1 := by
  have hwhole : natOfDigits halfwayNumeral.whole = 90071992547409 := by decide +kernel
  have hfraction : natOfDigits halfwayNumeral.fractionDigits = 93 := by decide +kernel
  have hlength : halfwayNumeral.fractionDigits.length = 2 := by decide
  have hexponent : halfwayNumeral.exponentValue = 2 := by decide
  rw [Numeral.value, hwhole, hfraction, hlength, hexponent]
  norm_num

/-- A number halfway between two neighbours, written with a sign, a point, an exponent and a suffix
between blanks. It goes to the neighbour with the even significand. -/
theorem coercedTo_double_roundsTo_tie :
    Denotes (Text.trim " -90071992547409.93e2D ") (.exact true (2 ^ 53 + 1)) ∧
    Store.coercedTo "double" " -90071992547409.93e2D "
      = .ok (.float64 (.finite true .evenNeighbour)) ∧
    RoundsTo (2 ^ 1024 - 2 ^ 970) (.exact true (2 ^ 53 + 1))
      (.finite true .evenNeighbour : Binary Format.double) := by
  have hdenotes : Denotes (Text.trim " -90071992547409.93e2D ") (.exact true (2 ^ 53 + 1)) := by
    have htext : Text.trim " -90071992547409.93e2D "
        = ("-" : Text) ++ (halfwayNumeral.text ++ ("D" : Text)) := by
      decide +kernel
    rw [htext, ← value_halfwayNumeral]
    exact .numeral .minus wellFormed_halfwayNumeral (by decide)
  have hread : Coercion.floating? (Text.trim " -90071992547409.93e2D ")
      = some (Binary.ofDecimal Format.double true ⟨9007199254740993, 0⟩) := by
    decide +kernel
  have hround : Binary.ofDecimal Format.double true ⟨9007199254740993, 0⟩
      = .finite true .evenNeighbour := by
    decide +kernel
  have hvalue : Store.coercedTo "double" " -90071992547409.93e2D "
      = .ok (.float64 (.finite true .evenNeighbour)) := by
    rw [Store.coercedTo_double, hread, hround]
  refine ⟨hdenotes, hvalue, ?_⟩
  obtain ⟨y, hy, hrounds⟩ := (coercedTo_double_roundsTo _).2.2 _ hdenotes
  rw [hvalue] at hy
  cases hy
  exact hrounds

end LineShell
