import LineShell.Proofs.Binary.ReadBack
import LineShell.Proofs.Decimal.Digits
import LineShell.Proofs.Display

/-!
# How few digits show a `float`

A `float` is shown by its nearest point on the first grid where this point reads back. Main
statement: no text with fewer significant digits is read as the number, with three exceptions
(`exists_shorter_iff`). Texts and displays are reduced to decimals (`exists_coercedTo_iff`,
`length_significantDigits_display_le_iff`), and it remains to ask when the nearest point of a grid
reads back if any decimal with so few digits does (`readsBackSingle_gridNearest`).

* Between powers of two always, since what reads back lies symmetrically around the number.
* At a power of two the point above may read back although the nearest one, below, does not. The
  powers are looked through one by one (`gridNearest_of_neighbour`), and on grids of at most eight
  digits it happens to three of them.
* On the grid of nine digits always, since its nearest point is near enough.
-/

namespace LineShell

open Text (Digitless significantDigits)
open Binary.layout (signText)
open Format (single double)

/-! ## Texts that are read as a `float` -/

lemma CodePoint.digitless_of_isBlank {c : CodePoint} (h : c.isBlank = true) :
    c.isDigit = false ∧ c ≠ ('e' : Char) ∧ c ≠ ('E' : Char) := by
  refine ⟨?_, ?_, ?_⟩
  · by_contra hdigit
    rw [Bool.not_eq_false] at hdigit
    rw [isBlank_of_isDigit hdigit] at h
    cases h
  · rintro rfl
    exact absurd h (by decide)
  · rintro rfl
    exact absurd h (by decide)

namespace Text

/-- Blanks are all that is trimmed. -/
lemma exists_eq_append_trim (t : Text) :
    ∃ front behind : Text, front.Digitless ∧ behind.Digitless ∧ t = front ++ t.trim ++ behind := by
  obtain ⟨behind, hbehind, hsplit⟩ := exists_eq_trimEnd_append (t.dropWhile CodePoint.isBlank)
  refine ⟨t.takeWhile CodePoint.isBlank, behind, ?_, ?_, ?_⟩
  · exact fun c hc => CodePoint.digitless_of_isBlank (List.mem_takeWhile_imp hc)
  · exact fun c hc => CodePoint.digitless_of_isBlank (hbehind c hc)
  · rw [trim, List.append_assoc, ← hsplit, List.takeWhile_append_dropWhile]

end Text

lemma digitless_signText (negative : Bool) : Digitless (signText negative) := by
  cases negative with
  | false => exact Text.digitless_nil
  | true => exact Text.digitless_singleton (by decide)

lemma Numeral.digitless_scanSign (t : Text) : Digitless (scanSign t).1.toList := by
  cases t with
  | nil => exact Text.digitless_nil
  | cons c rest =>
      unfold scanSign
      dsimp only
      split
      · next hsign =>
        rcases hsign with rfl | rfl
        · exact Text.digitless_singleton (by decide)
        · exact Text.digitless_singleton (by decide)
      · exact Text.digitless_nil

lemma Coercion.digitless_of_isSuffix {c : CodePoint} (h : isSuffix c = true) :
    Text.Digitless [c] := by
  apply Text.digitless_singleton
  simp only [isSuffix, Bool.or_eq_true, decide_eq_true_eq] at h
  rcases h with ((rfl | rfl) | rfl) | rfl
  all_goals decide

namespace Coercion

/-- A text without blanks around it that is read as a number holds a numeral, if it is not one of
the two words. Nothing else in it looks like digits. -/
lemma exists_numeral_of_floating? {t : Text} {x : Binary double} {negative : Bool}
    {m : Magnitude single} (h : floating? t = some x) (hx : x.convert single = .finite negative m) :
    ∃ (n : Numeral) (sign : Bool) (front behind : Text), n.WellFormed ∧ front.Digitless ∧
      behind.Digitless ∧ t = front ++ n.text ++ behind ∧
      x = Binary.ofDecimal double sign n.toDecimal := by
  have hsign := Numeral.toList_append_of_scanSign t
  unfold floating? at h
  dsimp only at h
  split at h
  · cases h
    cases hx
  split at h
  · cases h
    cases hx
  · obtain ⟨n, hread, hvalue⟩ := Option.map_eq_some_iff.mp h
    obtain ⟨hn, htext⟩ := numeral?_eq_some_iff.mp hread
    obtain ⟨suffix, hsuffix, hbody⟩ := exists_suffix (Numeral.scanSign t).2
    refine ⟨n, _, _, suffix, hn, Numeral.digitless_scanSign t, ?_, ?_, hvalue.symm⟩
    · rcases hsuffix with rfl | ⟨c, hc, rfl⟩
      · exact Text.digitless_nil
      · exact digitless_of_isSuffix hc
    · rw [List.append_assoc, htext, ← hbody, hsign]

/-- A text that is read as a finite number holds a numeral, and nothing else that looks like
digits. -/
lemma exists_numeral_of_floating {tag : Tag} {t : Text} {x : Binary double} {negative : Bool}
    {m : Magnitude single} (h : floating tag t = .ok x)
    (hx : x.convert single = .finite negative m) :
    ∃ (n : Numeral) (sign : Bool) (front behind : Text), n.WellFormed ∧ front.Digitless ∧
      behind.Digitless ∧ t = front ++ n.text ++ behind ∧
      x = Binary.ofDecimal double sign n.toDecimal := by
  unfold floating at h
  split at h
  · next y hy =>
    cases h
    obtain ⟨n, sign, front, behind, hn, hfront, hbehind, htext, hvalue⟩ :=
      exists_numeral_of_floating? hy hx
    obtain ⟨blanks, blanks', hblanks, hblanks', hsplit⟩ := t.exists_eq_append_trim
    refine ⟨n, sign, blanks ++ front, behind ++ blanks', hn, hblanks.append hfront,
      hbehind.append hblanks', ?_, hvalue⟩
    rw [hsplit, htext]
    simp only [List.append_assoc]
  · cases h

end Coercion

/-- The numeral of a decimal, with all its power of ten behind the mark. -/
def Numeral.ofDecimal (d : Decimal) : Numeral :=
  ⟨Text.ofNat d.coefficient, none, some (.ofInt d.power)⟩

namespace Numeral

lemma toDecimal_ofDecimal (d : Decimal) : (ofDecimal d).toDecimal = d := by
  have hcoefficient : (ofDecimal d).coefficient = d.coefficient := by
    unfold coefficient fractionDigits ofDecimal
    dsimp only
    rw [Option.getD_none, List.append_nil, Text.natOfDigits_ofNat]
  have hpower : (ofDecimal d).power = d.power := by
    simp [power, fractionDigits, ofDecimal, Exponent.value_ofInt]
  unfold toDecimal
  rw [hcoefficient, hpower]

lemma wellFormed_ofDecimal (d : Decimal) : (ofDecimal d).WellFormed := by
  refine ⟨fun c hc => Text.isDigit_of_mem_ofNat hc, ?_, ?_, ?_⟩
  · intro c hc
    cases hc
  · exact fun hnil => Text.ofNat_ne_nil _ hnil.1
  · intro e he
    obtain rfl := Option.some.inj he
    exact Exponent.wellFormed_ofInt d.power

end Numeral

section Texts

variable {negative : Bool} {m : Magnitude single} {n : ℕ}

lemma coercedTo_float_eq_ok_iff {x : Text} :
    Store.coercedTo "float" x = .ok (.float32 (.finite negative m)) ↔
      ∃ y, Coercion.floating .float32 x = .ok y ∧ y.convert single = .finite negative m := by
  have htype : VarType.ofName? "float" = some .float := VarType.ofName?_name .float
  rw [Store.coercedTo_of_ofName? htype, Store.coerced_eq_ok_iff]
  unfold VarType.tag Tag.coerce
  rcases Coercion.floating .float32 x with failure | y
  · simp [Except.map]
  · simp [Except.map]

/-- A text with few digits is read as a number if there is a decimal with few digits that reads
back as it. -/
lemma exists_coercedTo_iff (negative : Bool) (hm : m.significand ≠ 0) :
    (∃ x : Text, Store.coercedTo "float" x = .ok (.float32 (.finite negative m)) ∧
      x.significantDigits.length ≤ n) ↔
    ∃ d : Decimal, m.readsBackSingle d = true ∧ HasDigits n d.toRat := by
  constructor
  · rintro ⟨x, hx, hlength⟩
    obtain ⟨y, hy, hconvert⟩ := coercedTo_float_eq_ok_iff.mp hx
    obtain ⟨k, sign, front, behind, hk, hfront, hbehind, rfl, rfl⟩ :=
      Coercion.exists_numeral_of_floating hy hconvert
    have hreads : m.readsBackSingle k.toDecimal = true :=
      Magnitude.readsBackSingle_iff.mpr (Magnitude.convert_ofDecimal_eq_finite_iff.mp hconvert).2
    have hne : k.coefficient ≠ 0 := Binary.coefficient_ne_zero (of_decide_eq_true hreads) hm
    rw [Text.significantDigits_numeral hk hne hfront hbehind,
      Decimal.length_digits_le_iff hne] at hlength
    exact ⟨k.toDecimal, hreads, hlength⟩
  · rintro ⟨d, hreads, hdigits⟩
    have hconvert := Binary.convert_ofDecimal_eq_finite (of_decide_eq_true hreads) negative
    rw [← Numeral.toDecimal_ofDecimal d] at hconvert hdigits
    have hne : (Numeral.ofDecimal d).coefficient ≠ 0 := Binary.coefficient_ne_zero hconvert hm
    have hk := Numeral.wellFormed_ofDecimal d
    refine ⟨signText negative ++ (Numeral.ofDecimal d).text, ?_, ?_⟩
    · exact coercedTo_float_eq_ok_iff.mpr
        ⟨_, Coercion.floating_numeral .float32 hk (Text.ofNat_ne_nil _) negative, hconvert⟩
    · have htext := Text.significantDigits_numeral hk hne (digitless_signText negative)
        Text.digitless_nil
      rw [List.append_nil] at htext
      rwa [htext, Decimal.length_digits_le_iff hne]

/-- The display of a number has as many digits as the decimal that shows it. -/
lemma length_significantDigits_display_le_iff (negative : Bool) (hm : m.significand ≠ 0) :
    (Value.float32 (.finite negative m)).display.significantDigits.length ≤ n ↔
      HasDigits n m.shortestSingle.toRat := by
  have hread : (Binary.ofDecimal double negative m.shortestSingle).convert single
      = .finite negative m :=
    Binary.convert_ofDecimal_eq_finite
      (of_decide_eq_true m.readsBackSingle_shortestSingle) negative
  obtain ⟨k, hk, -, hvalue, htext⟩ :=
    Binary.exists_layout_eq hm (Binary.coefficient_ne_zero hread hm) negative
  rw [← Binary.ofDecimal_congr hvalue] at hread
  have hne : k.coefficient ≠ 0 := Binary.coefficient_ne_zero hread hm
  have hdigits := Text.significantDigits_numeral hk hne (digitless_signText negative)
    Text.digitless_nil
  rw [List.append_nil, ← htext] at hdigits
  rw [← hvalue, ← Decimal.length_digits_le_iff hne, ← hdigits]
  rfl

end Texts

/-! ## The search for a grid -/

/-- A candidate that passes the test ends the search, if nothing before it has done so. -/
lemma Decimal.exists_search_eq_some (candidates : ℕ → List Decimal) {limit n : ℕ}
    {test : Decimal → Bool} {d : Decimal} (hpos : 0 < n) (hle : n ≤ limit) (hd : d ∈ candidates n)
    (htest : test d = true) :
    ∃ k e, 0 < k ∧ k ≤ n ∧ e ∈ candidates k ∧ search limit candidates test = some e := by
  have hrange : List.range' 1 limit = List.range' 1 n ++ List.range' (1 + n) (limit - n) := by
    rw [List.range'_append_1, Nat.add_sub_cancel' hle]
  have hfound : ((List.range' 1 n).findSome? fun k => (candidates k).find? test).isSome := by
    rw [List.findSome?_isSome_iff]
    refine ⟨n, List.mem_range'_1.mpr ⟨hpos, by omega⟩, ?_⟩
    rw [List.find?_isSome]
    exact ⟨d, hd, htest⟩
  obtain ⟨e, he⟩ := Option.isSome_iff_exists.mp hfound
  obtain ⟨k, hk, hmem⟩ := List.exists_of_findSome?_eq_some he
  obtain ⟨hlow, hhigh⟩ := List.mem_range'_1.mp hk
  refine ⟨k, e, hlow, by omega, List.mem_of_find?_eq_some hmem, ?_⟩
  unfold search
  rw [hrange, List.findSome?_append, he, Option.some_or]

namespace Magnitude

variable {m : Magnitude single} {n : ℕ}

lemma num_toRatio_pos (hm : m.significand ≠ 0) : 0 < m.toRatio.num :=
  Nat.mul_pos (Nat.pos_of_ne_zero hm) (two_power_pos _)

/-- If the nearest point of a grid reads back, the number is shown by no more digits than the grid
has. -/
lemma hasDigits_shortestSingle (hm : m.significand ≠ 0) (hpos : 0 < n) (hle : n ≤ 9)
    (h : m.readsBackSingle (m.toRatio.gridNearest n) = true) :
    HasDigits n m.shortestSingle.toRat := by
  obtain ⟨k, e, hk, hkn, he, hsearch⟩ := Decimal.exists_search_eq_some
    (fun n => [m.toRatio.gridNearest n]) hpos hle List.mem_cons_self h
  unfold shortestSingle
  rw [hsearch, Option.getD_some, List.mem_singleton.mp he]
  exact (Ratio.hasDigits_gridNearest (num_toRatio_pos hm) hk).mono hkn

/-! ## Grids whose nearest point reads back -/

/-- Inside a stretch the nearest point reads back if anything with so few digits does. -/
lemma readsBackSingle_gridNearest_of_inside {t : ℕ} (ht : Stretch t m.shift)
    (hlow : 2 ^ t < m.significand) (hhigh : m.significand < 2 ^ (t + 1)) (hpos : 0 < n)
    {d : Decimal} (hd : m.readsBackSingle d = true) (hdigits : HasDigits n d.toRat) :
    m.readsBackSingle (m.toRatio.gridNearest n) = true := by
  have hm : m.significand ≠ 0 := ((Nat.two_pow_pos t).trans hlow).ne'
  have hunits : m.units = m.significand * 2 ^ m.shift := rfl
  rw [readsBackSingle_iff, hunits] at hd ⊢
  apply roundedTwice_eq_of_abs_sub_le ht hlow hhigh m.toRat_toRatio_mul hd
  rw [Decimal.toRat_toRatio, Decimal.toRat_toRatio]
  exact Ratio.abs_gridNearest_sub_le (num_toRatio_pos hm) hpos hdigits

/-- With any decimal one of the neighbours on its grid reads back. -/
lemma readsBackSingle_neighbour (hm : m.significand ≠ 0) (hpos : 0 < n) {d : Decimal}
    (hd : m.readsBackSingle d = true) (hdigits : HasDigits n d.toRat) :
    m.readsBackSingle (m.toRatio.gridBelow n) = true ∨
      m.readsBackSingle (m.toRatio.gridAbove n) = true := by
  simp only [readsBackSingle_iff] at hd ⊢
  have hself := roundedTwice_toRatio m
  rcases Ratio.le_gridBelow_or_gridAbove_le (num_toRatio_pos hm) hpos hdigits with hle | hle
  · left
    have hbelow := m.toRatio.toRat_gridBelow_le n
    rw [← Decimal.toRat_toRatio] at hle hbelow
    rw [← Decimal.toRat_toRatio] at hle
    exact le_antisymm (hself ▸ roundedTwice_mono hbelow) (hd ▸ roundedTwice_mono hle)
  · right
    have habove := (m.toRatio.lt_toRat_gridAbove n).le
    rw [← Decimal.toRat_toRatio] at hle habove
    rw [← Decimal.toRat_toRatio] at hle
    exact le_antisymm (hd ▸ roundedTwice_mono hle) (hself ▸ roundedTwice_mono habove)

/-- The bounds of a power of two in whole numbers, so that the powers can be looked through by
evaluation. -/
def isTwoPower (j : ℕ) (r : Ratio) : Bool :=
  leastPart j * 2 ^ j * r.den ≤ r.num * 2 ^ 203 && r.num * 2 ^ 203 ≤ greatestPart j * 2 ^ j * r.den

lemma isTwoPower_iff {j : ℕ} (hj : 0 < j) {r : Ratio} :
    isTwoPower j r = true ↔ roundedTwice r = 2 ^ j := by
  have hden : (0 : ℚ) < r.den := Nat.cast_pos.mpr r.den_pos
  have hvalue : r.toRat * 2 ^ 149 * 2 ^ 54 = r.num * 2 ^ 203 / r.den := by
    rw [mul_assoc, ← pow_add, Ratio.toRat, div_mul_eq_mul_div]
  rw [roundedTwice_eq_two_pow_iff hj, hvalue, le_div_iff₀ hden, div_le_iff₀ hden]
  unfold isTwoPower
  rw [Bool.and_eq_true, decide_eq_true_iff, decide_eq_true_iff]
  exact_mod_cast Iff.rfl

/-- The powers of two whose point above reads back on the grid of eight digits while the nearest
one, below, does not. -/
def skippedPowers : List ℤ := [-96, 87, 90]

/-- At all other powers of two, and on all smaller grids, the nearest point reads back if one of the
neighbours does. -/
lemma gridNearest_of_neighbour : ∀ j ∈ List.range' 1 276, ∀ n ∈ List.range' 1 8,
    (isTwoPower j ((ofUnits single (2 ^ j)).gridBelow n).toRatio = true ∨
      isTwoPower j ((ofUnits single (2 ^ j)).gridAbove n).toRatio = true) →
    isTwoPower j ((ofUnits single (2 ^ j)).gridNearest n).toRatio = true ∨
      n = 8 ∧ (j : ℤ) - 149 ∈ skippedPowers := by
  decide +kernel

lemma readsBackSingle_gridNearest_least :
    ∀ n ∈ List.range' 1 9, least.readsBackSingle (least.toRatio.gridNearest n) = true := by
  decide +kernel

lemma toRat_toRatio_eq_two_zpow {j : ℕ} (h : m.units = 2 ^ j) :
    m.toRatio.toRat = 2 ^ ((j : ℤ) - 149) := by
  have hvalue : m.toRatio.toRat = m.units / 2 ^ 149 := toRat_ofUnits single m.units
  rw [hvalue, h, zpow_sub₀ (by norm_num), zpow_natCast, Nat.cast_pow]
  norm_num

lemma eq_least (h : m.units = 1) : m = least :=
  units_injective (h.trans (by decide))

/-- On grids of at most eight digits the nearest point reads back if anything with so few digits
does, but for the powers that are skipped on the grid of eight digits. -/
lemma readsBackSingle_gridNearest (hm : m.significand ≠ 0) (hpos : 0 < n) (hle : n ≤ 8)
    (hskipped : ¬ ∃ q ∈ skippedPowers, m.toRatio.toRat = 2 ^ q) {d : Decimal}
    (hd : m.readsBackSingle d = true) (hdigits : HasDigits n d.toRat) :
    m.readsBackSingle (m.toRatio.gridNearest n) = true := by
  rcases inside_stretch_or_units_eq_two_pow hm with ⟨t, ht, hlow, hhigh⟩ | ⟨j, hj, hunits⟩
  · exact readsBackSingle_gridNearest_of_inside ht hlow hhigh hpos hd hdigits
  rcases Nat.eq_zero_or_pos j with rfl | hjpos
  · rw [eq_least hunits]
    exact readsBackSingle_gridNearest_least n (List.mem_range'_1.mpr ⟨hpos, by omega⟩)
  · have hvalue : m.toRatio = ofUnits single (2 ^ j) := by
      rw [toRatio_eq_ofUnits, hunits]
    have hneighbour := readsBackSingle_neighbour hm hpos hd hdigits
    simp only [readsBackSingle_iff, hunits, ← isTwoPower_iff hjpos, hvalue] at hneighbour ⊢
    rcases gridNearest_of_neighbour j (List.mem_range'_1.mpr ⟨hjpos, by omega⟩) n
      (List.mem_range'_1.mpr ⟨hpos, by omega⟩) hneighbour with hnearest | ⟨-, hmem⟩
    · exact hnearest
    · exact absurd ⟨_, hmem, toRat_toRatio_eq_two_zpow hunits⟩ hskipped

/-- On the grid of nine digits the nearest point always reads back. -/
lemma readsBackSingle_gridNearest_nine (hm : m.significand ≠ 0) :
    m.readsBackSingle (m.toRatio.gridNearest 9) = true := by
  by_cases hone : m.units = 1
  · rw [eq_least hone]
    exact readsBackSingle_gridNearest_least 9 (by decide)
  · rw [readsBackSingle_iff]
    apply roundedTwice_eq_of_near hm hone
    have hhalf := m.toRatio.abs_gridNearest_sub_le_half 9
    obtain ⟨hlow, -⟩ := Ratio.zpow_point_bounds (num_toRatio_pos hm)
    have hpower : (10 : ℚ) ^ (m.toRatio.point - 1) = 10 ^ 8 * 10 ^ m.toRatio.gridPower 9 := by
      unfold Ratio.gridPower
      rw [← zpow_natCast, ← zpow_add₀ (by norm_num)]
      congr 1
      omega
    have hstep : (0 : ℚ) < 10 ^ m.toRatio.gridPower 9 := by positivity
    rw [Decimal.toRat_toRatio]
    linarith

end Magnitude

/-! ## The fewest digits -/

open Magnitude (skippedPowers)

/-- What reads back as a number that is not zero needs a digit. -/
lemma HasDigits.pos {m : Magnitude single} {n : ℕ} {d : Decimal} (hm : m.significand ≠ 0)
    (hd : m.readsBackSingle d = true) (h : HasDigits n d.toRat) : 0 < n := by
  have hne := Binary.coefficient_ne_zero (of_decide_eq_true hd) hm
  have hlength := List.length_pos_of_ne_nil (Decimal.digits_ne_nil hne)
  exact hlength.trans_le ((Decimal.length_digits_le_iff hne).mpr h)

/-- A number that is not skipped is shown by the fewest digits. -/
lemma hasDigits_shortestSingle_of_readsBack {m : Magnitude single} {n : ℕ} {d : Decimal}
    (hm : m.significand ≠ 0) (hskipped : ¬ ∃ q ∈ skippedPowers, m.toRatio.toRat = 2 ^ q)
    (hd : m.readsBackSingle d = true) (h : HasDigits n d.toRat) :
    HasDigits n m.shortestSingle.toRat := by
  have hpos := h.pos hm hd
  rcases le_or_gt n 8 with hle | hlt
  · exact Magnitude.hasDigits_shortestSingle hm hpos (by omega)
      (Magnitude.readsBackSingle_gridNearest hm hpos hle hskipped hd h)
  · exact (Magnitude.hasDigits_shortestSingle hm (by norm_num) le_rfl
      (Magnitude.readsBackSingle_gridNearest_nine hm)).mono hlt

namespace Magnitude

variable {m : Magnitude single}

/-- The power of two with this shift, `2 ^ (k - 126)`. -/
def twoPower (k : ℕ) (hk : k ≤ 253) : Magnitude single :=
  ⟨Nat.pow 2 23, k, by decide, hk, fun _ => Nat.le_refl _⟩

lemma toRat_twoPower (k : ℕ) (hk : k ≤ 253) :
    (twoPower k hk).toRatio.toRat = 2 ^ ((k : ℤ) - 126) := by
  have hunits : (twoPower k hk).units = 2 ^ (23 + k) := (pow_add 2 23 k).symm
  rw [toRat_toRatio_eq_two_zpow hunits]
  congr 1
  push_cast
  omega

/-- A number is known from its value. -/
lemma eq_of_toRat_eq {m' : Magnitude single} (h : m.toRatio.toRat = m'.toRatio.toRat) : m = m' := by
  have hsame := ofRatio?_congr (F := single) h
  rw [ofRatio?_toRatio, ofRatio?_toRatio] at hsame
  exact Option.some.inj hsame

/-- A power of two that needs nine digits though a decimal of eight digits reads back. -/
lemma skipped_of_twoPower (k : ℕ) (hk : k ≤ 253) (d : Decimal)
    (hm : m.toRatio.toRat = 2 ^ ((k : ℤ) - 126)) (hd : (twoPower k hk).readsBackSingle d = true)
    (hdigits : d.coefficient < 10 ^ 8)
    (hlength : 8 < (twoPower k hk).shortestSingle.digits.length) :
    (∃ d, m.readsBackSingle d = true ∧ HasDigits 8 d.toRat) ∧
      ¬ HasDigits 8 m.shortestSingle.toRat := by
  obtain rfl : m = twoPower k hk := eq_of_toRat_eq (hm.trans (toRat_twoPower k hk).symm)
  have hreads := (twoPower k hk).readsBackSingle_shortestSingle
  have hne := Binary.coefficient_ne_zero (of_decide_eq_true hreads) (two_power_pos 23).ne'
  refine ⟨⟨d, hd, d.coefficient, d.power, hdigits, rfl⟩, ?_⟩
  rwa [← Decimal.length_digits_le_iff hne, not_le]

/-- A decimal of eight digits reads back as a skipped power of two. -/
lemma exists_readsBackSingle_of_skipped (h : ∃ q ∈ skippedPowers, m.toRatio.toRat = 2 ^ q) :
    (∃ d, m.readsBackSingle d = true ∧ HasDigits 8 d.toRat) ∧
      ¬ HasDigits 8 m.shortestSingle.toRat := by
  obtain ⟨q, hq, hvalue⟩ := h
  simp only [skippedPowers, List.mem_cons, List.not_mem_nil, or_false] at hq
  rcases hq with rfl | rfl | rfl
  · exact skipped_of_twoPower 30 (by decide) ⟨12621775, -36⟩ hvalue (by decide +kernel) (by decide)
      (by decide +kernel)
  · exact skipped_of_twoPower 213 (by decide) ⟨15474251, 19⟩ hvalue (by decide +kernel) (by decide)
      (by decide +kernel)
  · exact skipped_of_twoPower 216 (by decide) ⟨12379401, 20⟩ hvalue (by decide +kernel) (by decide)
      (by decide +kernel)

end Magnitude

/-- **A `float` is shown by the fewest digits, with three exceptions.** A number other than zero is
also read from a text with fewer significant digits than its display exactly if it is `2 ^ -96`,
`2 ^ 87` or `2 ^ 90`, with either sign. -/
theorem exists_shorter_iff (negative : Bool) (m : Magnitude Format.single)
    (hm : m.significand ≠ 0) :
    (∃ x : Text, Store.coercedTo "float" x = .ok (.float32 (.finite negative m)) ∧
      x.significantDigits.length
        < (Value.float32 (.finite negative m)).display.significantDigits.length) ↔
    ∃ q ∈ skippedPowers, m.toRatio.toRat = 2 ^ q := by
  constructor
  · rintro ⟨x, hx, hlt⟩
    by_contra hskipped
    obtain ⟨d, hd, hdigits⟩ := (exists_coercedTo_iff negative hm).mp ⟨x, hx, le_rfl⟩
    have hle := (length_significantDigits_display_le_iff negative hm).mpr
      (hasDigits_shortestSingle_of_readsBack hm hskipped hd hdigits)
    exact absurd hlt (Nat.not_lt.mpr hle)
  · intro hskipped
    obtain ⟨hshorter, hdisplay⟩ := Magnitude.exists_readsBackSingle_of_skipped hskipped
    obtain ⟨x, hx, hlength⟩ := (exists_coercedTo_iff negative hm).mpr hshorter
    refine ⟨x, hx, hlength.trans_lt ?_⟩
    rwa [← not_le, length_significantDigits_display_le_iff negative hm]

/-- Half of a skipped number is shown by eight digits, and no text with fewer is read as it. -/
theorem exists_shorter_iff_half :
    (Value.float32 (.finite true (Magnitude.twoPower 29 (by decide)))).display = "-6.3108872E-30" ∧
    ¬ ∃ x : Text, Store.coercedTo "float" x
        = .ok (.float32 (.finite true (Magnitude.twoPower 29 (by decide)))) ∧
      x.significantDigits.length < (Text.significantDigits "-6.3108872E-30").length := by
  have hdisplay : (Value.float32 (.finite true (Magnitude.twoPower 29 (by decide)))).display
      = "-6.3108872E-30" := by
    decide +kernel
  refine ⟨hdisplay, ?_⟩
  rw [← hdisplay, exists_shorter_iff true _ (two_power_pos 23).ne', Magnitude.toRat_twoPower]
  rintro ⟨q, hq, hvalue⟩
  have hpower := zpow_right_injective₀ (by norm_num) (by norm_num) hvalue
  rw [← hpower] at hq
  exact absurd hq (by decide)

/-- The number `2 ^ -96` is shown by nine digits, and it is read from eight. -/
theorem display_not_fewest :
    Store.coercedTo "float" "12621775e-36"
      = .ok (.float32 (.finite false (Magnitude.twoPower 30 (by decide)))) ∧
    (Value.float32 (.finite false (Magnitude.twoPower 30 (by decide)))).display
      = "1.26217745E-29" ∧
    (Text.significantDigits "12621775e-36").length
      < (Text.significantDigits "1.26217745E-29").length := by
  have hread : Coercion.floating .float32 "12621775e-36"
      = .ok (Binary.ofDecimal double false ⟨12621775, -36⟩) := by
    have hnumeral : Coercion.floating? (Text.trim "12621775e-36")
        = some (Binary.ofDecimal double false ⟨12621775, -36⟩) := by
      decide +kernel
    unfold Coercion.floating
    rw [hnumeral]
  refine ⟨coercedTo_float_eq_ok_iff.mpr ⟨_, hread, ?_⟩, ?_, ?_⟩
  · decide +kernel
  · decide +kernel
  · decide +kernel

end LineShell
