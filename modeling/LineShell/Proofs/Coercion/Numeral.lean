import LineShell.Coercion
import LineShell.Proofs.Lexeme.Reading

/-!
# Numerals that are read as a whole

`Coercion.numeral?` reads a whole text by parting it at the mark of the exponent and at the point,
while `Numeral.scan` takes the longest numeral off the front of a source. Neither is made from the
other. Main statement: `numeral?` reads exactly the texts of well-formed numerals
(`numeral?_eq_some_iff`), one part after the other, and so agrees with a scan that leaves nothing
(`numeral?_eq_some_iff_scan`).
-/

namespace LineShell

open Text

/-! ## What stands in a numeral -/

namespace Numeral

/-- What can stand in digits with a possible point. -/
lemma mem_mantissa {whole : Text} {fraction : Option Text} {c : CodePoint}
    (hdigits : ∀ d ∈ whole ++ fraction.getD [], d.isDigit = true)
    (h : c ∈ whole ++ fractionText fraction) : c.isDigit = true ∨ c = ('.' : Char) := by
  rcases List.mem_append.mp h with h | h
  · exact .inl (hdigits c (List.mem_append_left _ h))
  · rcases fraction with _ | digits
    · cases h
    · rcases List.mem_cons.mp h with rfl | h
      · exact .inr rfl
      · exact .inl (hdigits c (List.mem_append_right whole h))

/-- The digits of a numeral, before the point and behind it. -/
lemma WellFormed.isDigit_of_mem {n : Numeral} (hn : n.WellFormed) :
    ∀ c ∈ n.whole ++ n.fraction.getD [], c.isDigit = true := by
  intro c hc
  rcases List.mem_append.mp hc with hc | hc
  · exact hn.whole c hc
  · exact hn.fraction c hc

/-- What can stand in a numeral. -/
lemma WellFormed.mem_text {n : Numeral} {c : CodePoint} (hn : n.WellFormed) (h : c ∈ n.text) :
    c.isDigit = true ∨ c ∈ (".eE+-" : Text) := by
  rcases List.mem_append.mp h with h | h
  · rcases mem_mantissa hn.isDigit_of_mem h with hc | rfl
    · exact .inl hc
    · exact .inr (by decide)
  · rcases hexponent : n.exponent with _ | e
    · rw [hexponent] at h
      cases h
    · have he := hn.exponent e hexponent
      rw [hexponent, exponentText, Exponent.text, List.cons_append, List.mem_cons,
        List.mem_append] at h
      rcases h with rfl | h | h
      · rcases he.mark with hmark | hmark
        · exact .inr (by rw [hmark]; decide)
        · exact .inr (by rw [hmark]; decide)
      · rcases he.sign c (Option.mem_toList.mp h) with rfl | rfl
        · exact .inr (by decide)
        · exact .inr (by decide)
      · exact .inl (he.digits c h)

end Numeral

namespace Coercion

/-! ## The parts of a numeral -/

/-- Digits with a possible point are parted at the point. -/
lemma mantissa?_eq_some_iff {t whole : Text} {fraction : Option Text} :
    mantissa? t = some (whole, fraction) ↔
      whole ++ fraction.getD [] ≠ [] ∧ (∀ c ∈ whole ++ fraction.getD [], c.isDigit = true) ∧
        whole ++ Numeral.fractionText fraction = t := by
  constructor
  · intro h
    simp only [mantissa?] at h
    split at h
    · next hdigits =>
      cases h
      refine ⟨hdigits.1, List.all_eq_true.mp hdigits.2, ?_⟩
      have hsplit := List.takeWhile_append_dropWhile (p := fun c => c ≠ (('.' : Char) : CodePoint))
        (l := t)
      rcases hrest : t.dropWhile fun c => c ≠ (('.' : Char) : CodePoint) with _ | ⟨c, rest⟩
      · rw [hrest] at hsplit
        exact hsplit
      · -- What ends the run is the point.
        have hpoint : c = ('.' : Char) := by
          have hhead := List.head?_dropWhile_not (fun c => c ≠ (('.' : Char) : CodePoint)) t
          rw [hrest] at hhead
          simpa using hhead
        rw [hrest, hpoint] at hsplit
        exact hsplit
    · cases h
  · rintro ⟨hne, hdigits, rfl⟩
    have hwhole : ∀ c ∈ whole, decide (c ≠ (('.' : Char) : CodePoint)) = true := by
      intro c hc
      have hdigit := hdigits c (List.mem_append_left _ hc)
      rw [decide_eq_true_eq]
      rintro rfl
      exact absurd hdigit (by decide)
    have hend : EndsRun (fun c => decide (c ≠ (('.' : Char) : CodePoint)))
        (Numeral.fractionText fraction) := by
      cases fraction with
      | none => exact fun c hc => by cases hc
      | some digits => exact endsRun_cons (by decide) digits
    have htail : (Numeral.fractionText fraction).tail? = fraction := by
      cases fraction with
      | none => rfl
      | some digits => rfl
    simp only [mantissa?, hend.takeWhile_append hwhole, hend.dropWhile_append hwhole, htail]
    exact if_pos ⟨hne, List.all_eq_true.mpr hdigits⟩

/-- An exponent is read behind its mark. -/
lemma exponent?_eq_some_iff {mark : CodePoint} {t : Text} {e : Exponent}
    (hmark : mark = ('e' : Char) ∨ mark = ('E' : Char)) :
    exponent? mark t = some e ↔ e.WellFormed ∧ e.text = mark :: t := by
  constructor
  · intro h
    simp only [exponent?] at h
    split at h
    · next hdigits =>
      cases h
      refine ⟨⟨hmark, fun c hc => Numeral.eq_plus_or_minus_of_scanSign hc, hdigits.1,
        List.all_eq_true.mp hdigits.2⟩, ?_⟩
      rw [Exponent.text, List.cons_append, Numeral.toList_append_of_scanSign]
    · cases h
  · rintro ⟨he, htext⟩
    obtain ⟨mark', sign, digits⟩ := e
    have hbehind : sign.toList ++ digits = t := (List.cons.inj htext).2
    obtain rfl : mark' = mark := (List.cons.inj htext).1
    have hscan := Numeral.scanSign_append_digits he.sign he.digits_ne_nil he.digits []
    rw [List.append_nil, hbehind] at hscan
    simp only [exponent?, hscan]
    exact if_pos ⟨he.digits_ne_nil, List.all_eq_true.mpr he.digits⟩

lemma isExponentMark_iff {c : CodePoint} :
    isExponentMark c = true ↔ c = ('e' : Char) ∨ c = ('E' : Char) := by
  simp [isExponentMark]

/-- A numeral is parted at the mark of its exponent. -/
lemma parts_text {n : Numeral} (hn : n.WellFormed) :
    (n.text.takeWhile fun c => !isExponentMark c) = n.whole ++ Numeral.fractionText n.fraction ∧
      (n.text.dropWhile fun c => !isExponentMark c) = Numeral.exponentText n.exponent := by
  have hrun : ∀ c ∈ n.whole ++ Numeral.fractionText n.fraction, (!isExponentMark c) = true := by
    intro c hc
    rw [Bool.not_eq_true', Bool.eq_false_iff, ne_eq, isExponentMark_iff]
    rintro (rfl | rfl)
    · exact absurd (Numeral.mem_mantissa hn.isDigit_of_mem hc) (by decide)
    · exact absurd (Numeral.mem_mantissa hn.isDigit_of_mem hc) (by decide)
  have hend : EndsRun (fun c => !isExponentMark c) (Numeral.exponentText n.exponent) := by
    rcases hexponent : n.exponent with _ | e
    · exact fun c hc => by cases hc
    · apply endsRun_cons
      rw [Bool.not_eq_false', isExponentMark_iff]
      exact (hn.exponent e hexponent).mark
  exact ⟨hend.takeWhile_append hrun, hend.dropWhile_append hrun⟩

/-! ## The whole numeral -/

/-- What is read as a numeral is the text of a numeral, and there is no other one of this text. -/
lemma numeral?_eq_some_iff {t : Text} {n : Numeral} :
    numeral? t = some n ↔ n.WellFormed ∧ n.text = t := by
  constructor
  · intro h
    have hsplit := List.takeWhile_append_dropWhile (p := fun c => !isExponentMark c) (l := t)
    unfold numeral? at h
    split at h
    · cases h
    · next whole fraction hmantissa hrest =>
      cases h
      obtain ⟨hne, hdigits, htext⟩ := mantissa?_eq_some_iff.mp hmantissa
      rw [List.forall_mem_append] at hdigits
      refine ⟨⟨hdigits.1, hdigits.2, ?_, ?_⟩, ?_⟩
      · simpa using hne
      · exact fun e he => by cases he
      · rw [hrest, ← htext] at hsplit
        exact hsplit
    · next whole fraction mark rest hmantissa hrest =>
      obtain ⟨e, he, rfl⟩ := Option.map_eq_some_iff.mp h
      obtain ⟨hne, hdigits, htext⟩ := mantissa?_eq_some_iff.mp hmantissa
      have hmark : mark = ('e' : Char) ∨ mark = ('E' : Char) := by
        have hhead := List.head?_dropWhile_not (fun c => !isExponentMark c) t
        rw [hrest] at hhead
        rw [← isExponentMark_iff]
        simpa using hhead
      obtain ⟨hwell, hexponent⟩ := (exponent?_eq_some_iff hmark).mp he
      rw [List.forall_mem_append] at hdigits
      refine ⟨⟨hdigits.1, hdigits.2, ?_, ?_⟩, ?_⟩
      · simpa using hne
      · rintro _ ⟨⟩
        exact hwell
      · rw [hrest, ← htext, ← hexponent] at hsplit
        exact hsplit
  · rintro ⟨hn, rfl⟩
    obtain ⟨hfront, hbehind⟩ := parts_text hn
    obtain ⟨whole, fraction, exponent⟩ := n
    have hne : whole ++ fraction.getD [] ≠ [] := by simpa using hn.ne_nil
    have hmantissa := mantissa?_eq_some_iff.mpr ⟨hne, hn.isDigit_of_mem, rfl⟩
    unfold numeral?
    rw [hfront, hbehind, hmantissa]
    cases exponent with
    | none => rfl
    | some e =>
        have he := hn.exponent e rfl
        have hread := (exponent?_eq_some_iff he.mark).mpr ⟨he, rfl⟩
        exact congrArg (Option.map _) hread

/-- A text is a numeral as a whole exactly if a scan takes all of it for one. -/
lemma numeral?_eq_some_iff_scan {t : Text} {n : Numeral} :
    numeral? t = some n ↔ Numeral.scan t = some (n, []) := by
  rw [numeral?_eq_some_iff]
  constructor
  · rintro ⟨hn, rfl⟩
    have hend : EndsRun Numeral.continuesNumber [] := fun c hc => by cases hc
    have hscan := Numeral.scan_text_append hn hend fun _ hhead => by cases hhead
    rwa [List.append_nil] at hscan
  · intro h
    refine ⟨Numeral.wellFormed_of_scan h, ?_⟩
    have htext := Numeral.text_append_of_scan h
    rwa [List.append_nil] at htext

/-! ## The suffix -/

lemma withoutSuffix_concat {t : Text} {c : CodePoint} (h : isSuffix c = true) :
    withoutSuffix (t ++ [c]) = t := by
  simp [withoutSuffix, h]

/-- At most one suffix is taken off. -/
lemma exists_suffix (t : Text) :
    ∃ suffix : Text, (suffix = [] ∨ ∃ c, isSuffix c = true ∧ suffix = [c]) ∧
      t = withoutSuffix t ++ suffix := by
  rcases List.eq_nil_or_concat t with rfl | ⟨front, c, rfl⟩
  · exact ⟨[], .inl rfl, rfl⟩
  · rw [List.concat_eq_append]
    by_cases hc : isSuffix c = true
    · refine ⟨[c], .inr ⟨c, hc, rfl⟩, ?_⟩
      rw [withoutSuffix_concat hc]
    · refine ⟨[], .inl rfl, ?_⟩
      simp [withoutSuffix, hc]

/-- A numeral has no suffix. -/
lemma withoutSuffix_text {n : Numeral} (hn : n.WellFormed) : withoutSuffix n.text = n.text := by
  unfold withoutSuffix
  rw [if_neg]
  intro hlast
  obtain ⟨c, hc, hsuffix⟩ := (Option.any_eq_true _ _).mp hlast
  have hmem := hn.mem_text (List.mem_of_getLast? hc)
  simp only [isSuffix, Bool.or_eq_true, decide_eq_true_eq] at hsuffix
  rcases hsuffix with ((rfl | rfl) | rfl) | rfl
  all_goals exact absurd hmem (by decide)

end Coercion

end LineShell
