import LineShell.Proofs.Coercion.DoubleRounding
import LineShell.Proofs.Scan.Longest
import LineShell.Proofs.Tree.Pieces

/-!
# Number literals and floating texts

Number literals of a source and texts of floating types are both numerals with a possible suffix,
but they are found in two ways: a scan takes the longest beginning of what is left, and a type looks
at a whole text. `IsNumber` is the grammar of literals that are numbers.

* **Scanning** (`Scan.isLiteral_iff`): without blanks and slashes, a source is a single number
  exactly if it is one as a whole. This rests on `Numeral.scan`.
* **Coercion** (`IsNumber.exists_floating?_eq`, `exists_isNumber_iff`): a number without the suffix
  of `long` is read as a floating number, by its text as well, and other texts that are read have a
  sign or are words. This rests on `Coercion.numeral?`, a reader of its own.

`isLiteral_iff_coercedTo` puts the two together.
-/

namespace LineShell

open Text
open Format (double)

/-- The text has neither blanks nor slashes, and so neither spacing nor a comment. -/
def Text.IsBare (t : Text) : Prop :=
  ∀ c ∈ t, c.isBlank = false ∧ c ≠ ('/' : Char)

/-! ## Numbers as a whole -/

/-- The text is a number of a kind: a numeral, whose text is given too, and a possible suffix. -/
inductive IsNumber : LiteralKind → Text → Text → Prop
  | plain {n : Numeral} (hn : n.WellFormed) :
      IsNumber (if n.isInteger then .int else .double) n.text n.text
  | suffixed {n : Numeral} {c : CodePoint} {kind : LiteralKind} (hn : n.WellFormed)
      (hkind : (c, kind) ∈ Lexeme.suffixes) (hlong : kind = .long → n.isInteger = true) :
      IsNumber kind n.text (n.text ++ [c])

/-- Whether literals of the kind are numbers. -/
def LiteralKind.isNumber : LiteralKind → Bool
  | .int | .long | .float | .double => true
  | _ => false

/-- No reserved word is a number. -/
lemma Lexeme.isNumber_of_mem_reservedWords {word : Text} {l : Literal}
    (h : (word, .literal l) ∈ reservedWords) : l.kind.isNumber = false := by
  simp only [reservedWords, List.mem_cons, List.not_mem_nil, or_false, Prod.mk.injEq,
    Lexeme.literal.injEq, reduceCtorEq, and_false] at h
  rcases h with ⟨-, rfl⟩ | ⟨-, rfl⟩ | ⟨-, rfl⟩
  all_goals rfl

/-- Literals that are numbers are not spelled as anything else. -/
lemma isNumber_of_spelledAs {kind : LiteralKind} {text x : Text} (hkind : kind.isNumber = true)
    (h : Lexeme.SpelledAs (.literal ⟨kind, text⟩) x) : IsNumber kind text x := by
  generalize hl : Lexeme.literal ⟨kind, text⟩ = l at h
  cases h with
  | symbol s => cases hl
  | reserved hmem =>
      subst hl
      have hnone := Lexeme.isNumber_of_mem_reservedWords hmem
      rw [hkind] at hnone
      cases hnone
  | name _ _ => cases hl
  | number hn =>
      cases hl
      exact .plain hn
  | suffixed hn hsuffix hlong =>
      cases hl
      exact .suffixed hn hsuffix hlong
  | string _ =>
      cases hl
      cases hkind
  | char _ =>
      cases hl
      cases hkind

namespace Scan

/-- The source is a single literal, and nothing else. -/
def IsLiteral (x : Text) (kind : LiteralKind) (text : Text) : Prop :=
  ∃ scan pos, ofSource x = .ok scan ∧ scan.tokens = [⟨.literal ⟨kind, text⟩, pos⟩]

lemma isBlank_of_isSpacing {c : CodePoint} (h : c.isSpacing = true) : c.isBlank = true := by
  unfold CodePoint.isSpacing at h
  simp only [Bool.or_eq_true, decide_eq_true_eq] at h
  rcases h with (((rfl | rfl) | rfl) | rfl) | rfl
  all_goals decide

lemma isLiteral_iff_splits {x text : Text} {kind : LiteralKind} :
    IsLiteral x kind text ↔ Splits x [.literal ⟨kind, text⟩] := by
  rw [← exists_after_iff 0]
  unfold IsLiteral lexemes ofSource
  constructor
  · rintro ⟨scan, pos, hscan, htokens⟩
    exact ⟨scan, hscan, by rw [htokens]; rfl⟩
  · rintro ⟨scan, hscan, hlexemes⟩
    obtain ⟨⟨x, pos⟩, htokens, rfl⟩ := List.map_eq_singleton_iff.mp hlexemes
    exact ⟨scan, pos, hscan, htokens⟩

/-- Nothing but lexemes is in a bare text, so without lexemes it is empty. -/
lemma eq_nil_of_splits_nil {t : Text} (ht : t.IsBare) (h : Splits t []) : t = [] := by
  cases h with
  | nil => rfl
  | @spacing c rest _ hc _ =>
      have hblank := (ht c List.mem_cons_self).1
      rw [isBlank_of_isSpacing hc] at hblank
      cases hblank
  | comment hcomment =>
      cases t with
      | nil => rfl
      | cons c rest =>
          exact absurd (startsComment_cons_iff.mp hcomment).1 (ht c List.mem_cons_self).2

/-- A bare text has a single lexeme exactly if all of it is read as the lexeme. -/
lemma splits_singleton_iff {t : Text} {x : Lexeme} (ht : t.IsBare) :
    Splits t [x] ↔ Reads t x [] := by
  constructor
  · intro h
    cases h with
    | @spacing c rest _ hc _ =>
        have hblank := (ht c List.mem_cons_self).1
        rw [isBlank_of_isSpacing hc] at hblank
        cases hblank
    | @lexeme _ rest _ _ hx hrest =>
        obtain ⟨c, tail, width, rfl, hc, hcomment, hread, rfl⟩ := hx
        have hbare : Text.IsBare (tail.drop (width - 1)) := fun d hd =>
          ht d (List.mem_cons_of_mem c (List.mem_of_mem_drop hd))
        exact ⟨c, tail, width, rfl, hc, hcomment, hread, eq_nil_of_splits_nil hbare hrest⟩
  · exact fun h => .lexeme h .nil

/-- What is read as a lexeme, with nothing left, is a spelling of the lexeme. -/
lemma Reads.spelledAs {t : Text} {x : Lexeme} (h : Reads t x []) : x.SpelledAs t := by
  obtain ⟨c, tail, width, rfl, -, -, hread, hdrop⟩ := h
  obtain ⟨l, rest, htext, hlength, hspelled⟩ := Lexeme.exists_spelledAs_of_read hread
  have hrest : rest = [] := by
    have hle := List.drop_eq_nil_iff.mp hdrop
    have htotal := congrArg List.length htext
    have hwidth := Lexeme.width_pos_of_read hread
    rw [List.length_cons, List.length_append] at htotal
    dsimp only at hlength hwidth
    exact List.eq_nil_of_length_eq_zero (by omega)
  rw [htext, hrest, List.append_nil]
  exact hspelled

lemma reads_of_isNumber {kind : LiteralKind} {text x : Text} (h : IsNumber kind text x) :
    Reads x (.literal ⟨kind, text⟩) [] := by
  have hend : ∀ p : CodePoint → Bool, EndsRun p [] := fun p c hc => by cases hc
  cases h with
  | @plain n hn =>
      have hreads := reads_number hn (hend _) (hend _) (by simp)
      rwa [List.append_nil] at hreads
  | suffixed hn hkind hlong =>
      exact reads_suffixed hn (Lexeme.suffixKind?_eq_some_iff.mpr hkind) hlong []

/-- A bare source is a single number exactly if it is a number as a whole. -/
lemma isLiteral_iff {x text : Text} {kind : LiteralKind} (hx : x.IsBare)
    (hkind : kind.isNumber = true) : IsLiteral x kind text ↔ IsNumber kind text x := by
  rw [isLiteral_iff_splits, splits_singleton_iff hx]
  exact ⟨fun h => isNumber_of_spelledAs hkind h.spelledAs, reads_of_isNumber⟩

end Scan

/-! ## The kind of a number by its text -/

namespace Numeral.WellFormed

variable {n : Numeral}

/-- A point or an exponent shows in the text. -/
lemma isInteger_iff (hn : n.WellFormed) :
    n.isInteger = true ↔ ∀ c ∈ n.text, c.isDigit = true := by
  refine ⟨fun h => (hn.digits_of_isInteger h).2, fun h => ?_⟩
  unfold isInteger
  rw [Bool.and_eq_true, Option.isNone_iff_eq_none, Option.isNone_iff_eq_none]
  constructor
  · rcases hfraction : n.fraction with _ | digits
    · rfl
    · have hpoint : (('.' : Char) : CodePoint) ∈ n.text := by
        simp [text, fractionText, hfraction]
      exact absurd (h _ hpoint) (by decide)
  · rcases hexponent : n.exponent with _ | e
    · rfl
    · have hmark : e.mark ∈ n.text := by
        simp [text, exponentText, Exponent.text, hexponent]
      have hdigit := h _ hmark
      rcases (hn.exponent e hexponent).mark with hcase | hcase
      · rw [hcase] at hdigit
        exact absurd hdigit (by decide)
      · rw [hcase] at hdigit
        exact absurd hdigit (by decide)

end Numeral.WellFormed

namespace IsNumber

variable {kind : LiteralKind} {text x : Text}

/-- The numbers of kind `int` consist of digits. -/
lemma eq_int_iff (h : IsNumber kind text x) : kind = .int ↔ ∀ c ∈ x, c.isDigit = true := by
  cases h with
  | plain hn =>
      rw [← hn.isInteger_iff]
      split
      · next hinteger => exact iff_of_true rfl hinteger
      · next hinteger => exact iff_of_false (by decide) hinteger
  | suffixed hn hkind hlong =>
      -- A suffix is a letter.
      have hall : ∀ s ∈ Lexeme.suffixes, s.1.isDigit = false ∧ s.2 ≠ .int := by decide
      obtain ⟨hdigit, hne⟩ := hall _ hkind
      refine iff_of_false hne fun hdigits => ?_
      rw [hdigits _ (List.mem_append_right _ List.mem_cons_self)] at hdigit
      cases hdigit

/-- The numbers of kind `float` have its suffix. -/
lemma eq_float_iff (h : IsNumber kind text x) :
    kind = .float ↔ x.getLast? = some (('f' : Char) : CodePoint) ∨
      x.getLast? = some (('F' : Char) : CodePoint) := by
  cases h with
  | @plain n hn =>
      have hlast : ∀ d : CodePoint, d.isDigit = false → d ∉ (".eE+-" : Text) →
          n.text.getLast? ≠ some d := by
        intro d hdigit hmark hlast
        rcases hn.mem_text (List.mem_of_getLast? hlast) with hd | hd
        · rw [hdigit] at hd
          cases hd
        · exact hmark hd
      have hkind : (if n.isInteger then LiteralKind.int else .double) ≠ .float := by
        split
        · decide
        · decide
      refine iff_of_false hkind ?_
      rintro (h | h)
      · exact hlast _ (by decide) (by decide) h
      · exact hlast _ (by decide) (by decide) h
  | suffixed hn hkind hlong =>
      have hall : ∀ s ∈ Lexeme.suffixes,
          s.2 = .float ↔ s.1 = ('f' : Char) ∨ s.1 = ('F' : Char) := by
        decide
      rw [List.getLast?_concat, Option.some.injEq, Option.some.injEq]
      exact hall _ hkind

/-- Behind a number of another kind than `long` stands a suffix of a floating text. -/
lemma exists_suffix (h : IsNumber kind text x) (hlong : kind ≠ .long) :
    ∃ n : Numeral, n.WellFormed ∧ text = n.text ∧ ∃ suffix ∈ floatingSuffixes,
      x = n.text ++ suffix := by
  cases h with
  | @plain n hn => exact ⟨n, hn, rfl, [], by decide, (List.append_nil _).symm⟩
  | @suffixed n c _ hn hkind _ =>
      have hall : ∀ s ∈ Lexeme.suffixes, s.2 ≠ .long → [s.1] ∈ floatingSuffixes := by decide
      exact ⟨n, hn, rfl, [c], hall _ hkind hlong, rfl⟩

/-- A number is read as a floating number, and so is the text of its literal. -/
lemma exists_floating?_eq (h : IsNumber kind text x) (hlong : kind ≠ .long) :
    ∃ y, Coercion.floating? x = some y ∧ Coercion.floating? text = some y := by
  obtain ⟨n, hn, rfl, suffix, hsuffix, rfl⟩ := h.exists_suffix hlong
  refine ⟨_, Coercion.floating?_suffixed .none hn hsuffix, ?_⟩
  have hnone : ([] : Text) ∈ floatingSuffixes := by decide
  have hread := Coercion.floating?_suffixed .none hn hnone
  rwa [List.append_nil] at hread

/-- There are no blanks in the text of a number. -/
lemma isBlank_of_mem (h : IsNumber kind text x) : ∀ c ∈ text, c.isBlank = false := by
  cases h with
  | plain hn => exact fun c hc => hn.isBlank_of_mem hc
  | suffixed hn _ _ => exact fun c hc => hn.isBlank_of_mem hc

end IsNumber

/-- A numeral with a suffix of a floating text is a number of a kind other than `long`. -/
lemma exists_isNumber_of_suffix {n : Numeral} {suffix : Text} (hn : n.WellFormed)
    (hsuffix : suffix ∈ floatingSuffixes) :
    ∃ kind ∈ [LiteralKind.int, .float, .double], IsNumber kind n.text (n.text ++ suffix) := by
  have hsuffixed : ∀ {c : CodePoint} {kind : LiteralKind}, (c, kind) ∈ Lexeme.suffixes →
      kind ≠ .long → IsNumber kind n.text (n.text ++ [c]) := fun hkind hlong =>
    .suffixed hn hkind fun h => absurd h hlong
  simp only [floatingSuffixes, List.mem_cons, List.not_mem_nil, or_false] at hsuffix
  rcases hsuffix with rfl | rfl | rfl | rfl | rfl
  · refine ⟨if n.isInteger then .int else .double, ?_, ?_⟩
    · split
      · decide
      · decide
    · rw [List.append_nil]
      exact .plain hn
  · exact ⟨.float, by decide, hsuffixed (by decide) (by decide)⟩
  · exact ⟨.float, by decide, hsuffixed (by decide) (by decide)⟩
  · exact ⟨.double, by decide, hsuffixed (by decide) (by decide)⟩
  · exact ⟨.double, by decide, hsuffixed (by decide) (by decide)⟩

/-- The numbers of the source are the floating texts without sign that are no words. -/
lemma exists_isNumber_iff {x : Text} :
    (∃ kind ∈ [LiteralKind.int, .float, .double], ∃ text, IsNumber kind text x) ↔
      (∃ y, Coercion.floating? x = some y) ∧ x.head? ≠ some (('+' : Char) : CodePoint) ∧
        x.head? ≠ some (('-' : Char) : CodePoint) ∧ x ≠ "NaN" ∧ x ≠ "Infinity" := by
  constructor
  · rintro ⟨kind, hkind, text, h⟩
    have hlong : kind ≠ .long := by
      rintro rfl
      exact absurd hkind (by decide)
    obtain ⟨y, hy, -⟩ := h.exists_floating?_eq hlong
    obtain ⟨n, hn, -, suffix, -, rfl⟩ := h.exists_suffix hlong
    obtain ⟨c, tail, htext, hc, -⟩ := Scan.exists_startsNumber hn
    have hhead : ∀ d : CodePoint, d.isDigit = false → d ≠ ('.' : Char) →
        (n.text ++ suffix).head? ≠ some d := by
      intro d hdigit hpoint hd
      rw [htext, List.cons_append, List.head?_cons] at hd
      cases hd
      rcases hc with hc | hc
      · rw [hdigit] at hc
        cases hc
      · exact hpoint hc
    have hword : ∀ d : CodePoint, ∀ word : Text, d.isDigit = false → d ≠ ('.' : Char) →
        n.text ++ suffix ≠ d :: word := fun d word hdigit hpoint h =>
      hhead d hdigit hpoint (by rw [h, List.head?_cons])
    exact ⟨⟨y, hy⟩, hhead _ (by decide) (by decide), hhead _ (by decide) (by decide),
      hword _ _ (by decide) (by decide), hword _ _ (by decide) (by decide)⟩
  · rintro ⟨⟨y, hy⟩, hplus, hminus, hnan, hinfinity⟩
    obtain ⟨q, hq⟩ := Coercion.exists_denotes hy
    -- Of the signs only the missing one is left.
    have hsign : ∀ {sign rest : Text} {negative : Bool}, IsSign sign negative →
        x = sign ++ rest → x = rest := by
      intro sign rest negative hsign hx
      cases hsign with
      | none => exact hx
      | plus => exact absurd (by rw [hx]; rfl) hplus
      | minus => exact absurd (by rw [hx]; rfl) hminus
    generalize hx : x = t at hq
    cases hq with
    | nan h => exact absurd (hsign h hx) hnan
    | infinity h => exact absurd (hsign h hx) hinfinity
    | @numeral sign negative n suffix h hn hsuffix =>
        obtain ⟨kind, hkind, hnumber⟩ := exists_isNumber_of_suffix hn hsuffix
        refine ⟨kind, hkind, n.text, ?_⟩
        rwa [← hx, hsign h hx]

/-- The numbers of kind `long` are digits with its suffix. -/
lemma isNumber_long_iff {digits x : Text} :
    IsNumber .long digits x ↔ digits ≠ [] ∧ (∀ c ∈ digits, c.isDigit = true) ∧
      (x = digits ++ "l" ∨ x = digits ++ "L") := by
  constructor
  · intro h
    generalize hkind : LiteralKind.long = kind at h
    cases h with
    | plain hn =>
        split at hkind
        · cases hkind
        · cases hkind
    | suffixed hn hsuffix hlong =>
        obtain ⟨hne, hdigits⟩ := hn.digits_of_isInteger (hlong hkind.symm)
        refine ⟨hne, hdigits, ?_⟩
        have hall : ∀ s ∈ Lexeme.suffixes,
            s.2 = .long → s.1 = ('l' : Char) ∨ s.1 = ('L' : Char) := by
          decide
        rcases hall _ hsuffix hkind.symm with rfl | rfl
        · exact .inl rfl
        · exact .inr rfl
  · rintro ⟨hne, hdigits, hx⟩
    have hsuffixed : ∀ {c : CodePoint}, (c, LiteralKind.long) ∈ Lexeme.suffixes →
        IsNumber .long digits (digits ++ [c]) := by
      intro c hc
      have h := IsNumber.suffixed (Numeral.wellFormed_digits hne hdigits) hc fun _ => rfl
      rwa [Numeral.text_digits] at h
    rcases hx with rfl | rfl
    · exact hsuffixed (by decide)
    · exact hsuffixed (by decide)

/-! ## Sources and coercions -/

/-- What a type of floating numbers makes of a text without blanks depends on what is read. -/
lemma Store.coercedTo_congr {x text : Text} (hx : ∀ c ∈ x, c.isBlank = false)
    (htext : ∀ c ∈ text, c.isBlank = false) {y : Binary double}
    (hread : Coercion.floating? x = some y) (hread' : Coercion.floating? text = some y) :
    coercedTo "double" text = coercedTo "double" x ∧
      coercedTo "float" text = coercedTo "float" x := by
  rw [coercedTo_double, coercedTo_double, coercedTo_float, coercedTo_float, Text.trim_of_forall hx,
    Text.trim_of_forall htext, hread, hread']
  exact ⟨rfl, rfl⟩

/-- **Sources and floating texts have the same numerals.** A text without blanks and slashes is as a
source a single literal of kind `int`, `float` or `double` exactly if it has a value of type
`double`, no sign, and is not one of the words for special numbers. The kind is `int` if there are
only digits, and `float` if there is an `f` at the end. The text of the literal, which has no
suffix, has the same values of the types `double` and `float`. A single literal of kind `long` is
digits and an `l`. -/
theorem isLiteral_iff_coercedTo (x : Text) (hx : x.IsBare) :
    ((∃ kind ∈ [LiteralKind.int, .float, .double], ∃ text, Scan.IsLiteral x kind text) ↔
      (∃ v, Store.coercedTo "double" x = .ok v) ∧ x.head? ≠ some (('+' : Char) : CodePoint) ∧
        x.head? ≠ some (('-' : Char) : CodePoint) ∧ x ≠ "NaN" ∧ x ≠ "Infinity") ∧
    (∀ kind ∈ [LiteralKind.int, .float, .double], ∀ text, Scan.IsLiteral x kind text →
      (kind = .int ↔ ∀ c ∈ x, c.isDigit = true) ∧
      (kind = .float ↔ x.getLast? = some (('f' : Char) : CodePoint) ∨
        x.getLast? = some (('F' : Char) : CodePoint)) ∧
      Store.coercedTo "double" text = Store.coercedTo "double" x ∧
      Store.coercedTo "float" text = Store.coercedTo "float" x) ∧
    ∀ digits, Scan.IsLiteral x .long digits ↔ digits ≠ [] ∧ (∀ c ∈ digits, c.isDigit = true) ∧
      (x = digits ++ "l" ∨ x = digits ++ "L") := by
  have hblank : ∀ c ∈ x, c.isBlank = false := fun c hc => (hx c hc).1
  have hnumber : ∀ kind ∈ [LiteralKind.int, .float, .double],
      kind.isNumber = true ∧ kind ≠ .long := by
    decide
  have hvalue : (∃ v, Store.coercedTo "double" x = .ok v) ↔
      ∃ y, Coercion.floating? x = some y := by
    rw [Store.coercedTo_double, Text.trim_of_forall hblank]
    rcases Coercion.floating? x with _ | y
    · simp
    · simp
  refine ⟨?_, ?_, ?_⟩
  · rw [hvalue, ← exists_isNumber_iff]
    refine exists_congr fun kind => and_congr_right fun hkind => exists_congr fun text => ?_
    exact Scan.isLiteral_iff hx (hnumber kind hkind).1
  · intro kind hkind text hliteral
    have h := (Scan.isLiteral_iff hx (hnumber kind hkind).1).mp hliteral
    obtain ⟨y, hread, hread'⟩ := h.exists_floating?_eq (hnumber kind hkind).2
    exact ⟨h.eq_int_iff, h.eq_float_iff,
      Store.coercedTo_congr hblank h.isBlank_of_mem hread hread'⟩
  · intro digits
    rw [Scan.isLiteral_iff hx rfl, isNumber_long_iff]

/-- A point, an exponent and a suffix in one source. -/
theorem isLiteral_iff_coercedTo_suffixed :
    Text.IsBare ".5e+2F" ∧ Scan.IsLiteral ".5e+2F" .float ".5e+2" ∧
      (∃ v, Store.coercedTo "double" ".5e+2F" = .ok v) ∧
      Store.coercedTo "float" ".5e+2" = Store.coercedTo "float" ".5e+2F" := by
  have hbare : Text.IsBare ".5e+2F" := by
    unfold Text.IsBare
    decide
  have hscan : Scan.IsLiteral ".5e+2F" .float ".5e+2" :=
    ⟨⟨[⟨.literal ⟨.float, ".5e+2"⟩, 0⟩], []⟩, 0, by decide +kernel, rfl⟩
  obtain ⟨hiff, hkinds, -⟩ := isLiteral_iff_coercedTo ".5e+2F" hbare
  exact ⟨hbare, hscan, (hiff.mp ⟨.float, by decide, _, hscan⟩).1,
    (hkinds .float (by decide) _ hscan).2.2.2⟩

end LineShell
