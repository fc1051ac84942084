import LineShell.Lexeme.Reader
import Mathlib.Data.List.TakeWhile
import Mathlib.Tactic.Lemma

/-!
# Lexemes that a source can spell

A lexeme as a value can hold texts that no source gives it, such as a name with a space in it.
`Lexeme.Spelled` says which lexemes have a spelling, and `spelled_of_read` that every lexeme read
from a text is one of them. Numbers come with the grammar of their digits (`Numeral.WellFormed`).
-/

namespace LineShell

/-! ## Numerals -/

/-- A mark, possibly a sign, and some digits. -/
structure Exponent.WellFormed (e : Exponent) : Prop where
  /-- The mark is a letter `e`. -/
  mark : e.mark = ('e' : Char) ∨ e.mark = ('E' : Char)
  /-- A sign is a plus or a minus. -/
  sign : ∀ c, e.sign = some c → c = ('+' : Char) ∨ c = ('-' : Char)
  /-- There are digits. -/
  digits_ne_nil : e.digits ≠ []
  /-- They are all digits. -/
  digits : ∀ c ∈ e.digits, c.isDigit = true

/-- Digits before a possible point or behind it, and a possible exponent. -/
structure Numeral.WellFormed (n : Numeral) : Prop where
  /-- Digits stand before the point. -/
  whole : ∀ c ∈ n.whole, c.isDigit = true
  /-- Digits stand behind the point. -/
  fraction : ∀ c ∈ n.fraction.getD [], c.isDigit = true
  /-- There is some digit. -/
  ne_nil : ¬ (n.whole = [] ∧ n.fraction.getD [] = [])
  /-- The exponent is well formed. -/
  exponent : ∀ e, n.exponent = some e → e.WellFormed

namespace Numeral

/-- Digits alone are a numeral. -/
lemma wellFormed_digits {digits : Text} (hne : digits ≠ [])
    (h : ∀ c ∈ digits, c.isDigit = true) : WellFormed ⟨digits, none, none⟩ :=
  ⟨h, by simp, fun hnil => hne hnil.1, by simp⟩

lemma text_digits (digits : Text) : text ⟨digits, none, none⟩ = digits := by
  simp [text, fractionText, exponentText]

/-- What is taken off as a sign is one. -/
lemma eq_plus_or_minus_of_scanSign {t : Text} {c : CodePoint} (h : (scanSign t).1 = some c) :
    c = ('+' : Char) ∨ c = ('-' : Char) := by
  cases t with
  | nil => cases h
  | cons d rest =>
      simp only [scanSign] at h
      split at h
      · next hd =>
        cases h
        exact hd
      · cases h

lemma wellFormed_of_scanExponent {t rest : Text} {e : Exponent}
    (h : scanExponent t = (some e, rest)) : e.WellFormed := by
  cases t with
  | nil => cases h
  | cons mark body =>
      simp only [scanExponent] at h
      split at h
      · next hmark =>
        split at h
        · cases h
        · next hne =>
          cases h
          exact ⟨hmark, fun c hc => eq_plus_or_minus_of_scanSign hc, hne,
            fun c hc => List.mem_takeWhile_imp hc⟩
      · cases h

/-- The numeral found at the start of a text is well formed. -/
lemma wellFormed_of_scan {t rest : Text} {n : Numeral} (h : scan t = some (n, rest)) :
    n.WellFormed := by
  simp only [scan] at h
  split at h
  · cases h
  · next hne =>
    cases h
    refine ⟨fun c hc => List.mem_takeWhile_imp hc, ?_, hne, fun e he => ?_⟩
    · intro c hc
      cases hbody : t.dropWhile CodePoint.isDigit with
      | nil => simp [hbody, scanFraction] at hc
      | cons d body =>
          rw [hbody] at hc
          simp only [scanFraction] at hc
          split at hc
          · exact List.mem_takeWhile_imp hc
          · cases hc
    · exact wellFormed_of_scanExponent (Prod.ext he rfl)

end Numeral

/-! ## Words -/

namespace Lexeme

/-- A code point that starts a word, and code points that go on with it. -/
structure IsWord (word : Text) : Prop where
  /-- A word is not empty, and its first code point can start it. -/
  starts : ∃ c, word.head? = some c ∧ startsWord c = true
  /-- Every code point can go on with a word. -/
  continues : ∀ c ∈ word, continuesWord c = true

lemma continuesWord_of_startsWord {c : CodePoint} (h : startsWord c = true) :
    continuesWord c = true := by
  rw [continuesWord, h, Bool.true_or]

/-- There is no dot in a word. -/
lemma IsWord.dot_not_mem {word : Text} (h : IsWord word) : (('.' : Char) : CodePoint) ∉ word :=
  fun hdot => absurd (h.continues _ hdot) (by decide)

lemma isWord_cons_takeWhile {c : CodePoint} (hc : startsWord c = true) (rest : Text) :
    IsWord (c :: rest.takeWhile continuesWord) := by
  refine ⟨⟨c, rfl, hc⟩, ?_⟩
  intro d hd
  rcases List.mem_cons.mp hd with rfl | hd
  · exact continuesWord_of_startsWord hc
  · exact List.mem_takeWhile_imp hd

end Lexeme

/-! ## Lexemes -/

/-- The literals that a source can spell. -/
def Literal.Spelled : Literal → Prop
  | ⟨.int, t⟩ | ⟨.long, t⟩ => ∃ n : Numeral, n.WellFormed ∧ n.isInteger = true ∧ n.text = t
  | ⟨.float, t⟩ | ⟨.double, t⟩ => ∃ n : Numeral, n.WellFormed ∧ n.text = t
  | ⟨.char, t⟩ => t.length = 1
  | ⟨.string, _⟩ => True
  | ⟨.boolean, t⟩ => t = "true" ∨ t = "false"
  | ⟨.null, t⟩ => t = "null"

namespace Lexeme

/-- The lexemes that a source can spell. -/
def Spelled : Lexeme → Prop
  | literal l => l.Spelled
  | name word => IsWord word ∧ ofWord word = name word
  | keyword _ | symbol _ => True

lemma spelled_ofWord {word : Text} (h : IsWord word) : (ofWord word).Spelled := by
  by_cases hname : ofWord word = name word
  · rw [hname]
    exact ⟨h, hname⟩
  · -- Every other word stands for a keyword or a literal whose text it is.
    unfold ofWord at hname ⊢
    split
    · next hbool => exact hbool
    split
    · next hnull => exact hnull
    split
    · trivial
    split
    · trivial
    split
    · trivial
    split
    · trivial
    · simp_all

lemma spelled_of_readNumber {t : Text} {reading : Reading} (h : readNumber t = .ok reading) :
    reading.lexeme.Spelled := by
  unfold readNumber at h
  split at h
  · cases h
  · next n rest hscan =>
    have hn := Numeral.wellFormed_of_scan hscan
    split at h
    · cases h
      dsimp only
      split
      · next hinteger => exact ⟨n, hn, hinteger, rfl⟩
      · exact ⟨n, hn, rfl⟩
    · next suffix kind hsuffix =>
      split at h
      · cases h
      · next hlong =>
        cases h
        cases rest with
        | nil => cases hsuffix
        | cons c rest =>
            obtain ⟨kind', hkind, heq⟩ := Option.map_eq_some_iff.mp hsuffix
            cases heq
            unfold suffixKind? at hkind
            split at hkind
            · cases hkind
              refine ⟨n, hn, ?_, rfl⟩
              simpa using hlong
            split at hkind
            · cases hkind
              exact ⟨n, hn, rfl⟩
            split at hkind
            · cases hkind
              exact ⟨n, hn, rfl⟩
            · cases hkind

/-- What is read from a text has a spelling. -/
lemma spelled_of_read {c : CodePoint} {rest : Text} {reading : Reading}
    (h : read c rest = .ok reading) : reading.lexeme.Spelled := by
  unfold read at h
  split at h
  · unfold readString at h
    split at h
    · cases h
    · cases h
      trivial
  split at h
  · unfold readChar at h
    split at h
    · cases h
    · split at h
      · next hlength =>
        cases h
        exact hlength
      · cases h
  split at h
  · exact spelled_of_readNumber h
  split at h
  · next hword =>
    cases h
    exact spelled_ofWord (isWord_cons_takeWhile hword rest)
  split at h
  · cases h
    trivial
  · cases h

end Lexeme

end LineShell
