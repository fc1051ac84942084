import LineShell.Text.Digit

/-!
# Unsigned decimal numerals

A numeral has digits, a point with digits before it, after it or both, and possibly an exponent.
Number literals of the source and texts coerced to floating types are both made of numerals. `scan`
reads the longest numeral at the start of a source; main statement: the numeral it finds is what it
took from the text (`text_append_of_scan`).
-/

namespace LineShell

/-- A power of ten at the end of a numeral, as written. -/
structure Exponent where
  /-- The letter `e` or `E`. -/
  mark : CodePoint
  /-- The sign, if one is written. -/
  sign : Option CodePoint
  /-- The digits, at least one. -/
  digits : Text
deriving DecidableEq

namespace Exponent

/-- The exponent as source text. -/
def text (e : Exponent) : Text :=
  e.mark :: e.sign.toList ++ e.digits

/-- The power of ten that the exponent denotes. -/
def value (e : Exponent) : Int :=
  if e.sign = some ('-' : Char) then -(Text.natOfDigits e.digits : Int)
  else Text.natOfDigits e.digits

end Exponent

/-- An unsigned decimal numeral, as written. -/
structure Numeral where
  /-- The digits before the point. -/
  whole : Text
  /-- The digits after the point, if there is a point. -/
  fraction : Option Text
  /-- The exponent, if there is one. -/
  exponent : Option Exponent
deriving DecidableEq

namespace Numeral

/-- The digits after the point, none if there is no point. -/
def fractionDigits (n : Numeral) : Text :=
  n.fraction.getD []

/-- A point and the digits behind it as source text. -/
def fractionText : Option Text → Text
  | some digits => '.' :: digits
  | none => []

/-- A possible exponent as source text. -/
def exponentText : Option Exponent → Text
  | some e => e.text
  | none => []

/-- The numeral as source text. -/
def text (n : Numeral) : Text :=
  n.whole ++ fractionText n.fraction ++ exponentText n.exponent

/-- Whether the numeral consists of digits only. -/
def isInteger (n : Numeral) : Bool :=
  n.fraction.isNone && n.exponent.isNone

/-- All digits read as one number. With `power` it gives the value of the numeral, which is
`coefficient * 10 ^ power`. -/
def coefficient (n : Numeral) : Nat :=
  Text.natOfDigits (n.whole ++ n.fractionDigits)

/-- The power of ten of the last digit. -/
def power (n : Numeral) : Int :=
  (match n.exponent with
    | some e => e.value
    | none => 0) - n.fractionDigits.length

/-! ## Reading -/

/-- A sign at the start of a text, and the rest. -/
def scanSign (t : Text) : Option CodePoint × Text :=
  match t with
  | c :: rest => if c = '+' ∨ c = '-' then (some c, rest) else (none, t)
  | [] => (none, [])

/-- A point and the digits behind it at the start of a text, and the rest. -/
def scanFraction (t : Text) : Option Text × Text :=
  match t with
  | c :: rest =>
    if c = '.' then (some (rest.takeWhile CodePoint.isDigit), rest.dropWhile CodePoint.isDigit)
    else (none, t)
  | [] => (none, [])

/-- An exponent at the start of a text, and the rest. A mark without digits behind it is no
exponent. -/
def scanExponent (t : Text) : Option Exponent × Text :=
  match t with
  | mark :: rest =>
    if mark = 'e' ∨ mark = 'E' then
      let (sign, body) := scanSign rest
      match body.takeWhile CodePoint.isDigit with
      | [] => (none, t)
      | digits => (some ⟨mark, sign, digits⟩, body.dropWhile CodePoint.isDigit)
    else (none, t)
  | [] => (none, [])

/-- The longest numeral at the start of a text, and the rest. A point alone is no numeral. -/
def scan (t : Text) : Option (Numeral × Text) :=
  let whole := t.takeWhile CodePoint.isDigit
  let (fraction, afterFraction) := scanFraction (t.dropWhile CodePoint.isDigit)
  if whole = [] ∧ fraction.getD [] = [] then none
  else
    let (exponent, rest) := scanExponent afterFraction
    some (⟨whole, fraction, exponent⟩, rest)

theorem toList_append_of_scanSign (t : Text) :
    (scanSign t).1.toList ++ (scanSign t).2 = t := by
  cases t with
  | nil => rfl
  | cons c rest =>
    simp only [scanSign]
    split <;> simp

theorem fractionText_append_of_scanFraction (t : Text) :
    fractionText (scanFraction t).1 ++ (scanFraction t).2 = t := by
  cases t with
  | nil => rfl
  | cons c rest =>
    by_cases h : c = ('.' : Char)
    · simp [scanFraction, fractionText, h]
    · simp [scanFraction, fractionText, h]

theorem exponentText_append_of_scanExponent (t : Text) :
    exponentText (scanExponent t).1 ++ (scanExponent t).2 = t := by
  cases t with
  | nil => rfl
  | cons mark rest =>
    have hsign := toList_append_of_scanSign rest
    have hdigits := List.takeWhile_append_dropWhile (p := CodePoint.isDigit)
      (l := (scanSign rest).2)
    simp only [scanExponent]
    by_cases h : mark = ('e' : Char) ∨ mark = ('E' : Char)
    · rw [if_pos h]
      split
      · simp [exponentText]
      · simp [exponentText, Exponent.text, hdigits, hsign]
    · rw [if_neg h]
      simp [exponentText]

/-- Reading takes the numeral off the front of the text. -/
theorem text_append_of_scan {t rest : Text} {n : Numeral} (h : scan t = some (n, rest)) :
    n.text ++ rest = t := by
  simp only [scan] at h
  split at h
  · contradiction
  · have hfraction := fractionText_append_of_scanFraction (t.dropWhile CodePoint.isDigit)
    have hexponent :=
      exponentText_append_of_scanExponent (scanFraction (t.dropWhile CodePoint.isDigit)).2
    simp only [Option.some.injEq, Prod.mk.injEq] at h
    obtain ⟨rfl, rfl⟩ := h
    simp only [text, List.append_assoc, hexponent, hfraction, List.takeWhile_append_dropWhile]

end Numeral

end LineShell
