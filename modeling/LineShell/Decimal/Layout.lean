import LineShell.Decimal.Shortest

/-!
# The text of a floating number

Numbers from a thousandth up to ten million are written plainly, all others with one digit before
the point and a power of ten behind the letter `E`. There is always a digit on both sides of the
point.
-/

namespace LineShell

/-- Where plain notation starts: the `double` nearest to a thousandth. -/
def plainStart : Ratio := ⟨1152921504606847, Nat.pow 2 60, two_power_pos 60⟩

/-- Where plain notation ends. -/
def plainEnd : Ratio := ⟨10000000, 1, Nat.one_pos⟩

example : ((Binary.ofDecimal Format.double false ⟨1, -3⟩)).bits = 0x3F50624DD2F1A9FC := by
  decide +kernel

namespace Ratio

/-- Whether a number of this size is written plainly. -/
def isPlain (r : Ratio) : Bool :=
  plainStart.le r && r.lt plainEnd

end Ratio

namespace Decimal

/-- `digits` behind a point, with a zero if there are none. -/
def fraction (digits : Text) : Text :=
  if digits = [] then "0" else digits

/-- Plain notation of digits with the point at place `point`. -/
def plain (digits : Text) (point : Int) : Text :=
  match point with
  | .ofNat 0 => "0." ++ digits
  | .ofNat p =>
    digits.take p ++ List.replicate (p - digits.length) ('0' : CodePoint) ++ "."
      ++ fraction (digits.drop p)
  | .negSucc p => "0." ++ List.replicate (p + 1) ('0' : CodePoint) ++ digits

/-- Notation with a power of ten. -/
def scientific (digits : Text) (point : Int) : Text :=
  digits.take 1 ++ "." ++ fraction (digits.drop 1) ++ "E" ++ Text.ofInt (point - 1)

end Decimal

namespace Binary

/-- The text of a number, given the decimal that shows a magnitude. -/
def layout {F : Format} (shown : Magnitude F → Decimal) : Binary F → Text
  | .nan => "NaN"
  | .infinite negative => signText negative ++ "Infinity"
  | .finite negative m =>
    if m.significand = 0 then signText negative ++ "0.0"
    else
      let d := shown m
      signText negative
        ++ if m.toRatio.isPlain then Decimal.plain d.digits d.point
           else Decimal.scientific d.digits d.point
where
  /-- The sign in front of a number. -/
  signText (negative : Bool) : Text :=
    if negative then "-" else []

/-- The text of a number of type `double`. -/
def displayDouble (x : Binary Format.double) : Text :=
  x.layout Magnitude.shortestDouble

/-- The text of a number of type `float`. -/
def displaySingle (x : Binary Format.single) : Text :=
  x.layout Magnitude.shortestSingle

example : (Binary.ofDecimal Format.double false ⟨1, -1⟩).displayDouble = "0.1" := by
  decide +kernel
example : (Binary.ofDecimal Format.double true ⟨123456789, 0⟩).displayDouble = "-1.23456789E8" := by
  decide +kernel
example : (Binary.ofDecimal Format.double false ⟨5, -324⟩).displayDouble = "5.0E-324" := by
  decide +kernel

end Binary

end LineShell
