import LineShell.Decimal

/-!
# Few digits that read back

A floating number is shown by the first decimal, on grids of one, two, three and more significant
digits, that reads back as the number.

* A `double` is looked for between its two neighbours on each grid; of two that read back the
  nearer one is taken, and of two equally near the even one.
* A `float` is looked for at its nearest point on each grid of at most nine digits, and read back
  as a `double` that is then converted.
-/

namespace LineShell

namespace Ratio

/-- The place of the decimal point of a positive fraction: the least power of ten above it. -/
def point (r : Ratio) : Int :=
  if r.den ≤ r.num then Decimal.width (r.num / r.den)
  else 1 - Decimal.width ((r.den - 1) / r.num)

/-- The power of ten that a grid of `n` significant digits has at a fraction. -/
def gridPower (r : Ratio) (n : Nat) : Int :=
  r.point - n

/-- The greatest grid point of `n` significant digits that is not above the fraction. -/
def gridBelow (r : Ratio) (n : Nat) : Decimal :=
  ⟨(r.scaleDown (r.gridPower n)).floor, r.gridPower n⟩

/-- The grid point behind `gridBelow`. -/
def gridAbove (r : Ratio) (n : Nat) : Decimal :=
  ⟨(r.scaleDown (r.gridPower n)).floor + 1, r.gridPower n⟩

/-- The nearest grid point of `n` significant digits, and of two the even one. -/
def gridNearest (r : Ratio) (n : Nat) : Decimal :=
  ⟨(r.scaleDown (r.gridPower n)).roundHalfEven, r.gridPower n⟩

end Ratio

namespace Decimal

/-- The first decimal that passes the test among the candidates for one digit, two digits and so
on up to `limit` digits. -/
def search (limit : Nat) (candidates : Nat → List Decimal) (test : Decimal → Bool) :
    Option Decimal :=
  (List.range' 1 limit).findSome? fun n => (candidates n).find? test

end Decimal

namespace Magnitude

/-- All decimal digits of a magnitude. -/
def exactDecimal {F : Format} (m : Magnitude F) : Decimal :=
  ⟨m.units * Nat.pow 5 F.unitPlaces, -F.unitPlaces⟩

/-- Whether a decimal reads back as a number of type `double`. -/
def readsBackDouble (m : Magnitude Format.double) (d : Decimal) : Bool :=
  Binary.ofDecimal Format.double false d = .finite false m

/-- Whether a decimal reads back as a number of type `float`, by way of `double`. -/
def readsBackSingle (m : Magnitude Format.single) (d : Decimal) : Bool :=
  (Binary.ofDecimal Format.double false d).convert Format.single = .finite false m

/-- The shortest decimal that reads back as a number of type `double`. -/
def shortestDouble (m : Magnitude Format.double) : Decimal :=
  let r := m.toRatio
  (Decimal.search 17 (fun n => [r.gridNearest n, r.gridBelow n, r.gridAbove n])
    m.readsBackDouble).getD m.exactDecimal

/-- The decimal that shows a number of type `float`. Nine digits always read back, so there always
is one among the candidates, and the decimal that stands for the opposite case is never shown. -/
def shortestSingle (m : Magnitude Format.single) : Decimal :=
  (Decimal.search 9 (fun n => [m.toRatio.gridNearest n]) m.readsBackSingle).getD m.exactDecimal

end Magnitude

end LineShell
