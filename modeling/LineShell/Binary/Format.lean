/-!
# Binary floating formats

A format is described by the precision of its significands and by its unit, the least positive
number, which is a power of two. Every finite number of the format is a significand shifted by some
number of binary places, counted in units.
-/

namespace LineShell

/-- The shape of a binary floating format. -/
structure Format where
  /-- The number of binary digits of a significand. -/
  precision : Nat
  /-- The unit is `2 ^ -unitPlaces`. -/
  unitPlaces : Nat
  /-- The greatest shift of a significand. -/
  maxShift : Nat
  /-- Significands have at least one digit. -/
  precision_pos : 0 < precision

namespace Format

/-- The format of type `float`: 24 digits, unit `2 ^ -149`. -/
def single : Format := ⟨24, 149, 253, Nat.succ_pos 23⟩

/-- The format of type `double`: 53 digits, unit `2 ^ -1074`. -/
def double : Format := ⟨53, 1074, 2045, Nat.succ_pos 52⟩

end Format

end LineShell
