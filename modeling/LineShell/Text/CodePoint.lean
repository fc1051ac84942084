/-!
# Code points and text

Source text, variable names, string values and everything the shell prints are lists of code
points. A code point is any number below `0x110000`. Surrogates are included, because an escape
such as `\uD83D` in a string literal denotes that single code point and never half of a pair, so
`Char`, which leaves surrogates out, is too small.

String and character literals are read as text where text is expected, so messages can be written
as `"Variable " ++ name ++ " does not exist"`.
-/

namespace LineShell

/-- A number that Unicode reserves for a character, surrogates included. -/
structure CodePoint where
  /-- The number of the code point. -/
  val : Nat
  /-- Code points end below `0x110000`. -/
  val_lt : val < 0x110000
deriving DecidableEq

namespace CodePoint

/-- The code point of a character. -/
def ofChar (c : Char) : CodePoint where
  val := c.toNat
  val_lt := by
    have h := c.valid
    simp only [UInt32.isValidChar, Nat.isValidChar] at h
    have : c.toNat = c.val.toNat := rfl
    omega

instance : Coe Char CodePoint := ⟨ofChar⟩

@[simp] theorem val_ofChar (c : Char) : (ofChar c).val = c.toNat := rfl

/-- Code points are equal when their numbers are. -/
theorem ext_val {a b : CodePoint} (h : a.val = b.val) : a = b := by
  cases a
  cases b
  simp_all

/-- Different characters have different code points. -/
theorem ofChar_injective {a b : Char} (h : ofChar a = ofChar b) : a = b := by
  have hv : a.toNat = b.toNat := congrArg CodePoint.val h
  exact Char.toNat_inj.mp hv

/-- Whether the number lies in the closed range from `low` to `high`. -/
def within (low high : Nat) (c : CodePoint) : Bool :=
  low ≤ c.val && c.val ≤ high

theorem within_iff {low high : Nat} {c : CodePoint} :
    c.within low high = true ↔ low ≤ c.val ∧ c.val ≤ high := by
  simp [within]

/-- Surrogates are the code points that belong to no character. -/
def isSurrogate (c : CodePoint) : Bool :=
  c.within 0xD800 0xDFFF

/-- The character of a code point, with the replacement character standing in for a surrogate. -/
def toChar (c : CodePoint) : Char :=
  if c.isSurrogate then '\uFFFD' else Char.ofNat c.val

end CodePoint

/-- A sequence of code points. -/
abbrev Text := List CodePoint

namespace Text

/-- The code points of a string. -/
def ofString (s : String) : Text :=
  s.toList.map CodePoint.ofChar

instance : Coe String Text := ⟨ofString⟩

/-- The text as a string, for a terminal that cannot show surrogates. -/
def toString (t : Text) : String :=
  String.ofList (t.map CodePoint.toChar)

/-- The texts one after the other with `sep` between neighbours. -/
def joined (sep : Text) : List Text → Text
  | [] => []
  | [t] => t
  | t :: u :: rest => t ++ sep ++ joined sep (u :: rest)

end Text

end LineShell
