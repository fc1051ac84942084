import LineShell.Fault
import LineShell.Numeral
import LineShell.Text.Blank
import LineShell.VarType

/-!
# Values from text

`Tag.coerce` reads a text as a value of a given kind.

* An integer is an optional sign and decimal digits, within the range of its kind. More than
  4300 digits are a fault, whatever they denote.
* A truth value is `true` or `false`.
* A floating number may stand between blanks. It is an optional sign and `NaN`, `Infinity` or a
  numeral with an optional suffix. The whole text is parted at the suffix, the mark of the exponent
  and the point (`Coercion.numeral?`). It is read as a `double`; a `float` is rounded from that.
* Every text is a value of kind `str`.
-/

namespace LineShell

/-- Why a text is no value of a kind. -/
inductive CoercionError where
  /-- The text has the wrong form. -/
  | malformed (tag : Tag) (text : Text)
  /-- The text denotes an integer outside the range. -/
  | outOfRange (tag : Tag) (text : Text)
deriving DecidableEq

namespace CoercionError

/-- What kind of input a message speaks of. -/
def inputName : Tag → Text
  | .int32 => "int"
  | .int64 => "long"
  | .bool => "boolean"
  | .float32 => "float"
  | .float64 => "double"
  | .str => "String"

/-- Why the text was refused. -/
def reason : CoercionError → Text
  | malformed .bool _ => "expected true or false"
  | malformed tag _ => "not a valid " ++ inputName tag
  | outOfRange tag _ => "out of range for " ++ inputName tag

/-- The refused text, as it was given. -/
def input : CoercionError → Text
  | malformed _ text => text
  | outOfRange _ text => text

/-- The text shown to the user. -/
def message (e : CoercionError) : Text :=
  "For input string: \"" ++ e.input ++ "\" (" ++ e.reason ++ ")"

end CoercionError

namespace Coercion

/-- The greatest number of digits of an integer. -/
def digitLimit : Nat := 4300

/-- Splits an integer into whether it is negative and its digits. -/
def integerParts? (t : Text) : Option (Bool × Text) :=
  let (sign, digits) := Numeral.scanSign t
  if digits ≠ [] ∧ digits.all CodePoint.isDigit then
    some (sign = some ('-' : CodePoint), digits)
  else none

/-- The integer with a sign and digits. -/
def signed (negative : Bool) (digits : Text) : Int :=
  if negative then -(Text.natOfDigits digits : Int) else Text.natOfDigits digits

/-- Reads an integer of kind `tag` between `low` and `high`. -/
def integer (tag : Tag) (low high : Int) (t : Text) : Except (Failure CoercionError) Int :=
  match integerParts? t with
  | none => .error (.error (.malformed tag t))
  | some (negative, digits) =>
    if digitLimit < digits.length then .error (.fault (.integerTooLong digits.length))
    else
      let n := signed negative digits
      if low ≤ n ∧ n ≤ high then .ok n else .error (.error (.outOfRange tag t))

/-- Reads a truth value. -/
def boolean (t : Text) : Except (Failure CoercionError) Bool :=
  if t = "true" then .ok true
  else if t = "false" then .ok false
  else .error (.error (.malformed .bool t))

/-- Whether the code point starts an exponent. -/
def isExponentMark (c : CodePoint) : Bool :=
  c = 'e' || c = 'E'

/-- Reads digits with a point before, among or behind them, or without one. The result is what
stands before the point and what stands behind it. -/
def mantissa? (t : Text) : Option (Text × Option Text) :=
  let whole := t.takeWhile fun c => c ≠ ('.' : CodePoint)
  let fraction := (t.dropWhile fun c => c ≠ ('.' : CodePoint)).tail?
  let digits := whole ++ fraction.getD []
  if digits ≠ [] ∧ digits.all CodePoint.isDigit then some (whole, fraction) else none

/-- Reads an exponent, given what stands behind its mark: a possible sign and digits. -/
def exponent? (mark : CodePoint) (t : Text) : Option Exponent :=
  let (sign, digits) := Numeral.scanSign t
  if digits ≠ [] ∧ digits.all CodePoint.isDigit then some ⟨mark, sign, digits⟩ else none

/-- Reads a whole text as an unsigned numeral. The exponent goes from the first mark to the end. -/
def numeral? (t : Text) : Option Numeral :=
  match mantissa? (t.takeWhile fun c => !isExponentMark c),
      t.dropWhile fun c => !isExponentMark c with
  | none, _ => none
  | some (whole, fraction), [] => some ⟨whole, fraction, none⟩
  | some (whole, fraction), mark :: rest =>
    (exponent? mark rest).map fun e => ⟨whole, fraction, some e⟩

/-- Whether the code point can be the suffix of a floating number. -/
def isSuffix (c : CodePoint) : Bool :=
  c = 'f' || c = 'F' || c = 'd' || c = 'D'

/-- The text without the suffix at its end, if there is one. -/
def withoutSuffix (t : Text) : Text :=
  if t.getLast?.any isSuffix then t.dropLast else t

/-- Reads a floating number without blanks around it. -/
def floating? (t : Text) : Option (Binary Format.double) :=
  let (sign, body) := Numeral.scanSign t
  let negative : Bool := sign = some ('-' : CodePoint)
  if body = "NaN" then some .nan
  else if body = "Infinity" then some (.infinite negative)
  else
    (numeral? (withoutSuffix body)).map fun n =>
      Binary.ofDecimal Format.double negative ⟨n.coefficient, n.power⟩

/-- Reads a floating number of kind `tag`. -/
def floating (tag : Tag) (t : Text) : Except (Failure CoercionError) (Binary Format.double) :=
  match floating? t.trim with
  | some x => .ok x
  | none => .error (.error (.malformed tag t))

end Coercion

/-- Reads a text as a value of a kind. -/
def Tag.coerce (tag : Tag) (t : Text) : Except (Failure CoercionError) Value :=
  match tag with
  | .int32 => (Coercion.integer .int32 (-2147483648) 2147483647 t).map fun n => .int32 (.ofInt n)
  | .int64 =>
    (Coercion.integer .int64 (-9223372036854775808) 9223372036854775807 t).map fun n =>
      .int64 (.ofInt n)
  | .bool => (Coercion.boolean t).map .bool
  | .float32 => (Coercion.floating .float32 t).map fun x => .float32 (x.convert Format.single)
  | .float64 => (Coercion.floating .float64 t).map .float64
  | .str => .ok (.str t)

/-- A text read as a kind gives a value of that kind. -/
theorem Tag.tag_of_coerce {tag : Tag} {t : Text} {v : Value} (h : tag.coerce t = .ok v) :
    v.tag = tag := by
  cases tag with
  | str =>
    cases h
    rfl
  | _ =>
    simp only [coerce, Except.map] at h
    split at h
    · contradiction
    · cases h
      rfl

end LineShell
