import LineShell.Decimal.Layout

/-!
# Values

A value is an integer of 32 or 64 bits, a truth value, a floating number of either format, or a
text. Its display is the text that is shown to the user, and the text from which the store builds
the value of a variable.
-/

namespace LineShell

/-- The kinds of values. -/
inductive Tag where
  | int32 | int64 | bool | float32 | float64 | str
deriving DecidableEq

/-- The name of a kind of values in messages. -/
def Tag.name : Tag → Text
  | .int32 => "Int32"
  | .int64 => "Int64"
  | .bool => "Bool"
  | .float32 => "Float32"
  | .float64 => "Float64"
  | .str => "Str"

/-- What variables hold and expressions yield. -/
inductive Value where
  | int32 (n : Int32)
  | int64 (n : Int64)
  | bool (b : Bool)
  | float32 (x : Binary Format.single)
  | float64 (x : Binary Format.double)
  | str (t : Text)
deriving DecidableEq

namespace Value

/-- The kind of a value. -/
def tag : Value → Tag
  | int32 _ => .int32
  | int64 _ => .int64
  | bool _ => .bool
  | float32 _ => .float32
  | float64 _ => .float64
  | str _ => .str

/-- The text of a value. -/
def display : Value → Text
  | int32 n => Text.ofInt n.toInt
  | int64 n => Text.ofInt n.toInt
  | bool b => if b then "true" else "false"
  | float32 x => x.displaySingle
  | float64 x => x.displayDouble
  | str t => t

end Value

end LineShell
