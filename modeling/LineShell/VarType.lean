import LineShell.Value

/-!
# Types of variables

Eleven type names can be declared. A boxed name, such as `Integer`, has the values of its plain
partner.
-/

namespace LineShell

/-- The types a variable can be declared with. -/
inductive VarType where
  | int | long | boolean | double | float | string
  | boxedInt | boxedLong | boxedBoolean | boxedDouble | boxedFloat
deriving DecidableEq

namespace VarType

/-- The name of a type. -/
def name : VarType → Text
  | int => "int"
  | long => "long"
  | boolean => "boolean"
  | double => "double"
  | float => "float"
  | string => "String"
  | boxedInt => "Integer"
  | boxedLong => "Long"
  | boxedBoolean => "Boolean"
  | boxedDouble => "Double"
  | boxedFloat => "Float"

/-- The kind of values of a type. -/
def tag : VarType → Tag
  | int | boxedInt => .int32
  | long | boxedLong => .int64
  | boolean | boxedBoolean => .bool
  | double | boxedDouble => .float64
  | float | boxedFloat => .float32
  | string => .str

/-- Every type, in the order in which they are listed to the user. -/
def all : List VarType :=
  [int, long, boolean, double, float, string, boxedInt, boxedLong, boxedBoolean, boxedDouble,
   boxedFloat]

/-- The type with a given name. -/
def ofName? (name : Text) : Option VarType :=
  all.find? fun type => type.name = name

theorem mem_all (type : VarType) : type ∈ all := by
  cases type <;> decide

/-- Every type is found by its name. -/
theorem ofName?_name (type : VarType) : ofName? type.name = some type := by
  cases type <;> decide +kernel

/-- A type that is found has the name it was looked up by. -/
theorem name_of_ofName? {name : Text} {type : VarType} (h : ofName? name = some type) :
    type.name = name := by
  have := List.find?_some h
  simpa using this

end VarType

end LineShell
