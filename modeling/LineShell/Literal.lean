import LineShell.Text.CodePoint

/-!
# Literals

A literal is kept as its kind and its text. The text of a number holds the digits without the
type suffix, the text of a string or character holds the decoded contents, and the text of the
keyword literals is the keyword. Nothing here checks that the text fits the kind.
-/

namespace LineShell

/-- The source form of a literal. -/
inductive LiteralKind where
  | int | long | float | double | char | string | boolean | null
deriving DecidableEq

/-- A literal as written, without quotes and suffix. -/
structure Literal where
  /-- The source form. -/
  kind : LiteralKind
  /-- The text without quotes and suffix. -/
  text : Text
deriving DecidableEq

/-- The name of a kind of literal. -/
def LiteralKind.name : LiteralKind → Text
  | .int => "int"
  | .long => "long"
  | .float => "float"
  | .double => "double"
  | .char => "char"
  | .string => "string"
  | .boolean => "boolean"
  | .null => "null"

/-- Every kind of literal. -/
def LiteralKind.all : List LiteralKind :=
  [.int, .long, .float, .double, .char, .string, .boolean, .null]

/-- The text with a backslash in front of every backslash and every `quote`. -/
def Text.escaped (quote : CodePoint) (t : Text) : Text :=
  t.flatMap fun (c : CodePoint) => if c = '\\' ∨ c = quote then ['\\', c] else [c]

/-- The literal as source text. Numbers of the default kinds carry no suffix. -/
def Literal.render (l : Literal) : Text :=
  match l.kind with
  | .string => "\"" ++ l.text.escaped '"' ++ "\""
  | .char => "'" ++ l.text.escaped '\'' ++ "'"
  | .long => l.text ++ "L"
  | .float => l.text ++ "f"
  | .int | .double | .boolean | .null => l.text

end LineShell
