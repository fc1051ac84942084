import LineShell.Text.CodePoint

/-!
# Operators

The binary, unary and assignment operators of the source language, their spelling and the
precedence of the binary ones. All binary operators associate to the left.
-/

namespace LineShell

/-- Operators between two operands. -/
inductive BinaryOp where
  | add | sub | mul | div | rem
  | shiftLeft | shiftRight | shiftRightUnsigned
  | eq | ne | lt | gt | le | ge
  | bitAnd | bitOr | bitXor
  | and | or
deriving DecidableEq

/-- Operators in front of their operand. -/
inductive UnaryOp where
  | neg | plus | not | complement
deriving DecidableEq

/-- Plain assignment, and assignment combined with a binary operator. -/
inductive AssignOp where
  | set
  | add | sub | mul | div | rem
  | bitAnd | bitOr | bitXor
  | shiftLeft | shiftRight | shiftRightUnsigned
deriving DecidableEq

/-- The spelling of a binary operator. -/
def BinaryOp.text : BinaryOp → Text
  | .add => "+"
  | .sub => "-"
  | .mul => "*"
  | .div => "/"
  | .rem => "%"
  | .shiftLeft => "<<"
  | .shiftRight => ">>"
  | .shiftRightUnsigned => ">>>"
  | .eq => "=="
  | .ne => "!="
  | .lt => "<"
  | .gt => ">"
  | .le => "<="
  | .ge => ">="
  | .bitAnd => "&"
  | .bitOr => "|"
  | .bitXor => "^"
  | .and => "&&"
  | .or => "||"

/-- How tightly a binary operator binds: from `0` for `||` to `9` for `*`, `/` and `%`. -/
def BinaryOp.precedence : BinaryOp → Nat
  | .or => 0
  | .and => 1
  | .bitOr => 2
  | .bitXor => 3
  | .bitAnd => 4
  | .eq | .ne => 5
  | .lt | .gt | .le | .ge => 6
  | .shiftLeft | .shiftRight | .shiftRightUnsigned => 7
  | .add | .sub => 8
  | .mul | .div | .rem => 9

/-- The number of precedence levels. -/
def BinaryOp.levels : Nat := 10

theorem BinaryOp.precedence_lt_levels (op : BinaryOp) : op.precedence < levels := by
  cases op <;> decide

/-- The spelling of a unary operator. -/
def UnaryOp.text : UnaryOp → Text
  | .neg => "-"
  | .plus => "+"
  | .not => "!"
  | .complement => "~"

/-- The spelling of an assignment operator. -/
def AssignOp.text : AssignOp → Text
  | .set => "="
  | .add => "+="
  | .sub => "-="
  | .mul => "*="
  | .div => "/="
  | .rem => "%="
  | .bitAnd => "&="
  | .bitOr => "|="
  | .bitXor => "^="
  | .shiftLeft => "<<="
  | .shiftRight => ">>="
  | .shiftRightUnsigned => ">>>="

/-- Every binary operator. -/
def BinaryOp.all : List BinaryOp :=
  [.add, .sub, .mul, .div, .rem, .shiftLeft, .shiftRight, .shiftRightUnsigned, .eq, .ne, .lt, .gt,
   .le, .ge, .bitAnd, .bitOr, .bitXor, .and, .or]

/-- Every unary operator. -/
def UnaryOp.all : List UnaryOp :=
  [.neg, .plus, .not, .complement]

/-- Every assignment operator. -/
def AssignOp.all : List AssignOp :=
  [.set, .add, .sub, .mul, .div, .rem, .bitAnd, .bitOr, .bitXor, .shiftLeft, .shiftRight,
   .shiftRightUnsigned]

theorem BinaryOp.mem_all (op : BinaryOp) : op ∈ all := by
  cases op <;> decide

theorem UnaryOp.mem_all (op : UnaryOp) : op ∈ all := by
  cases op <;> decide

theorem AssignOp.mem_all (op : AssignOp) : op ∈ all := by
  cases op <;> decide

end LineShell
