import LineShell.Operator

/-!
# Symbols

The lexemes made of punctuation. `Symbol.longestFirst` lists every symbol so that no symbol stands
behind one of its proper beginnings; the first entry that starts a text is therefore the longest
symbol that does.
-/

namespace LineShell

/-- Operators and punctuation. The signs `-` and `+` are binary operators here; the grammar
decides when they stand in front of an operand. -/
inductive Symbol where
  | binary (op : BinaryOp)
  | assign (op : AssignOp)
  | bang
  | tilde
  | question
  | colon
  | leftParen
  | rightParen
  | leftBrace
  | rightBrace
  | comma
  | dot
  | semicolon
deriving DecidableEq

namespace Symbol

/-- The spelling of a symbol. -/
def text : Symbol → Text
  | binary op => op.text
  | assign op => op.text
  | bang => "!"
  | tilde => "~"
  | question => "?"
  | colon => ":"
  | leftParen => "("
  | rightParen => ")"
  | leftBrace => "\x7b"
  | rightBrace => "\x7d"
  | comma => ","
  | dot => "."
  | semicolon => ";"

/-- The name of a symbol in messages. -/
def name : Symbol → Text
  | binary .add => "plus"
  | binary .sub => "minus"
  | binary .mul => "star"
  | binary .div => "slash"
  | binary .rem => "percent"
  | binary .shiftLeft => "shl"
  | binary .shiftRight => "shr"
  | binary .shiftRightUnsigned => "ushr"
  | binary .eq => "eq"
  | binary .ne => "ne"
  | binary .lt => "lt"
  | binary .gt => "gt"
  | binary .le => "le"
  | binary .ge => "ge"
  | binary .bitAnd => "amp"
  | binary .bitOr => "pipe"
  | binary .bitXor => "caret"
  | binary .and => "and_and"
  | binary .or => "or_or"
  | assign .set => "assign"
  | assign .add => "plus_assign"
  | assign .sub => "minus_assign"
  | assign .mul => "star_assign"
  | assign .div => "slash_assign"
  | assign .rem => "percent_assign"
  | assign .bitAnd => "amp_assign"
  | assign .bitOr => "pipe_assign"
  | assign .bitXor => "caret_assign"
  | assign .shiftLeft => "shl_assign"
  | assign .shiftRight => "shr_assign"
  | assign .shiftRightUnsigned => "ushr_assign"
  | bang => "bang"
  | tilde => "tilde"
  | question => "question"
  | colon => "colon"
  | leftParen => "lparen"
  | rightParen => "rparen"
  | leftBrace => "lbrace"
  | rightBrace => "rbrace"
  | comma => "comma"
  | dot => "dot"
  | semicolon => "semicolon"

/-- The unary operator that a symbol spells in front of an operand. -/
def unary? : Symbol → Option UnaryOp
  | binary .sub => some .neg
  | binary .add => some .plus
  | bang => some .not
  | tilde => some .complement
  | _ => none

/-- The symbol that spells a unary operator. -/
def ofUnary : UnaryOp → Symbol
  | .neg => binary .sub
  | .plus => binary .add
  | .not => bang
  | .complement => tilde

/-- Every symbol, longer spellings first. -/
def longestFirst : List Symbol :=
  [assign .shiftRightUnsigned,
   assign .shiftLeft, assign .shiftRight, binary .shiftRightUnsigned,
   binary .eq, binary .ne, binary .le, binary .ge, binary .and, binary .or,
   assign .add, assign .sub, assign .mul, assign .div, assign .rem,
   assign .bitAnd, assign .bitOr, assign .bitXor, binary .shiftLeft, binary .shiftRight,
   binary .add, binary .sub, binary .mul, binary .div, binary .rem, binary .lt, binary .gt,
   assign .set, bang, tilde, binary .bitAnd, binary .bitOr, binary .bitXor,
   question, colon, leftParen, rightParen, leftBrace, rightBrace, comma, dot, semicolon]

/-- The longest symbol that starts the text. -/
def startOf? (t : Text) : Option Symbol :=
  longestFirst.find? fun s => s.text.isPrefixOf t

theorem mem_longestFirst (s : Symbol) : s ∈ longestFirst := by
  cases s with
  | binary op => cases op <;> decide
  | assign op => cases op <;> decide
  | _ => decide

theorem text_ne_nil (s : Symbol) : s.text ≠ [] := by
  cases s with
  | binary op => cases op <;> decide
  | assign op => cases op <;> decide
  | _ => decide

theorem unary?_ofUnary (op : UnaryOp) : (ofUnary op).unary? = some op := by
  cases op <;> rfl

theorem text_ofUnary (op : UnaryOp) : (ofUnary op).text = op.text := by
  cases op <;> rfl

/-- Along `longestFirst` spellings never get longer. -/
theorem pairwise_longestFirst :
    longestFirst.Pairwise fun s t => t.text.length ≤ s.text.length := by
  decide +kernel

end Symbol

end LineShell
