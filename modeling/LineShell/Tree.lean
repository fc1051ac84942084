import LineShell.Literal
import LineShell.Operator

/-!
# Syntax trees

The tree of one line of source. Trees cover more of the language than evaluation runs, so that
evaluation can refuse a construct by its kind. Parentheses are kept. A part that may be missing
(scope of a call, initializer, else-branch, returned value) gives two constructors.
-/

namespace LineShell

/-- Expressions. A declaration counts as one, because it can stand wherever a line can. -/
inductive Expr where
  /-- A literal. -/
  | literal (l : Literal)
  /-- A variable, possibly with dots in its name. -/
  | name (name : Text)
  /-- A binary operation. -/
  | binary (op : BinaryOp) (left right : Expr)
  /-- A unary operation. -/
  | unary (op : UnaryOp) (operand : Expr)
  /-- An expression in parentheses. -/
  | enclosed (inner : Expr)
  /-- A choice between two expressions. -/
  | conditional (condition thenExpr elseExpr : Expr)
  /-- A call without scope. -/
  | call (name : Text) (args : List Expr)
  /-- A call on the value of `scope`. -/
  | scopedCall (scope : Expr) (name : Text) (args : List Expr)
  /-- An assignment. -/
  | assign (target : Expr) (op : AssignOp) (value : Expr)
  /-- A declaration with an initializer. -/
  | declare (typeName name : Text) (initializer : Expr)
  /-- A declaration without an initializer. -/
  | declareBare (typeName name : Text)

/-- Statements. -/
inductive Stmt where
  /-- An expression followed by a semicolon. -/
  | expr (e : Expr)
  /-- Statements in braces. -/
  | block (body : List Stmt)
  /-- A choice without else-branch. -/
  | ifThen (condition : Expr) (thenStmt : Stmt)
  /-- A choice with else-branch. -/
  | ifElse (condition : Expr) (thenStmt elseStmt : Stmt)
  /-- A loop. -/
  | whileLoop (condition : Expr) (body : Stmt)
  /-- A return without value. -/
  | returnVoid
  /-- A return with a value. -/
  | returnValue (value : Expr)
  /-- A lone semicolon. -/
  | empty

/-- What evaluation is given: an expression or a statement. -/
inductive Node where
  | expr (e : Expr)
  | stmt (s : Stmt)

/-- The name of the kind of an expression in messages. -/
def Expr.label : Expr → Text
  | literal .. => "Literal"
  | name .. => "NameExpr"
  | binary .. => "BinaryExpr"
  | unary .. => "UnaryExpr"
  | enclosed .. => "EnclosedExpr"
  | conditional .. => "ConditionalExpr"
  | call .. => "MethodCallExpr"
  | scopedCall .. => "MethodCallExpr"
  | assign .. => "AssignExpr"
  | declare .. => "VariableDeclaration"
  | declareBare .. => "VariableDeclaration"

/-- The name of the kind of a statement in messages. -/
def Stmt.label : Stmt → Text
  | expr .. => "ExpressionStmt"
  | block .. => "BlockStmt"
  | ifThen .. => "IfStmt"
  | ifElse .. => "IfStmt"
  | whileLoop .. => "WhileStmt"
  | returnVoid => "ReturnStmt"
  | returnValue .. => "ReturnStmt"
  | empty => "EmptyStmt"

/-- The name of the kind of a node in messages. -/
def Node.label : Node → Text
  | expr e => e.label
  | stmt s => s.label

end LineShell
