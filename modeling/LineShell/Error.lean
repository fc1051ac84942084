import LineShell.Coercion
import LineShell.Tree.Render

/-!
# Errors of evaluation

What can go wrong with a parsed line, grouped into kinds, and how the user is told.
-/

namespace LineShell

/-- The kinds of errors that a line can end in. -/
inductive ErrorKind where
  | duplicateName
  | unknownType
  | undefinedVariable
  | coercion
  | unsupportedLiteral
  | unsupportedOperand
  | unsupportedOperandTypes
  | unsupportedOperator
  | unsupportedAssignment
  | unsupportedStatement
  | syntactic
deriving DecidableEq

/-- The name of a kind of errors. -/
def ErrorKind.name : ErrorKind → Text
  | .duplicateName => "DuplicateName"
  | .unknownType => "UnknownType"
  | .undefinedVariable => "UndefinedVariable"
  | .coercion => "CoercionError"
  | .unsupportedLiteral => "UnsupportedLiteral"
  | .unsupportedOperand => "UnsupportedOperand"
  | .unsupportedOperandTypes => "UnsupportedOperandTypes"
  | .unsupportedOperator => "UnsupportedOperator"
  | .unsupportedAssignment => "UnsupportedAssignmentOperator"
  | .unsupportedStatement => "UnsupportedStatement"
  | .syntactic => "ParseError"

/-- Why evaluation has no value. -/
inductive EvalError where
  /-- A variable is declared a second time. -/
  | duplicateName (x : Text)
  /-- There is no type of this name. -/
  | unknownType (type : Text)
  /-- There is no variable of this name. -/
  | undefinedVariable (x : Text)
  /-- A text is no value of the wanted kind. -/
  | coercion (e : CoercionError)
  /-- Literals of this kind have no value. -/
  | unsupportedLiteral (l : Literal)
  /-- Only literals and variables can be operands. -/
  | unsupportedOperand (e : Expr)
  /-- The operator does not take operands of these kinds. -/
  | operandTypes (op : BinaryOp) (left right : Tag)
  /-- The operator cannot be evaluated. -/
  | unsupportedOperator (op : BinaryOp)
  /-- Only plain assignment can be evaluated. -/
  | unsupportedAssignment (op : AssignOp)
  /-- A declaration has no initializer. -/
  | missingInitializer (type x : Text)
  /-- Only a variable can be assigned to. -/
  | invalidTarget (target : Expr)
  /-- Nodes of this kind have no value. -/
  | unsupportedNode (node : Node)

namespace EvalError

/-- The kind of an error. -/
def kind : EvalError → ErrorKind
  | duplicateName _ => .duplicateName
  | unknownType _ => .unknownType
  | undefinedVariable _ => .undefinedVariable
  | coercion _ => .coercion
  | unsupportedLiteral _ => .unsupportedLiteral
  | unsupportedOperand _ => .unsupportedOperand
  | operandTypes .. => .unsupportedOperandTypes
  | unsupportedOperator _ => .unsupportedOperator
  | unsupportedAssignment _ => .unsupportedAssignment
  | missingInitializer .. => .unsupportedStatement
  | invalidTarget _ => .unsupportedStatement
  | unsupportedNode _ => .unsupportedStatement

/-- The text shown to the user. -/
def message : EvalError → Text
  | duplicateName x => "Variable " ++ x ++ " already exists"
  | unknownType type => "Unsupported type: " ++ type
  | undefinedVariable x => "Variable " ++ x ++ " does not exist"
  | coercion e => e.message
  | unsupportedLiteral l =>
    "Unsupported literal: " ++ l.render ++ " (" ++ l.kind.name ++ " literal)"
  | unsupportedOperand e =>
    "Operand must be a literal or a variable, got " ++ e.label ++ ": " ++ e.render
  | operandTypes op left right =>
    "Operator " ++ op.text ++ " cannot be applied to " ++ left.name ++ " and " ++ right.name
  | unsupportedOperator op => "Unsupported operator: " ++ op.text
  | unsupportedAssignment op => "Cannot evaluate assignment operator " ++ op.text
  | missingInitializer type x =>
    "Variable declaration requires an initializer: " ++ (Expr.declareBare type x).render
  | invalidTarget target => "Cannot assign to " ++ target.label ++ ": " ++ target.render
  | unsupportedNode node => "Cannot evaluate " ++ node.label ++ ": " ++ node.render

end EvalError

end LineShell
