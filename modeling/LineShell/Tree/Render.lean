import LineShell.Tree

/-!
# Trees as source text

One space stands around binary operators and assignments, none between a unary operator and its
operand. Arguments are separated by a comma and a space, statements of a block by a space.
-/

namespace LineShell

mutual

/-- The expression as source text. -/
def Expr.render : Expr → Text
  | .literal l => l.render
  | .name x => x
  | .binary op left right => left.render ++ " " ++ op.text ++ " " ++ right.render
  | .unary op operand => op.text ++ operand.render
  | .enclosed inner => "(" ++ inner.render ++ ")"
  | .conditional condition thenExpr elseExpr =>
    condition.render ++ " ? " ++ thenExpr.render ++ " : " ++ elseExpr.render
  | .call f args => f ++ "(" ++ Text.joined ", " (Expr.renderAll args) ++ ")"
  | .scopedCall scope f args =>
    scope.render ++ "." ++ f ++ "(" ++ Text.joined ", " (Expr.renderAll args) ++ ")"
  | .assign target op value => target.render ++ " " ++ op.text ++ " " ++ value.render
  | .declare type x initializer =>
    type ++ " " ++ x ++ " = " ++ initializer.render
  | .declareBare type x => type ++ " " ++ x

/-- Each expression of a list as source text. -/
def Expr.renderAll : List Expr → List Text
  | [] => []
  | e :: rest => e.render :: Expr.renderAll rest

end

mutual

/-- The statement as source text. -/
def Stmt.render : Stmt → Text
  | .expr e => e.render ++ ";"
  | .block body => "\x7b " ++ Text.joined " " (Stmt.renderAll body) ++ " \x7d"
  | .ifThen condition thenStmt => "if (" ++ condition.render ++ ") " ++ thenStmt.render
  | .ifElse condition thenStmt elseStmt =>
    "if (" ++ condition.render ++ ") " ++ thenStmt.render ++ " else " ++ elseStmt.render
  | .whileLoop condition body => "while (" ++ condition.render ++ ") " ++ body.render
  | .returnVoid => "return;"
  | .returnValue value => "return " ++ value.render ++ ";"
  | .empty => ";"

/-- Each statement of a list as source text. -/
def Stmt.renderAll : List Stmt → List Text
  | [] => []
  | s :: rest => s.render :: Stmt.renderAll rest

end

/-- The node as source text. -/
def Node.render : Node → Text
  | .expr e => e.render
  | .stmt s => s.render

theorem Expr.renderAll_eq_map (args : List Expr) : renderAll args = args.map render := by
  induction args with
  | nil => simp [renderAll]
  | cons e rest ih => simp [renderAll, ih]

theorem Stmt.renderAll_eq_map (body : List Stmt) : renderAll body = body.map render := by
  induction body with
  | nil => simp [renderAll]
  | cons s rest ih => simp [renderAll, ih]

end LineShell
