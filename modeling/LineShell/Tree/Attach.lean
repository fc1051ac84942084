import LineShell.Tree

/-!
# Precedence

A chain of operands and binary operators is read from left to right. Each step attaches one more
operator and operand to the tree of the chain so far: the new operation takes over the right-hand
end of the tree up to the first operator that binds less tightly.
-/

namespace LineShell

/-- The tree of a chain that goes on with `op` and the operand `right`. -/
def Expr.attach (left : Expr) (op : BinaryOp) (right : Expr) : Expr :=
  match left with
  | .binary o l r =>
    if o.precedence < op.precedence then .binary o l (r.attach op right)
    else .binary op (.binary o l r) right
  | e => .binary op e right

/-- An operator that binds no more tightly than the root takes the whole tree as its left
operand. -/
theorem Expr.attach_of_le {o op : BinaryOp} {l r right : Expr}
    (h : op.precedence ≤ o.precedence) :
    (Expr.binary o l r).attach op right = .binary op (.binary o l r) right := by
  simp [attach, Nat.not_lt.mpr h]

/-- An operator that binds more tightly than the root goes to the right operand. -/
theorem Expr.attach_of_lt {o op : BinaryOp} {l r right : Expr}
    (h : o.precedence < op.precedence) :
    (Expr.binary o l r).attach op right = .binary o l (r.attach op right) := by
  simp [attach, h]

end LineShell
