import LineShell.Text.Digit
import LineShell.Tree
import Mathlib.Data.List.Basic
import Mathlib.Tactic.Lemma

/-!
# Trees whose rendering is read as something else

Two kinds of expression drift when they are rendered and read again. A floating number of kind
`double` loses its suffix, so that one of digits only comes back as an integer; and an integer in
front of a call takes the dot of the call for its own point. `Expr.parts` lists every expression in
a tree, and a tree is steady if none of them drifts.
-/

namespace LineShell

/-! ## Parts of a tree -/

mutual

/-- The expression and all expressions in it. -/
def Expr.parts (e : Expr) : List Expr :=
  e :: match e with
  | .literal _ | .name _ | .declareBare .. => []
  | .binary _ left right => left.parts ++ right.parts
  | .unary _ operand => operand.parts
  | .enclosed inner => inner.parts
  | .conditional condition thenExpr elseExpr =>
    condition.parts ++ thenExpr.parts ++ elseExpr.parts
  | .call _ args => Expr.listParts args
  | .scopedCall scope _ args => scope.parts ++ Expr.listParts args
  | .assign target _ value => target.parts ++ value.parts
  | .declare _ _ initializer => initializer.parts

/-- All expressions in a list of expressions. -/
def Expr.listParts : List Expr → List Expr
  | [] => []
  | e :: rest => e.parts ++ Expr.listParts rest

end

mutual

/-- All expressions in a statement. -/
def Stmt.parts : Stmt → List Expr
  | .expr e => e.parts
  | .block body => Stmt.listParts body
  | .ifThen condition thenStmt => condition.parts ++ thenStmt.parts
  | .ifElse condition thenStmt elseStmt =>
    condition.parts ++ thenStmt.parts ++ elseStmt.parts
  | .whileLoop condition body => condition.parts ++ body.parts
  | .returnVoid | .empty => []
  | .returnValue value => value.parts

/-- All expressions in a list of statements. -/
def Stmt.listParts : List Stmt → List Expr
  | [] => []
  | s :: rest => s.parts ++ Stmt.listParts rest

end

/-- The expressions whose rendering is read as something else: a `double` of digits only, and a
call on an integer. -/
def Expr.Drifts : Expr → Prop
  | .literal ⟨.double, t⟩ => ∀ c ∈ t, c.isDigit = true
  | .scopedCall (.literal ⟨.int, _⟩) _ _ => True
  | _ => False

/-- Nothing in the expression drifts. -/
def Expr.Steady (e : Expr) : Prop :=
  ∀ p ∈ e.parts, ¬ p.Drifts

/-- Nothing in the statement drifts. -/
def Stmt.Steady (s : Stmt) : Prop :=
  ∀ p ∈ s.parts, ¬ p.Drifts

/-! ## Steady trees, form by form -/

attribute [local simp] Expr.parts Expr.listParts Expr.Drifts Stmt.listParts

namespace Expr

/-- A list of expressions is steady if each of them is. -/
lemma forall_listParts_iff {args : List Expr} :
    (∀ p ∈ listParts args, ¬ p.Drifts) ↔ ∀ a ∈ args, a.Steady := by
  induction args with
  | nil => simp
  | cons a args ih => rw [listParts, List.forall_mem_append, List.forall_mem_cons, ih, Steady]

lemma steady_binary_iff {op : BinaryOp} {left right : Expr} :
    (binary op left right).Steady ↔ left.Steady ∧ right.Steady := by
  simp [Steady, or_imp, forall_and]

lemma steady_unary_iff {op : UnaryOp} {operand : Expr} :
    (unary op operand).Steady ↔ operand.Steady := by
  simp [Steady]

lemma steady_enclosed_iff {inner : Expr} : (enclosed inner).Steady ↔ inner.Steady := by
  simp [Steady]

lemma steady_conditional_iff {condition thenExpr elseExpr : Expr} :
    (conditional condition thenExpr elseExpr).Steady ↔
      condition.Steady ∧ thenExpr.Steady ∧ elseExpr.Steady := by
  simp [Steady, or_imp, forall_and]

lemma steady_call_iff {f : Text} {args : List Expr} :
    (call f args).Steady ↔ ∀ a ∈ args, a.Steady := by
  rw [Steady, parts, List.forall_mem_cons, forall_listParts_iff]
  simp

/-- A call on an integer is never steady. -/
lemma steady_scopedCall_iff {scope : Expr} {f : Text} {args : List Expr} :
    (scopedCall scope f args).Steady ↔
      (∀ t, scope ≠ .literal ⟨.int, t⟩) ∧ scope.Steady ∧ ∀ a ∈ args, a.Steady := by
  have hdrifts : (scopedCall scope f args).Drifts ↔ ∃ t, scope = .literal ⟨.int, t⟩ := by
    unfold Drifts
    split <;> simp_all
  rw [Steady, parts, List.forall_mem_cons, List.forall_mem_append, forall_listParts_iff, hdrifts,
    not_exists]
  rfl

lemma steady_assign_iff {target : Expr} {op : AssignOp} {value : Expr} :
    (assign target op value).Steady ↔ target.Steady ∧ value.Steady := by
  simp [Steady, or_imp, forall_and]

lemma steady_name (x : Text) : (name x).Steady := by
  simp [Steady]

lemma steady_literal_iff {l : Literal} : (literal l).Steady ↔ ¬ (literal l).Drifts := by
  simp [Steady]

end Expr

/-- A list of statements is steady if each of them is. -/
lemma Stmt.forall_listParts_iff {body : List Stmt} :
    (∀ p ∈ listParts body, ¬ p.Drifts) ↔ ∀ s ∈ body, s.Steady := by
  induction body with
  | nil => simp
  | cons s body ih => rw [listParts, List.forall_mem_append, List.forall_mem_cons, ih, Steady]

end LineShell
