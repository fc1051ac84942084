import LineShell.Proofs.Tree.Grammar
import LineShell.Tree.Attach

/-!
# Chains of operators

A chain is read by attaching one operator and operand after the other (`Expr.attach`). Two facts
tie this to the grammar.

* Attaching keeps trees well formed and adds the operator and the operand to the lexemes
  (`WellFormed.attach`, `lexemes_attach`).
* Attaching the operators and operands of a tree one by one, as `graft` does, builds the tree
  again if it is well formed (`graft_eq_binary`).
-/

namespace LineShell

namespace Expr

/-! ## Attaching one operand -/

lemma lexemes_attach (left : Expr) (op : BinaryOp) (right : Expr) :
    (left.attach op right).lexemes = left.lexemes ++ .symbol (.binary op) :: right.lexemes := by
  fun_induction attach left op right with
  | case1 o l r h ih => simp [lexemes, ih]
  | case2 o l r h => simp [lexemes]
  | case3 e h => simp [lexemes]

/-- Attaching an operator gives a tree that is as tight as before, or as the operator. -/
lemma min_le_tightness_attach (left : Expr) (op : BinaryOp) (right : Expr) :
    min left.tightness (Grammar.level op + 2) ≤ (left.attach op right).tightness := by
  fun_induction attach left op right with
  | case1 o l r h ih => exact Nat.min_le_left _ _
  | case2 o l r h => exact Nat.min_le_right _ _
  | case3 e h => exact Nat.min_le_right _ _

lemma level_add_two_lt (op : BinaryOp) : Grammar.level op + 2 < unaryTightness :=
  Nat.add_lt_add_right (Grammar.level_lt op) 2

/-- What is no operation and binds at least as tightly as one is a whole operand. -/
lemma unaryTightness_le_of_ne_binary {e : Expr} (he : e.WellFormed) (htight : 2 ≤ e.tightness)
    (hne : ∀ o l r, e ≠ .binary o l r) : unaryTightness ≤ e.tightness := by
  cases he with
  | binary => exact absurd rfl (hne _ _ _)
  | conditional => simp [tightness] at htight
  | assign => simp [tightness] at htight
  | _ => simp [tightness]

/-- Attaching an operand to a well-formed chain gives a well-formed chain. -/
lemma WellFormed.attach {left right : Expr} {op : BinaryOp} (hleft : left.WellFormed)
    (hright : right.WellFormed) (left_le : 2 ≤ left.tightness)
    (right_le : unaryTightness ≤ right.tightness) : (left.attach op right).WellFormed := by
  have hop := level_add_two_lt op
  fun_induction Expr.attach left op right with
  | case1 o l r h ih =>
      rw [← Grammar.level_eq_precedence, ← Grammar.level_eq_precedence] at h
      cases hleft with
      | binary hl hr hle hlt =>
          have hmin := min_le_tightness_attach r op right
          exact .binary hl (ih hr (by omega)) hle (by omega)
  | case2 o l r h =>
      rw [← Grammar.level_eq_precedence, ← Grammar.level_eq_precedence] at h
      refine .binary hleft hright ?_ (by omega)
      simp only [tightness]
      omega
  | case3 e h =>
      have := unaryTightness_le_of_ne_binary hleft left_le h
      exact .binary hleft hright (by omega) (by omega)

/-! ## Attaching a whole tree -/

/-- Goes on with `op` and the chain of `right`, one operand after the other. -/
def graft (left : Expr) (op : BinaryOp) (right : Expr) : Expr :=
  match right with
  | .binary o l r => graft (graft left op l) o r
  | e => left.attach op e

lemma attach_of_le_tightness {left : Expr} {op : BinaryOp} (right : Expr)
    (h : Grammar.level op + 2 ≤ left.tightness) :
    left.attach op right = .binary op left right := by
  cases left with
  | binary o l r =>
      apply attach_of_le
      rw [← Grammar.level_eq_precedence, ← Grammar.level_eq_precedence]
      simpa [tightness] using h
  | _ => rfl

/-- A chain of operators that bind more tightly than the root goes to the right operand of the
root. -/
lemma graft_binary {o op : BinaryOp} {l r right : Expr} (hright : right.WellFormed)
    (hop : Grammar.level o < Grammar.level op) (hlt : Grammar.level o + 2 < right.tightness) :
    graft (.binary o l r) op right = .binary o l (graft r op right) := by
  induction hright generalizing r op with
  | binary hl' hr' hle' hlt' ihl ihr =>
      simp only [tightness] at hlt
      rw [graft, ihl hop (by omega), ihr (by omega) (by omega)]
      rfl
  | _ =>
      rw [Grammar.level_eq_precedence, Grammar.level_eq_precedence] at hop
      exact attach_of_lt hop

/-- Going on with the chain of a well-formed right operand gives the operation on that operand. -/
lemma graft_eq_binary {left right : Expr} {op : BinaryOp} (hright : right.WellFormed)
    (left_le : Grammar.level op + 2 ≤ left.tightness)
    (right_lt : Grammar.level op + 2 < right.tightness) :
    graft left op right = .binary op left right := by
  induction hright generalizing left op with
  | binary hl hr hle hlt ihl ihr =>
      simp only [tightness] at right_lt
      rw [graft, ihl left_le (by omega), graft_binary hr (by omega) (by omega), ihr hle hlt]
  | _ => exact attach_of_le_tightness _ left_le

end Expr

end LineShell
