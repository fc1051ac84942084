import LineShell.Proofs.Tree.Plan
import LineShell.Proofs.Tree.Precedence
import Mathlib.Data.Nat.Init
import Mathlib.Order.Nat
import Mathlib.Tactic.ByContra

/-!
# Levels of operators

A chain of operators is read in one loop, whatever their levels (`Parser.operations`). It can be
read level by level as well: first a chain of tighter operators, and then, as long as an operator
of the level comes next, that operator and another chain of tighter ones. Both give the same tree
and stop at the same lexeme (`plan_binary_of_lt`, `plan_operations_of_pending`).
-/

namespace LineShell

namespace Parser

open Plan

/-! ## How tightly trees bind -/

lemma tight_of_takes_primary {e : Expr} {ts rest : List Lexeme} (h : Takes (primary ts) e rest) :
    Expr.postfixTightness ≤ e.tightness := by
  rcases takes_primary_iff.mp h with ⟨_, _, rfl⟩ | ⟨_, _, _, _, rfl⟩ | ⟨_, _, _, _, _, _, rfl⟩ |
    ⟨_, _, _, rfl⟩ <;> exact le_rfl

lemma tight_of_takes_members {e whole : Expr} {ts rest : List Lexeme}
    (he : Expr.postfixTightness ≤ e.tightness) (h : Takes (members e ts) whole rest) :
    Expr.postfixTightness ≤ whole.tightness := by
  induction hlen : ts.length using Nat.strong_induction_on generalizing e ts with
  | _ k ih =>
    rcases takes_members_iff.mp h with ⟨-, rfl, -⟩ | ⟨f, args, ts', mid, rfl, -, hargs, hmembers⟩ |
      ⟨x, word, ts', rfl, -, rfl, hmembers⟩
    · exact he
    · have hmid := hargs.shorter
      simp only [List.length_cons] at hlen
      exact ih mid.length (by omega) le_rfl hmembers rfl
    · simp only [List.length_cons] at hlen
      exact ih ts'.length (by omega) le_rfl hmembers rfl

lemma tight_of_takes_unary {e : Expr} {ts rest : List Lexeme} (h : Takes (unary ts) e rest) :
    Expr.unaryTightness ≤ e.tightness := by
  rcases takes_unary_iff.mp h with ⟨_, _, _, _, _, rfl⟩ | ⟨-, hpostfixed⟩
  · exact le_rfl
  · obtain ⟨first, mid, hfirst, hmembers⟩ := takes_postfixed_iff.mp hpostfixed
    have htight := tight_of_takes_members (tight_of_takes_primary hfirst) hmembers
    exact Nat.le_of_succ_le htight

/-! ## Level by level -/

/-- The operators of one level behind `left`, each with a chain of tighter operators. -/
def levelOperations (level : Nat) (left : Expr) : Plan Expr
  | .symbol (.binary op) :: ts =>
    if op.precedence = level then
      match _h : plan (binary (level + 1)) ts with
      | .ok (right, rest) => levelOperations level (.binary op left right) rest
      | .error e => .error e
    else .ok (left, .symbol (.binary op) :: ts)
  | ts => .ok (left, ts)
termination_by ts => ts.length
decreasing_by exact Nat.lt_succ_of_lt (plan_eq_ok_iff.mp _h).shorter

variable {level : Nat}

lemma levelOperations_eq (level : Nat) (left : Expr) : levelOperations level left = look fun head =>
    match head with
    | some (.symbol (.binary op)) =>
        if op.precedence = level then
          advance ((plan (binary (level + 1))).andThen fun right =>
            levelOperations level (.binary op left right))
        else done left
    | _ => done left := by
  funext ts
  rw [levelOperations.eq_def]
  split
  · next op rest =>
    simp only [look, List.head?_cons]
    split
    · simp only [advance, Plan.andThen]
      split
      · next right rest' hright => simp only [hright]
      · next e hright => simp only [hright]
    · rfl
  · next hne =>
    rcases ts with _ | ⟨y, rest⟩
    · rfl
    · cases y with
      | symbol s =>
          cases s with
          | binary op => exact absurd rfl (hne op rest)
          | _ => rfl
      | _ => rfl

/-- What a round over the operators of a level finds: the tree so far binds at least as tightly as
the level, and no tighter operator comes next. -/
structure Pending (level : Nat) (left : Expr) (ts : List Lexeme) : Prop where
  /-- The tree binds at least as tightly as the level. -/
  tight : level + 2 ≤ left.tightness
  /-- An operator that comes next binds no more tightly. -/
  next_le : ∀ op : BinaryOp, ts.head? = some (.symbol (.binary op)) → op.precedence ≤ level

lemma pending_of_takes_operations {left e : Expr} {ts rest : List Lexeme}
    (hleft : level + 2 ≤ left.tightness) (h : Takes (operations (level + 1) left ts) e rest) :
    Pending level e rest := by
  induction hlen : ts.length using Nat.strong_induction_on generalizing left ts with
  | _ k ih =>
    rcases takes_operations_iff.mp h with ⟨op, right, ts', mid, rfl, hle, hright, hwhole⟩ |
      ⟨hnone, rfl, rfl⟩
    · have hmid := hright.shorter
      simp only [List.length_cons] at hlen
      have hmin := Expr.min_le_tightness_attach left op right
      rw [Grammar.level_eq_precedence] at hmin
      exact ih mid.length (by omega) (by omega) hwhole rfl
    · refine ⟨hleft, fun op hop => ?_⟩
      by_contra hlt
      exact hnone op (by omega) hop

/-- Behind a chain of tighter operators a round over the operators of the level can start. -/
lemma pending_of_takes_binary (hlevel : level < BinaryOp.levels) {e : Expr} {ts rest : List Lexeme}
    (h : Takes (binary (level + 1) ts) e rest) : Pending level e rest := by
  obtain ⟨first, mid, hfirst, hwhole⟩ := takes_binary_iff.mp h
  have htight := tight_of_takes_unary hfirst
  rw [Expr.unaryTightness, Grammar.length_levels] at htight
  exact pending_of_takes_operations (by omega) hwhole

/-- A loop over operators starts with a loop over the tighter ones. The tree so far may be a part
`e` of a tree `f e`, as long as tighter operators go to that part. -/
lemma plan_operations_split {f : Expr → Expr}
    (hf : ∀ e (op : BinaryOp) right, level < op.precedence →
      (f e).attach op right = f (e.attach op right)) (e : Expr) :
    plan (operations level (f e)) =
      (plan (operations (level + 1) e)).andThen fun e' => plan (operations level (f e')) := by
  funext ts
  induction hlen : ts.length using Nat.strong_induction_on generalizing e ts with
  | _ k ih =>
    by_cases htighter : ∃ op ts', ts = .symbol (.binary op) :: ts' ∧ level < op.precedence
    · obtain ⟨op, ts', rfl, hlt⟩ := htighter
      have hle : level ≤ op.precedence := Nat.le_of_lt hlt
      have hle' : level + 1 ≤ op.precedence := hlt
      simp only [List.length_cons] at hlen
      -- Both loops take the operator and its operand, and go on behind them.
      rw [plan_operations, plan_operations (level + 1)]
      simp only [look, List.head?_cons, if_pos hle, if_pos hle', advance, Plan.andThen]
      rcases hright : plan unary ts' with err | ⟨right, rest⟩
      · rfl
      · have hshorter := (plan_eq_ok_iff.mp hright).shorter
        simp only [hf e op right hlt]
        exact ih rest.length (by omega) (e.attach op right) rest rfl
    · have hdone : plan (operations (level + 1) e) ts = .ok (e, ts) := by
        rw [plan_eq_ok_iff, takes_operations_iff]
        refine .inr ⟨fun op hle hop => ?_, rfl, rfl⟩
        obtain ⟨ts', rfl⟩ := List.head?_eq_some_iff.mp hop
        exact htighter ⟨op, ts', rfl, hle⟩
      rw [andThen_of_eq_ok hdone]

/-- Where no tighter operator comes next, the loop takes the operators of the level. -/
lemma plan_operations_of_pending (hlevel : level < BinaryOp.levels) {left : Expr}
    {ts : List Lexeme} (h : Pending level left ts) :
    plan (operations level left) ts = levelOperations level left ts := by
  induction hlen : ts.length using Nat.strong_induction_on generalizing left ts with
  | _ k ih =>
    rw [plan_operations, levelOperations_eq]
    rcases ts with _ | ⟨y, rest⟩
    · rfl
    · cases y with
      | symbol s =>
          cases s with
          | binary op =>
              have hle := h.next_le op rfl
              simp only [look, List.head?_cons]
              by_cases heq : op.precedence = level
              · have hop : Grammar.level op = level := by rw [Grammar.level_eq_precedence, heq]
                have hattach : ∀ right, left.attach op right = .binary op left right :=
                  fun right => Expr.attach_of_le_tightness right (hop ▸ h.tight)
                -- The operand starts a chain of tighter operators, which go to the new operation.
                have hchain : ((plan unary).andThen fun right =>
                      plan (operations level (.binary op left right))) =
                    (plan (binary (level + 1))).andThen fun right =>
                      plan (operations level (.binary op left right)) := by
                  rw [plan_binary, andThen_assoc]
                  congr 1
                  funext right
                  exact plan_operations_split
                    (fun e o r hlt => Expr.attach_of_lt (l := left) (heq.symm ▸ hlt)) right
                simp only [if_pos heq, if_pos heq.ge, hattach, hchain, advance, Plan.andThen]
                rcases hright : plan (binary (level + 1)) rest with e | ⟨right, rest'⟩
                · rfl
                · have htakes := plan_eq_ok_iff.mp hright
                  have hnext := pending_of_takes_binary hlevel htakes
                  have hshorter := htakes.shorter
                  rw [List.length_cons] at hlen
                  exact ih rest'.length (by omega)
                    ⟨Nat.add_le_add_right hop.ge 2, hnext.next_le⟩ rfl
              · rw [if_neg heq, if_neg (by omega)]
          | _ => rfl
      | _ => rfl

/-- A chain of some level is a chain of the next tighter level and the operators of the level. -/
lemma plan_binary_of_lt (hlevel : level < BinaryOp.levels) :
    plan (binary level) =
      (plan (binary (level + 1))).andThen fun left => levelOperations level left := by
  have hsplit : plan (binary level) =
      (plan (binary (level + 1))).andThen fun left => plan (operations level left) := by
    rw [plan_binary, plan_binary, andThen_assoc]
    congr 1
    funext first
    exact plan_operations_split (f := id) (fun _ _ _ _ => rfl) first
  rw [hsplit]
  refine andThen_congr fun ts left rest hleft => ?_
  exact plan_operations_of_pending hlevel (pending_of_takes_binary hlevel (plan_eq_ok_iff.mp hleft))

/-- Behind all levels a chain is one operand. -/
lemma plan_binary_levels : plan (binary BinaryOp.levels) = plan unary := by
  have hoperations : ∀ e, plan (operations BinaryOp.levels e) = done e := by
    intro e
    funext ts
    refine plan_eq_ok_iff.mpr (takes_operations_iff.mpr (.inr ⟨fun op hle => ?_, rfl, rfl⟩))
    exact absurd op.precedence_lt_levels (Nat.not_lt.mpr hle)
  rw [plan_binary]
  simp only [hoperations]
  exact andThen_done _

end Parser

end LineShell
