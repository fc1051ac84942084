import LineShell.Proofs.Source
import LineShell.Proofs.Tree.Render

/-!
# Parsing rendered trees

A tree that a source spells is parsed back from its rendering, unless a part of it drifts
(`ofSource_render_iff`). The rendering has the lexemes of the tree exactly if nothing drifts, and
the lexemes of a well-formed tree determine it.
-/

namespace LineShell

/-- A statement whose lexemes can be spelled is the statement of its rendering exactly if it is
steady. -/
lemma Stmt.WellFormed.ofSource_render_eq_ok_iff {s : Stmt} (h : s.WellFormed)
    (hs : ∀ x ∈ s.lexemes, x.Spelled) : Stmt.ofSource s.render = .ok s ↔ s.Steady := by
  have hsplits := h.rendersBack hs [] [] Text.closes_nil
  rw [List.append_nil, List.append_nil, and_iff_left Scan.Splits.nil] at hsplits
  rw [Stmt.ofSource_eq_ok_iff, and_iff_right h, hsplits]

/-- The same for an expression or a declaration. -/
lemma Expr.Declarative.ofSource_render_eq_ok_iff {e : Expr} (h : e.Declarative)
    (hs : ∀ x ∈ e.lexemes, x.Spelled) : Expr.ofSource e.render = .ok e ↔ e.Steady := by
  have hsplits : Scan.Splits (e.render ++ []) (e.lexemes ++ []) ↔ _ :=
    h.splits_iff hs Text.closes_nil
  rw [List.append_nil, List.append_nil, and_iff_left Scan.Splits.nil] at hsplits
  rw [Expr.ofSource_eq_ok_iff, and_iff_right h, hsplits]

/-- The tree of a source is the tree of its own rendering, unless it contains a `double` of digits
only or a call on an integer. -/
theorem ofSource_render_iff (source : Text) :
    (∀ s : Stmt, Stmt.ofSource source = .ok s →
      (Stmt.ofSource s.render = .ok s ↔ ∀ p ∈ s.parts, ¬ p.Drifts)) ∧
    (∀ e : Expr, Expr.ofSource source = .ok e →
      (Expr.ofSource e.render = .ok e ↔ ∀ p ∈ e.parts, ¬ p.Drifts)) := by
  constructor
  · intro s hsource
    obtain ⟨hs, hsplits⟩ := Stmt.ofSource_eq_ok_iff.mp hsource
    exact hs.ofSource_render_eq_ok_iff hsplits.spelled
  · intro e hsource
    obtain ⟨he, hsplits⟩ := Expr.ofSource_eq_ok_iff.mp hsource
    exact he.ofSource_render_eq_ok_iff hsplits.spelled

/-- A number loses its suffix and a call on an integer its dot, while a blank behind a sign is lost
without harm. -/
theorem ofSource_render_iff_three :
    Stmt.ofSource (Stmt.expr (.literal ⟨.double, "2"⟩)).render
      ≠ .ok (.expr (.literal ⟨.double, "2"⟩)) ∧
    Expr.ofSource (Expr.scopedCall (.literal ⟨.int, "1"⟩) "f" []).render
      ≠ .ok (.scopedCall (.literal ⟨.int, "1"⟩) "f" []) ∧
    Expr.ofSource (Expr.unary .neg (.name "x")).render = .ok (.unary .neg (.name "x")) := by
  have htwo : Stmt.ofSource "2d;" = .ok (.expr (.literal ⟨.double, "2"⟩)) := by
    rw [Stmt.ofSource_eq_ok_iff]
    refine ⟨.expr (.expr (.literal _)), ?_⟩
    have hstop : Scan.Splits ";" [.symbol .semicolon] :=
      .lexeme ⟨_, _, 1, rfl, by decide, by decide, rfl, rfl⟩ .nil
    exact .lexeme ⟨_, _, 2, rfl, by decide, by decide, rfl, rfl⟩ hstop
  have hone : Expr.ofSource "1 .f()" = .ok (.scopedCall (.literal ⟨.int, "1"⟩) "f" []) := by
    rw [Expr.ofSource_eq_ok_iff]
    refine ⟨.expr (.scopedCall (.literal _) (by simp) le_rfl), ?_⟩
    have hparens : Scan.Splits "()" [.symbol .leftParen, .symbol .rightParen] :=
      .lexeme ⟨_, _, 1, rfl, by decide, by decide, rfl, rfl⟩
        (.lexeme ⟨_, _, 1, rfl, by decide, by decide, rfl, rfl⟩ .nil)
    have hcall : Scan.Splits ".f()"
        [.symbol .dot, .name "f", .symbol .leftParen, .symbol .rightParen] :=
      .lexeme ⟨_, _, 1, rfl, by decide, by decide, rfl, rfl⟩
        (.lexeme ⟨_, _, 1, rfl, by decide, by decide, rfl, rfl⟩ hparens)
    exact .lexeme ⟨_, _, 1, rfl, by decide, by decide, rfl, rfl⟩ (.spacing (by decide) hcall)
  have hminus : Expr.ofSource "- x" = .ok (.unary .neg (.name "x")) := by
    rw [Expr.ofSource_eq_ok_iff]
    refine ⟨.expr (.unary (.name _) (Nat.le_succ _)), ?_⟩
    have hx : Scan.Splits "x" (Expr.name "x").lexemes :=
      .lexeme ⟨_, _, 1, rfl, by decide, by decide, rfl, rfl⟩ .nil
    exact .lexeme ⟨_, _, 1, rfl, by decide, by decide, rfl, rfl⟩ (.spacing (by decide) hx)
  refine ⟨?_, ?_, ?_⟩
  · rw [Ne, (ofSource_render_iff "2d;").1 _ htwo]
    simp only [Stmt.parts, Expr.parts, List.mem_singleton, forall_eq, not_not]
    show ∀ c ∈ ("2" : Text), c.isDigit = true
    decide
  · rw [Ne, (ofSource_render_iff "1 .f()").2 _ hone]
    simp [Expr.parts, Expr.Drifts]
  · rw [(ofSource_render_iff "- x").2 _ hminus]
    simp [Expr.parts, Expr.Drifts]

end LineShell
