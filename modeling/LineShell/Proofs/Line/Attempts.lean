import LineShell.Line
import LineShell.Proofs.Scan.Append
import LineShell.Proofs.Source

/-!
# The two attempts to parse a line

A line is tried as a statement, with a semicolon added, and then as an expression. As long as no
comment takes the semicolon, the two attempts agree (`attempts_agree`): a text spells an expression
exactly if it spells the statement made of it with the semicolon. A text that ends in a semicolon or
a closing brace spells no expression, because these are lexemes of no expression
(`Declarative.closer_not_mem`). So the second attempt can only help where there is a comment.
-/

namespace LineShell

/-! ## Lexemes of expressions -/

namespace Expr

variable {s : Symbol}

lemma closer_not_mem_moreLexemes (hs : Scan.closesText s = true) {args : List Expr}
    (h : ∀ a ∈ args, Lexeme.symbol s ∉ a.lexemes) : Lexeme.symbol s ∉ moreLexemes args := by
  have hparen : s ≠ .rightParen := by
    rintro rfl
    cases hs
  have hcomma : s ≠ .comma := by
    rintro rfl
    cases hs
  induction args with
  | nil => simp [moreLexemes, hparen]
  | cons a args ih =>
      rw [List.forall_mem_cons] at h
      simp [moreLexemes, hcomma, h.1, ih h.2]

lemma closer_not_mem_listLexemes (hs : Scan.closesText s = true) {args : List Expr}
    (h : ∀ a ∈ args, Lexeme.symbol s ∉ a.lexemes) : Lexeme.symbol s ∉ listLexemes args := by
  cases args with
  | nil => exact closer_not_mem_moreLexemes hs h
  | cons a args =>
      rw [List.forall_mem_cons] at h
      simp [listLexemes, h.1, closer_not_mem_moreLexemes hs h.2]

/-- Neither a semicolon nor a closing brace is a lexeme of an expression. -/
lemma WellFormed.closer_not_mem {e : Expr} (he : e.WellFormed) (hs : Scan.closesText s = true) :
    Lexeme.symbol s ∉ e.lexemes := by
  have hne : ∀ s', Scan.closesText s' = false → s ≠ s' := by
    rintro s' hs' rfl
    rw [hs] at hs'
    cases hs'
  induction he with
  | literal l => simp [lexemes]
  | name x =>
      obtain ⟨first, words, hwords, -⟩ := exists_words x
      simp [lexemes, hwords, hne .dot rfl]
  | @binary op left right _ _ _ _ ihl ihr =>
      simp [lexemes, ihl, ihr, hne (.binary op) rfl]
  | @unary op operand _ _ ih =>
      have hop : Scan.closesText (.ofUnary op) = false := by cases op <;> rfl
      simp [lexemes, ih, hne _ hop]
  | enclosed _ ih => simp [lexemes, ih, hne .leftParen rfl, hne .rightParen rfl]
  | conditional _ _ _ _ _ ihc iht ihe =>
      simp [lexemes, ihc, iht, ihe, hne .question rfl, hne .colon rfl]
  | call _ ih => simp [lexemes, closer_not_mem_listLexemes hs ih, hne .leftParen rfl]
  | scopedCall _ _ _ ihs ih =>
      simp [lexemes, ihs, closer_not_mem_listLexemes hs ih, hne .leftParen rfl, hne .dot rfl]
  | @assign x op value _ ih =>
      obtain ⟨first, words, hwords, -⟩ := exists_words x
      simp [lexemes, hwords, ih, hne .dot rfl, hne (.assign op) rfl]

/-- The same for a declaration. -/
lemma Declarative.closer_not_mem {e : Expr} (he : e.Declarative)
    (hs : Scan.closesText s = true) : Lexeme.symbol s ∉ e.lexemes := by
  cases he with
  | expr h => exact h.closer_not_mem hs
  | declare h =>
      have hset : s ≠ .assign .set := by
        rintro rfl
        cases hs
      simp [lexemes, h.closer_not_mem hs, hset]
  | declareBare type x => simp [lexemes]

end Expr

/-! ## The statement attempt -/

lemma Stmt.wellFormed_expr_iff {e : Expr} : (Stmt.expr e).WellFormed ↔ e.Declarative := by
  constructor
  · rintro ⟨he⟩
    exact he
  · exact .expr

/-- An expression and a semicolon are a statement, as long as no comment takes the semicolon. -/
lemma Expr.ofSource_iff_statement {t : Text} (hcomment : Scan.meetsComment t = false) (e : Expr) :
    Expr.ofSource t = .ok e ↔ Stmt.ofSource (t ++ ";") = .ok (.expr e) := by
  rw [Expr.ofSource_eq_ok_iff, Stmt.ofSource_eq_ok_iff, Stmt.wellFormed_expr_iff]
  apply and_congr_right
  intro _
  change _ ↔ Scan.Splits (t ++ Symbol.semicolon.text) _
  rw [Scan.splits_append_closer_iff rfl hcomment, Stmt.lexemes]
  constructor
  · intro h
    exact ⟨e.lexemes, rfl, h⟩
  · rintro ⟨front, heq, h⟩
    rwa [List.append_cancel_right heq]

namespace Line

lemma closed_eq_or (t : Text) : closed t = t ∨ closed t = t ++ ";" := by
  unfold closed
  split
  · exact .inl rfl
  · exact .inr rfl

lemma exists_closer_of_isClosed {t : Text} (h : isClosed t = true) :
    ∃ front s, Scan.closesText s = true ∧ t = front ++ s.text := by
  unfold isClosed at h
  rw [Bool.or_eq_true, decide_eq_true_eq, decide_eq_true_eq] at h
  rcases h with h | h
  · obtain ⟨front, rfl⟩ := List.getLast?_eq_some_iff.mp h
    exact ⟨front, .semicolon, rfl, rfl⟩
  · obtain ⟨front, rfl⟩ := List.getLast?_eq_some_iff.mp h
    exact ⟨front, .rightBrace, rfl, rfl⟩

/-- A text that ends in a semicolon or a closing brace outside of comments is no expression. -/
lemma ofSource_ne_ok_of_isClosed {t : Text} (hclosed : isClosed t = true)
    (hcomment : Scan.meetsComment t = false) (e : Expr) : Expr.ofSource t ≠ .ok e := by
  obtain ⟨front, s, hs, rfl⟩ := exists_closer_of_isClosed hclosed
  have hfront : Scan.meetsComment front = false := by
    by_contra hmeets
    rw [Bool.not_eq_false] at hmeets
    rw [Scan.meetsComment_append hmeets (Scan.detached_closer hs)] at hcomment
    cases hcomment
  intro hsource
  obtain ⟨he, hsplits⟩ := Expr.ofSource_eq_ok_iff.mp hsource
  obtain ⟨ls, hls, -⟩ := (Scan.splits_append_closer_iff hs hfront).mp hsplits
  apply he.closer_not_mem hs
  rw [hls]
  simp

/-! ## What comes of a line -/

/-- A line has the node of the first attempt, or else of the second one. -/
lemma parse_eq_ok_iff {line : Text} {node : Node} :
    (parse line).result = .ok node ↔
      (∃ s, Stmt.ofSource (closed line.trim) = .ok s ∧ node = .stmt s) ∨
      ((∃ e, Stmt.ofSource (closed line.trim) = .error (.error e)) ∧
        ∃ e, Expr.ofSource line.trim = .ok e ∧ node = .stmt (.expr e)) := by
  unfold parse
  rcases Stmt.ofSource (closed line.trim) with (e | f) | s
  · rcases Expr.ofSource line.trim with failure | found
    · simp [Except.map]
    · simp [Except.map, eq_comm]
  · simp
  · simp [eq_comm]

/-- Without a comment, a line has a node exactly if the statement attempt finds it. -/
lemma parse_eq_ok_iff_statement {line : Text} (hcomment : Scan.meetsComment line.trim = false)
    {node : Node} : (parse line).result = .ok node ↔
      ∃ s, Stmt.ofSource (closed line.trim) = .ok s ∧ node = .stmt s := by
  rw [parse_eq_ok_iff]
  apply or_iff_left
  rintro ⟨⟨e, hattempt⟩, found, hfound, -⟩
  by_cases hclosed : isClosed line.trim = true
  · exact ofSource_ne_ok_of_isClosed hclosed hcomment found hfound
  · rw [Expr.ofSource_iff_statement hcomment] at hfound
    rw [closed, if_neg hclosed, hfound] at hattempt
    cases hattempt

end Line

/-- Without a comment the two attempts agree: a text is an expression exactly if it is that
expression as a statement with a semicolon behind it. So a line has a node exactly if the statement
attempt succeeds. A line is scanned without the blanks at its ends. -/
theorem attempts_agree :
    (∀ (t : Text) (e : Expr), Scan.meetsComment t = false →
      (Expr.ofSource t = .ok e ↔ Stmt.ofSource (t ++ ";") = .ok (.expr e))) ∧
    (∀ line : Text, Scan.meetsComment line.trim = false →
      ((∃ node, (Line.parse line).result = .ok node) ↔
        ∃ s, Stmt.ofSource (Line.closed line.trim) = .ok s)) := by
  constructor
  · intro t e hcomment
    exact Expr.ofSource_iff_statement hcomment e
  · intro line hcomment
    constructor
    · rintro ⟨node, hnode⟩
      obtain ⟨s, hs, -⟩ := (Line.parse_eq_ok_iff_statement hcomment).mp hnode
      exact ⟨s, hs⟩
    · rintro ⟨s, hs⟩
      exact ⟨_, (Line.parse_eq_ok_iff_statement hcomment).mpr ⟨s, hs, rfl⟩⟩

/-- A name is a statement with a semicolon behind it, and a lone `return` is a line. -/
theorem attempts_agree_return :
    Stmt.ofSource (("x" : Text) ++ ";") = .ok (.expr (.name "x")) ∧
    ∃ node, (Line.parse " return ").result = .ok node := by
  have hname : Expr.ofSource "x" = .ok (.name "x") := by
    rw [Expr.ofSource_eq_ok_iff]
    exact ⟨.expr (.name _), .lexeme ⟨_, _, 1, rfl, by decide, by decide, rfl, rfl⟩ .nil⟩
  have hreturn : Stmt.ofSource "return;" = .ok .returnVoid := by
    rw [Stmt.ofSource_eq_ok_iff]
    refine ⟨.returnVoid, .lexeme ⟨_, _, 6, rfl, by decide, by decide, rfl, rfl⟩ ?_⟩
    exact .lexeme ⟨_, _, 1, rfl, by decide, by decide, rfl, rfl⟩ .nil
  refine ⟨(attempts_agree.1 "x" _ ?_).mp hname, (attempts_agree.2 " return " ?_).mpr ⟨_, hreturn⟩⟩
  · exact Scan.meetsComment_of_not_mem (by decide)
  · exact Scan.meetsComment_of_not_mem (by decide)

end LineShell
