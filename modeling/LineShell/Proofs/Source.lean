import LineShell.Proofs.Scan
import LineShell.Proofs.Tree.Completeness
import LineShell.Proofs.Tree.Soundness
import LineShell.Source

/-!
# The trees of a source

A source that splits into lexemes has a tree exactly if the lexemes are those of a well-formed tree
(`ofSource_iff_wellFormed`). Since a source has one tree at most, this tree is the only one: the
grammar is unambiguous.
-/

namespace LineShell

/-! ## Lexemes -/

/-- A word that a source can spell holds no dot. -/
lemma Parser.dotless_of_spelled {ls : List Lexeme} (h : ∀ x ∈ ls, x.Spelled) :
    Parser.Dotless ls := by
  intro word hword
  exact (h _ hword).1.dot_not_mem

/-- Lexemes form a statement if they are those of a well-formed one. -/
lemma Stmt.ofLexemes_eq_ok_iff {ls : List Lexeme} (h : Parser.Dotless ls) {s : Stmt} :
    Stmt.ofLexemes ls = .ok s ↔ s.WellFormed ∧ s.lexemes = ls := by
  unfold Stmt.ofLexemes
  rw [Parser.finish_bind_eq_ok_iff]
  constructor
  · intro htakes
    have hspells := Parser.statement_sound h htakes
    exact ⟨hspells.wellFormed, by rw [hspells.split, List.append_nil]⟩
  · rintro ⟨hs, rfl⟩
    have htakes := Parser.statement_complete hs [] (by simp)
    rwa [List.append_nil] at htakes

/-- Lexemes form an expression or a declaration if they are those of a well-formed one. -/
lemma Expr.ofLexemes_eq_ok_iff {ls : List Lexeme} (h : Parser.Dotless ls) {e : Expr} :
    Expr.ofLexemes ls = .ok e ↔ e.Declarative ∧ e.lexemes = ls := by
  unfold Expr.ofLexemes
  rw [Parser.finish_bind_eq_ok_iff]
  constructor
  · intro htakes
    obtain ⟨he, hsplit⟩ := Parser.declarationOrExpr_sound h htakes
    exact ⟨he, by rw [hsplit, List.append_nil]⟩
  · rintro ⟨he, rfl⟩
    have htakes := Parser.declarationOrExpr_complete he (Parser.ends_nil 0) (by simp) (by simp)
    rwa [List.append_nil] at htakes

/-! ## Sources -/

/-- The tree of a source is what the parser makes of its lexemes. -/
lemma Scan.parse_eq_ok_iff {α : Type} {parser : List Lexeme → Except GrammarError α}
    {source : Text} {tree : α} :
    Scan.parse parser source = .ok tree ↔
      ∃ ls, Scan.Splits source ls ∧ parser ls = .ok tree := by
  unfold Scan.parse
  constructor
  · intro h
    split at h
    · cases h
    · next scan hscan =>
      split at h
      · cases h
      · next found hfound =>
        cases h
        exact ⟨scan.lexemes, Scan.splits_of_after hscan, hfound⟩
  · rintro ⟨ls, hls, htree⟩
    obtain ⟨scan, hscan, rfl⟩ := Scan.after_of_splits hls 0
    have hsource : Scan.ofSource source = .ok scan := hscan
    simp only [hsource, htree]

lemma Stmt.ofSource_eq_ok_iff {source : Text} {s : Stmt} :
    Stmt.ofSource source = .ok s ↔ s.WellFormed ∧ Scan.Splits source s.lexemes := by
  unfold Stmt.ofSource
  rw [Scan.parse_eq_ok_iff]
  constructor
  · rintro ⟨ls, hls, htree⟩
    obtain ⟨hs, rfl⟩ := (ofLexemes_eq_ok_iff (Parser.dotless_of_spelled hls.spelled)).mp htree
    exact ⟨hs, hls⟩
  · rintro ⟨hs, hls⟩
    exact ⟨_, hls, (ofLexemes_eq_ok_iff (Parser.dotless_of_spelled hls.spelled)).mpr ⟨hs, rfl⟩⟩

lemma Expr.ofSource_eq_ok_iff {source : Text} {e : Expr} :
    Expr.ofSource source = .ok e ↔ e.Declarative ∧ Scan.Splits source e.lexemes := by
  unfold Expr.ofSource
  rw [Scan.parse_eq_ok_iff]
  constructor
  · rintro ⟨ls, hls, htree⟩
    obtain ⟨he, rfl⟩ := (ofLexemes_eq_ok_iff (Parser.dotless_of_spelled hls.spelled)).mp htree
    exact ⟨he, hls⟩
  · rintro ⟨he, hls⟩
    exact ⟨_, hls, (ofLexemes_eq_ok_iff (Parser.dotless_of_spelled hls.spelled)).mpr ⟨he, rfl⟩⟩

lemma Scan.splits_source_iff {source : Text} {ls : List Lexeme} :
    Scan.Splits source ls ↔ ∃ scan, Scan.ofSource source = .ok scan ∧ scan.lexemes = ls :=
  (Scan.exists_after_iff 0).symm

/-- A source has exactly the tree whose lexemes, from left to right, are the lexemes of the source,
as a statement and likewise as an expression or a declaration. -/
theorem ofSource_iff_wellFormed (source : Text) :
    (∀ s : Stmt, Stmt.ofSource source = .ok s ↔
      ∃ scan, Scan.ofSource source = .ok scan ∧ s.WellFormed ∧ s.lexemes = scan.lexemes) ∧
    (∀ e : Expr, Expr.ofSource source = .ok e ↔
      ∃ scan, Scan.ofSource source = .ok scan ∧ e.Declarative ∧ e.lexemes = scan.lexemes) := by
  constructor
  · intro s
    rw [Stmt.ofSource_eq_ok_iff, Scan.splits_source_iff]
    constructor
    · rintro ⟨hs, scan, hscan, hlexemes⟩
      exact ⟨scan, hscan, hs, hlexemes.symm⟩
    · rintro ⟨scan, hscan, hs, hlexemes⟩
      exact ⟨hs, scan, hscan, hlexemes.symm⟩
  · intro e
    rw [Expr.ofSource_eq_ok_iff, Scan.splits_source_iff]
    constructor
    · rintro ⟨he, scan, hscan, hlexemes⟩
      exact ⟨scan, hscan, he, hlexemes.symm⟩
    · rintro ⟨scan, hscan, he, hlexemes⟩
      exact ⟨he, scan, hscan, hlexemes.symm⟩

end LineShell
