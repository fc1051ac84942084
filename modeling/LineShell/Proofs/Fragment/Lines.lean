import LineShell.Line
import LineShell.Proofs.Fragment.Machine
import LineShell.Proofs.RoundTrip

/-!
# Lines of the fragment are parsed

Every line of the fragment is parsed into its own tree (`Command.parse_line`). Its tree is well
formed and nothing in it drifts, so it is the tree of its rendering; and a line starts and ends with
something visible, so nothing is trimmed or added before it is parsed.
-/

namespace LineShell

open Text

/-! ## Trimming -/

/-- Between the space and the first control character above ASCII nothing is blank. -/
lemma CodePoint.isBlank_of_between {c : CodePoint} (hlow : 0x20 < c.val) (hhigh : c.val < 0x85) :
    c.isBlank = false := by
  have htable : ∀ range ∈ blankTable, range.2 ≤ 0x20 ∨ 0x85 ≤ range.1 := by decide
  by_contra hblank
  rw [Bool.not_eq_false] at hblank
  obtain ⟨range, hrange, hle, hge⟩ := RangeTable.holds_iff.mp hblank
  rcases htable range hrange with hsmall | hlarge
  · omega
  · omega

namespace Text

/-- A text that ends visibly keeps its end. -/
lemma trimEnd_append_singleton (t : Text) {c : CodePoint} (hc : c.isBlank = false) :
    trimEnd (t ++ [c]) = t ++ [c] := by
  induction t with
  | nil => simp [trimEnd, hc]
  | cons d t ih =>
      rw [List.cons_append, trimEnd, ih]
      cases t with
      | nil => rfl
      | cons e t => rfl

/-- A text that starts and ends visibly is not trimmed. -/
lemma trim_append_singleton {t : Text} {c : CodePoint} (hc : c.isBlank = false)
    (ht : EndsRun CodePoint.isBlank (t ++ [c])) : trim (t ++ [c]) = t ++ [c] := by
  have hdrop : (t ++ [c]).dropWhile CodePoint.isBlank = t ++ [c] := by
    cases t with
    | nil => simp [hc]
    | cons d t => simp [ht d rfl]
  unfold trim
  rw [hdrop, trimEnd_append_singleton t hc]

end Text

/-! ## Trees of the fragment -/

namespace Fragment

lemma Ident.nameLexemes (x : Ident) : Expr.nameLexemes x.word = [.name x.word] :=
  Expr.nameLexemes_of_not_mem x.spelled.1.dot_not_mem

/-- A name starts visibly. -/
lemma Ident.endsRun_isBlank (x : Ident) (rest : Text) :
    EndsRun CodePoint.isBlank (x.word ++ rest) := by
  apply x.spelled.1.endsRun
  intro c hc
  have hrange := Lexeme.val_of_startsWord hc
  exact CodePoint.isBlank_of_between (by omega) (by omega)

lemma Ty.spelled (type : Ty) : (Lexeme.name type.varType.name).Spelled := by
  cases type with
  | int => exact ⟨⟨⟨('i' : Char), rfl, by decide⟩, by decide⟩, by decide⟩
  | text => exact ⟨⟨⟨('S' : Char), rfl, by decide⟩, by decide⟩, by decide⟩

namespace Operand

lemma wellFormed (a : Operand) : a.expr.WellFormed := by
  cases a with
  | number n le => exact .literal _
  | text t => exact .literal _
  | var x => exact .name _

lemma tightness (a : Operand) : a.expr.tightness = Expr.postfixTightness := by
  cases a <;> rfl

lemma spelled (a : Operand) : ∀ l ∈ a.expr.lexemes, l.Spelled := by
  cases a with
  | number n le =>
      have hn := Numeral.wellFormed_digits (Text.ofNat_ne_nil n)
        fun c hc => Text.isDigit_of_mem_ofNat hc
      simp only [expr, Expr.lexemes, List.mem_singleton, forall_eq]
      exact ⟨_, hn, rfl, Numeral.text_digits _⟩
  | text t =>
      simp only [expr, Expr.lexemes, List.mem_singleton, forall_eq]
      trivial
  | var x =>
      simp only [expr, Expr.lexemes, x.nameLexemes, List.mem_singleton, forall_eq]
      exact x.spelled

lemma steady (a : Operand) : a.expr.Steady := by
  cases a <;> simp [expr, Expr.Steady, Expr.parts, Expr.Drifts]

/-- An operand starts visibly. -/
lemma endsRun_isBlank (a : Operand) (rest : Text) :
    EndsRun CodePoint.isBlank (a.expr.render ++ rest) := by
  cases a with
  | number n le =>
      obtain ⟨c, digits, hcons⟩ := List.exists_cons_of_ne_nil (Text.ofNat_ne_nil n)
      have hc : c.isDigit = true := Text.isDigit_of_mem_ofNat (hcons ▸ List.mem_cons_self)
      have hrange := CodePoint.within_iff.mp hc
      simp only [expr, Expr.render, Literal.render, hcons]
      apply endsRun_cons
      exact CodePoint.isBlank_of_between (by omega) (by omega)
  | text t => exact endsRun_cons (c := ('"' : Char)) (by decide) _
  | var x => exact x.endsRun_isBlank rest

end Operand

namespace Term

lemma wellFormed (e : Term) : e.expr.WellFormed := by
  cases e with
  | operand a => exact a.wellFormed
  | add a b =>
      refine .binary a.wellFormed b.wellFormed ?_ ?_
      · rw [a.tightness]
        decide
      · rw [b.tightness]
        decide
  | sub a b =>
      refine .binary a.wellFormed b.wellFormed ?_ ?_
      · rw [a.tightness]
        decide
      · rw [b.tightness]
        decide

lemma spelled (e : Term) : ∀ l ∈ e.expr.lexemes, l.Spelled := by
  cases e with
  | operand a => exact a.spelled
  | add a b =>
      rw [expr, Expr.lexemes, List.forall_mem_append, List.forall_mem_cons]
      exact ⟨a.spelled, trivial, b.spelled⟩
  | sub a b =>
      rw [expr, Expr.lexemes, List.forall_mem_append, List.forall_mem_cons]
      exact ⟨a.spelled, trivial, b.spelled⟩

lemma steady (e : Term) : e.expr.Steady := by
  cases e with
  | operand a => exact a.steady
  | add a b => exact Expr.steady_binary_iff.mpr ⟨a.steady, b.steady⟩
  | sub a b => exact Expr.steady_binary_iff.mpr ⟨a.steady, b.steady⟩

lemma endsRun_isBlank (e : Term) (rest : Text) :
    EndsRun CodePoint.isBlank (e.expr.render ++ rest) := by
  cases e with
  | operand a => exact a.endsRun_isBlank rest
  | add a b =>
      simp only [expr, Expr.render, List.append_assoc]
      exact a.endsRun_isBlank _
  | sub a b =>
      simp only [expr, Expr.render, List.append_assoc]
      exact a.endsRun_isBlank _

end Term

namespace Command

lemma declarative (c : Command) : c.expr.Declarative := by
  cases c with
  | declare type x e => exact .declare e.wellFormed
  | assign x e => exact .expr (.assign e.wellFormed)
  | term e => exact .expr e.wellFormed

lemma spelled (c : Command) : ∀ l ∈ c.expr.lexemes, l.Spelled := by
  cases c with
  | declare type x e =>
      simp only [expr, Expr.lexemes, List.forall_mem_cons]
      exact ⟨type.spelled, x.spelled, trivial, e.spelled⟩
  | assign x e =>
      simp only [expr, Expr.lexemes, x.nameLexemes, List.forall_mem_append, List.forall_mem_cons,
        List.mem_singleton, forall_eq]
      exact ⟨x.spelled, trivial, e.spelled⟩
  | term e => exact e.spelled

lemma steady (c : Command) : c.expr.Steady := by
  cases c with
  | declare type x e =>
      have he := e.steady
      unfold Expr.Steady at he ⊢
      rw [expr, Expr.parts, List.forall_mem_cons]
      exact ⟨id, he⟩
  | assign x e => exact Expr.steady_assign_iff.mpr ⟨Expr.steady_name _, e.steady⟩
  | term e => exact e.steady

/-- The tree of a line is the tree of the line. -/
lemma ofSource_line (c : Command) : Stmt.ofSource c.line = .ok (.expr c.expr) := by
  have hwf : (Stmt.expr c.expr).WellFormed := .expr c.declarative
  have hspelled : ∀ l ∈ (Stmt.expr c.expr).lexemes, l.Spelled := by
    rw [Stmt.lexemes, List.forall_mem_append]
    exact ⟨c.spelled, by simp [Lexeme.Spelled]⟩
  exact (hwf.ofSource_render_eq_ok_iff hspelled).mpr c.steady

/-- Every line ends in a semicolon. -/
lemma line_eq (c : Command) : c.line = c.expr.render ++ [((';' : Char) : CodePoint)] := by
  unfold line
  rw [Stmt.render]
  rfl

lemma trim_line (c : Command) : c.line.trim = c.line := by
  rw [c.line_eq]
  apply trim_append_singleton (by decide)
  cases c with
  | declare type x e =>
      cases type with
      | int => exact endsRun_cons (c := ('i' : Char)) (by decide) _
      | text => exact endsRun_cons (c := ('S' : Char)) (by decide) _
  | assign x e =>
      simp only [expr, Expr.render, List.append_assoc]
      exact x.endsRun_isBlank _
  | term e => exact e.endsRun_isBlank _

/-- A line is parsed into its tree, with nothing to record. -/
lemma parse_line (c : Command) : Line.parse c.line = ⟨.ok (.stmt (.expr c.expr)), []⟩ := by
  have hclosed : Line.closed c.line = c.line := by
    unfold Line.closed Line.isClosed
    rw [c.line_eq, List.getLast?_concat]
    rfl
  unfold Line.parse
  rw [c.trim_line, hclosed, c.ofSource_line]

/-- No line asks to end the session. -/
lemma isExit_line (c : Command) : Line.isExit c.line = false := by
  unfold Line.isExit
  rw [c.trim_line, c.line_eq, List.map_append]
  apply decide_eq_false
  intro heq
  have hlast := congrArg List.getLast? heq
  rw [List.map_singleton, List.getLast?_concat] at hlast
  exact absurd hlast (by decide)

lemma isBlank_line (c : Command) : Line.isBlank c.line = false := by
  unfold Line.isBlank
  rw [c.trim_line, c.line_eq]
  simp

end Command

end Fragment

end LineShell
