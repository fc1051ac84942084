import LineShell.Proofs.Line.Comment
import LineShell.Proofs.Session.Faults

/-!
# The semicolon at the end of a line

The semicolon at the end of a line can be left out (`parse_append_semicolon`). With and without it
the same text is tried as a statement, so only the second attempt can tell the two lines apart: it
is made on the text as it stands. But this attempt finds an expression in one text exactly if it
does in the other (`ofSource_append_semicolon`). Behind a comment the semicolon is no lexeme. In
front of the end, the text without it is an expression only if the first attempt has found it, and
the text with it never is.
-/

namespace LineShell

open Text

/-! ## Trimming -/

namespace Text

/-- A trimmed text does not start with a blank. -/
lemma endsRun_isBlank_trim (t : Text) : EndsRun CodePoint.isBlank t.trim := by
  intro c hc
  obtain ⟨blanks, -, hsplit⟩ := exists_eq_trimEnd_append (t.dropWhile CodePoint.isBlank)
  obtain ⟨rest, htrim⟩ := List.head?_eq_some_iff.mp hc
  have hhead : (t.dropWhile CodePoint.isBlank).head? = some c := by
    rw [hsplit, show trimEnd _ = c :: rest from htrim]
    rfl
  have hnot := List.head?_dropWhile_not CodePoint.isBlank t
  rw [hhead] at hnot
  simpa using hnot

/-- A semicolon behind a trimmed text keeps the text trimmed. -/
lemma trim_trim_append_semicolon (t : Text) : trim (t.trim ++ ";") = t.trim ++ ";" := by
  apply trim_append_singleton (by decide)
  cases htrim : t.trim with
  | nil => exact endsRun_cons (by decide) []
  | cons c rest => exact endsRun_cons (endsRun_isBlank_trim t c (by rw [htrim, List.head?_cons])) _

end Text

namespace Line

variable {t : Text} {e : Expr}

lemma isClosed_append_semicolon (t : Text) : isClosed (t ++ ";") = true := by
  have hlast : (t ++ ";").getLast? = some (';' : CodePoint) := List.getLast?_concat
  rw [isClosed, hlast]
  rfl

/-! ## The second attempt -/

/-- Outside of comments no expression ends in a semicolon. -/
lemma ofSource_append_semicolon_ne_ok (hcomment : Scan.meetsComment t = false) :
    Expr.ofSource (t ++ ";") ≠ .ok e := by
  intro h
  obtain ⟨he, hsplits⟩ := Expr.ofSource_eq_ok_iff.mp h
  obtain ⟨front, hlexemes, -⟩ :=
    (Scan.splits_append_closer_iff (s := .semicolon) rfl hcomment).mp hsplits
  apply he.closer_not_mem (s := .semicolon) rfl
  rw [hlexemes]
  exact List.mem_append_right _ List.mem_cons_self

/-- Where the first attempt fails, the second one finds the same expression with a semicolon and
without. -/
lemma ofSource_append_semicolon (hattempt : ∀ s, Stmt.ofSource (t ++ ";") ≠ .ok s) :
    Expr.ofSource (t ++ ";") = .ok e ↔ Expr.ofSource t = .ok e := by
  by_cases hcomment : Scan.meetsComment t = true
  · rw [Expr.ofSource_eq_ok_iff, Expr.ofSource_eq_ok_iff]
    exact and_congr_right fun _ => Scan.splits_append_of_meetsComment hcomment
      (Scan.detached_closer (s := .semicolon) rfl)
  · rw [Bool.not_eq_true] at hcomment
    apply iff_of_false (ofSource_append_semicolon_ne_ok hcomment)
    intro h
    exact hattempt _ ((Expr.ofSource_iff_statement hcomment e).mp h)

/-! ## What comes of the two lines -/

/-- Both lines are tried as the same statement. -/
lemma closed_trim_append_semicolon {line : Text} (h : isClosed line.trim = false) :
    closed (trim (line.trim ++ ";")) = closed line.trim := by
  rw [trim_trim_append_semicolon, closed, if_pos (isClosed_append_semicolon _), closed,
    if_neg (by simp [h])]

/-- A semicolon at the end does not change the node of a line. -/
lemma parse_append_semicolon_eq_ok_iff {line : Text} (h : isClosed line.trim = false)
    {node : Node} :
    (parse (line.trim ++ ";")).result = .ok node ↔ (parse line).result = .ok node := by
  have hopen : closed line.trim = line.trim ++ ";" := if_neg (by simp [h])
  rw [parse_eq_ok_iff, parse_eq_ok_iff, closed_trim_append_semicolon h,
    trim_trim_append_semicolon]
  apply or_congr_right
  apply and_congr_right
  rintro ⟨e, he⟩
  have hattempt : ∀ s, Stmt.ofSource (line.trim ++ ";") ≠ .ok s := by
    intro s hs
    rw [← hopen, he] at hs
    cases hs
  simp only [ofSource_append_semicolon hattempt]

/-- Nor does it change whether parsing ends in a fault. -/
lemma parse_append_semicolon_eq_fault_iff (line : Text) {f : Fault} :
    (parse (line.trim ++ ";")).result = .error (.fault f) ↔
      (parse line).result = .error (.fault f) := by
  rw [parse_eq_fault_iff, parse_eq_fault_iff, ← Scan.ofSource_eq_fault_iff,
    ← Scan.ofSource_eq_fault_iff, trim_trim_append_semicolon]
  exact Scan.ofSource_append_closer_eq_fault_iff (s := .semicolon) rfl

end Line

/-- **The semicolon at the end is optional.** A line that ends neither in a semicolon nor in a
closing brace and the trimmed line with a semicolon behind it have the same node, or both have an
error instead, or both end in the fault of a digit that stands where a lexeme can start. -/
theorem parse_append_semicolon (line : Text) (h : Line.isClosed line.trim = false) :
    (∃ node, (Line.parse line).result = .ok node ∧
      (Line.parse (line.trim ++ ";")).result = .ok node) ∨
    (∃ e e', (Line.parse line).result = .error (.error e) ∧
      (Line.parse (line.trim ++ ";")).result = .error (.error e')) ∨
    ((Line.parse line).result = .error (.fault .strayDigit) ∧
      (Line.parse (line.trim ++ ";")).result = .error (.fault .strayDigit)) := by
  rcases hline : (Line.parse line).result with (e | f) | node
  · right
    left
    rcases hsame : (Line.parse (line.trim ++ ";")).result with (e' | f) | node
    · exact ⟨e, e', rfl, rfl⟩
    · rw [Line.parse_append_semicolon_eq_fault_iff, hline] at hsame
      cases hsame
    · rw [Line.parse_append_semicolon_eq_ok_iff h, hline] at hsame
      cases hsame
  · right
    right
    obtain ⟨rfl, -⟩ := Line.parse_eq_fault_iff.mp hline
    exact ⟨rfl, (Line.parse_append_semicolon_eq_fault_iff line).mpr hline⟩
  · left
    exact ⟨node, rfl, (Line.parse_append_semicolon_eq_ok_iff h).mpr hline⟩

/-- A statement keeps its node, and one that a comment has taken the semicolon from keeps its
error. -/
theorem parse_append_semicolon_return :
    (Line.parse (Text.trim "return 1" ++ ";")).result
      = .ok (.stmt (.returnValue (.literal ⟨.int, "1"⟩))) ∧
    ∃ e, (Line.parse (Text.trim ("return 1" ++ " //" ++ " c") ++ ";")).result
      = .error (.error e) := by
  obtain ⟨e, herror⟩ :=
    Line.parse_append_comment_of_not_bears parse_return not_bearsComment_return " c"
  constructor
  · rcases parse_append_semicolon "return 1" (by decide) with
      ⟨node, hnode, hsame⟩ | ⟨e, e', hline, -⟩ | ⟨hline, -⟩
    · rw [parse_return] at hnode
      cases hnode
      exact hsame
    · rw [parse_return] at hline
      cases hline
    · rw [parse_return] at hline
      cases hline
  · rcases parse_append_semicolon ("return 1" ++ " //" ++ " c") (by decide) with
      ⟨node, hline, -⟩ | ⟨-, e', -, hsame⟩ | ⟨hline, -⟩
    · rw [herror] at hline
      cases hline
    · exact ⟨e', hsame⟩
    · rw [herror] at hline
      cases hline

end LineShell
