import LineShell.Proofs.Fragment.Lines
import LineShell.Proofs.Line.Attempts

/-!
# Lines with a comment behind them

A comment has no lexemes, so a line should mean the same with a comment behind it. It does if the
line has a comment already, ends in a semicolon or a closing brace, or is an expression or a
declaration. Otherwise the semicolon that the statement needs is added behind the comment, which
takes it, and the line has no node (`parse_append_comment`). Blanks that are no spacing are trimmed
at the end of a line, but not in front of a comment.

Statements are told apart from what stands behind them (`Stmt.WellFormed.unique`), so no statement
is left when its last semicolon is taken away.
-/

namespace LineShell

/-! ## Trimming -/

namespace Text

/-- The end of a text is trimmed in the last part of it that is not blank. -/
lemma trimEnd_append (t u : Text) :
    trimEnd (t ++ u) = if trimEnd u = [] then trimEnd t else t ++ trimEnd u := by
  by_cases hu : trimEnd u = []
  · rw [if_pos hu]
    induction t with
    | nil => rw [List.nil_append, hu, trimEnd]
    | cons c t ih => rw [List.cons_append, trimEnd, trimEnd, ih]
  · rw [if_neg hu]
    induction t with
    | nil => rfl
    | cons c t ih =>
        obtain ⟨d, rest, hrest⟩ := List.exists_cons_of_ne_nil
          (List.append_ne_nil_of_right_ne_nil t hu)
        rw [List.cons_append, trimEnd, ih, hrest, List.cons_append, hrest]

/-- Slashes are not blank. -/
lemma trimEnd_append_slashes (t c : Text) :
    trimEnd (t ++ ("//" ++ c)) = t ++ ("//" ++ trimEnd c) := by
  have hslashes : trimEnd ("//" ++ c) = "//" ++ trimEnd c := by
    rw [trimEnd_append]
    split
    · next hblank =>
      rw [hblank]
      rfl
    · rfl
  rw [trimEnd_append, if_neg (by rw [hslashes]; exact List.cons_ne_nil _ _), hslashes]

/-- The blanks that are trimmed at the end of a text. -/
def trailing (t : Text) : Text :=
  (t.dropWhile CodePoint.isBlank).drop t.trim.length

lemma dropWhile_isBlank_eq (t : Text) :
    t.dropWhile CodePoint.isBlank = t.trim ++ t.trailing ∧
      ∀ c ∈ t.trailing, c.isBlank = true := by
  obtain ⟨blanks, hblank, heq⟩ := exists_eq_trimEnd_append (t.dropWhile CodePoint.isBlank)
  change _ = t.trim ++ blanks at heq
  have htrailing : t.trailing = blanks := by
    rw [trailing, heq, List.drop_left]
  rw [htrailing]
  exact ⟨heq, hblank⟩

lemma dropWhile_isBlank_eq_nil_iff (t : Text) :
    t.dropWhile CodePoint.isBlank = [] ↔ t.trim = [] := by
  unfold trim
  constructor
  · intro h
    rw [h, trimEnd]
  · intro h
    obtain ⟨blanks, hblank, heq⟩ := exists_eq_trimEnd_append (t.dropWhile CodePoint.isBlank)
    rw [h, List.nil_append] at heq
    by_contra hne
    have hhead := List.head_dropWhile_not CodePoint.isBlank hne
    rw [hblank _ (heq ▸ List.head_mem hne)] at hhead
    cases hhead

/-- What is trimmed from a line with a comment: nothing between the line and the comment, unless the
line is blank. -/
lemma trim_append_comment (t c : Text) :
    (t ++ " //" ++ c).trim = if t.trim = [] then "//" ++ c.trimEnd
      else t.trim ++ (t.trailing ++ " //" ++ c.trimEnd) := by
  have hcomment : (" //" ++ c : Text).dropWhile CodePoint.isBlank = "//" ++ c := rfl
  rw [trim, List.append_assoc, List.dropWhile_append]
  by_cases hblank : t.trim = []
  · rw [if_pos hblank, (dropWhile_isBlank_eq_nil_iff t).mpr hblank, if_pos List.isEmpty_nil,
      hcomment]
    exact trimEnd_append_slashes [] c
  · have hvisible : ¬ (t.dropWhile CodePoint.isBlank).isEmpty = true := by
      rwa [List.isEmpty_iff, dropWhile_isBlank_eq_nil_iff]
    rw [if_neg hblank, if_neg hvisible, (dropWhile_isBlank_eq t).1]
    have hspace := trimEnd_append_slashes (t.trim ++ t.trailing ++ " ") c
    simp only [List.append_assoc] at hspace ⊢
    exact hspace

end Text

/-! ## Blanks in front of a comment -/

lemma CodePoint.ne_of_isBlank {c : CodePoint} (h : c.isBlank = true) {d : Char}
    (hd : (d : CodePoint).isBlank = false) : c ≠ d := by
  rintro rfl
  rw [hd] at h
  cases h

lemma CodePoint.hasDigitProperty_of_isBlank {c : CodePoint} (h : c.isBlank = true) :
    c.hasDigitProperty = false := by
  have htables : ∀ range ∈ blankTable, ∀ range' ∈ digitTable,
      range.2 < range'.1 ∨ range'.2 < range.1 := by decide +kernel
  by_contra hdigit
  rw [Bool.not_eq_false] at hdigit
  obtain ⟨range, hrange, hlow, hhigh⟩ := RangeTable.holds_iff.mp h
  obtain ⟨range', hrange', hlow', hhigh'⟩ := RangeTable.holds_iff.mp hdigit
  rcases htables range hrange range' hrange' with hlt | hlt
  · omega
  · omega

namespace Lexeme

variable {c : CodePoint}

lemma startsWord_of_isBlank (h : c.isBlank = true) : startsWord c = false := by
  by_contra hword
  rw [Bool.not_eq_false] at hword
  have hrange := val_of_startsWord hword
  rw [CodePoint.isBlank_of_between (by omega) (by omega)] at h
  cases h

lemma mayExtend_of_isBlank (h : c.isBlank = true) : mayExtend c = false := by
  have hdigit : c.isDigit = false := by
    by_contra hdigit
    rw [Bool.not_eq_false] at hdigit
    have hrange := CodePoint.within_iff.mp hdigit
    rw [CodePoint.isBlank_of_between (by omega) (by omega)] at h
    cases h
  apply mayExtend_of_ne
  · rw [continuesWord, startsWord_of_isBlank h, hdigit, Bool.or_false]
  · have hvisible : ∀ d ∈ ("=<>&|/.+-" : Text), d.isBlank = false := by decide
    rintro _ hd rfl
    rw [hvisible c hd] at h
    cases h

/-- No symbol starts with a blank. -/
lemma startOf?_of_isBlank (h : c.isBlank = true) (rest : Text) :
    Symbol.startOf? (c :: rest) = none := by
  have hvisible : ∀ s ∈ Symbol.longestFirst, s.text.head?.any CodePoint.isBlank = false := by
    decide +kernel
  unfold Symbol.startOf?
  rw [List.find?_eq_none]
  intro s hs hprefix
  rw [List.isPrefixOf_iff_prefix] at hprefix
  obtain ⟨d, tail, htext⟩ := List.exists_cons_of_ne_nil s.text_ne_nil
  have hhead := hvisible s hs
  rw [htext, List.cons_prefix_cons] at hprefix
  rw [htext, List.head?_cons, Option.any_some, hprefix.1, h] at hhead
  cases hhead

/-- A blank starts no lexeme. -/
lemma read_of_isBlank (h : c.isBlank = true) (rest : Text) :
    ∃ e, read c rest = .error (.error e) := by
  have hnumber : startsNumber c rest = false := by
    rw [startsNumber, CodePoint.hasDigitProperty_of_isBlank h,
      decide_eq_false (CodePoint.ne_of_isBlank h (by decide)), Bool.false_and, Bool.or_false]
  rw [read, if_neg (CodePoint.ne_of_isBlank h (by decide)),
    if_neg (CodePoint.ne_of_isBlank h (by decide)), if_neg (by simp [hnumber]),
    if_neg (by simp [startsWord_of_isBlank h]), startOf?_of_isBlank h]
  exact ⟨_, rfl⟩

end Lexeme

namespace Scan

open Text Lexeme

variable {pos : Nat} {blanks : Text}

lemma detached_of_isBlank (h : ∀ c ∈ blanks, c.isBlank = true) (t : Text) :
    Detached (blanks ++ " //" ++ t) := by
  cases blanks with
  | nil => exact detached_cons (by decide) (by decide) _
  | cons c blanks =>
      have hc := h c List.mem_cons_self
      exact detached_cons (mayExtend_of_isBlank hc) (CodePoint.hasDigitProperty_of_isBlank hc) _

/-- Spacing in front of a comment is skipped. -/
lemma after_spacing_comment (h : ∀ c ∈ blanks, c.isSpacing = true) (pos : Nat) (t : Text) :
    after pos (blanks ++ " //" ++ t) = .ok ⟨[], "//" ++ t⟩ := by
  induction blanks generalizing pos with
  | nil =>
      have hcomment : startsComment ("//" ++ t) = true := by
        rw [startsComment, List.isPrefixOf_iff_prefix]
        exact List.prefix_append _ t
      show after pos ((' ' : Char) :: ("//" ++ t)) = _
      rw [after, if_pos (by decide), after_of_startsComment hcomment]
  | cons c blanks ih =>
      rw [List.forall_mem_cons] at h
      rw [List.cons_append, List.cons_append, after, if_pos h.1, ih h.2]

/-- A blank that is no spacing cannot be scanned. -/
lemma after_blank (hblank : ∀ c ∈ blanks, c.isBlank = true)
    (h : ∃ c ∈ blanks, c.isSpacing = false) (pos : Nat) (rest : Text) :
    ∃ e, after pos (blanks ++ rest) = .error (.error e) := by
  induction blanks generalizing pos with
  | nil =>
      obtain ⟨c, hc, -⟩ := h
      cases hc
  | cons c blanks ih =>
      rw [List.forall_mem_cons] at hblank
      rw [List.cons_append]
      by_cases hc : c.isSpacing = true
      · obtain ⟨d, hd, hspacing⟩ := h
        rw [after, if_pos hc]
        refine ih hblank.2 ⟨d, (List.mem_cons.mp hd).resolve_left ?_, hspacing⟩ (pos + 1)
        rintro rfl
        rw [hspacing] at hc
        cases hc
      · rw [Bool.not_eq_true] at hc
        obtain ⟨e, hread⟩ := read_of_isBlank hblank.1 (blanks ++ rest)
        rw [after_of_failure hc
          (startsComment_of_ne (CodePoint.ne_of_isBlank hblank.1 (by decide)) _) hread]
        exact ⟨_, rfl⟩

/-- A comment behind a text, with spacing in between, adds no lexemes. -/
lemma Splits.append_comment {t : Text} {ls : List Lexeme} (h : Splits t ls)
    (hblank : ∀ c ∈ blanks, c.isBlank = true)
    (hends : meetsComment t = true ∨ ∀ c ∈ blanks, c.isSpacing = true) (c : Text) :
    Splits (t ++ (blanks ++ " //" ++ c)) ls := by
  have hdetached := detached_of_isBlank hblank c
  by_cases hcomment : meetsComment t = true
  · exact (splits_append_of_meetsComment hcomment hdetached).mpr h
  · have hspacing := hends.resolve_left hcomment
    rw [Bool.not_eq_true] at hcomment
    have hnone : Splits (blanks ++ " //" ++ c) [] :=
      splits_of_after (after_spacing_comment hspacing 0 c)
    exact (h.append_iff hcomment hdetached).mpr ⟨[], (List.append_nil ls).symm, hnone⟩

/-- With a blank in between that is no spacing, the text cannot be scanned any more. -/
lemma ofSource_append_blank {t : Text} {ls : List Lexeme} (h : Splits t ls)
    (hcomment : meetsComment t = false) (hblank : ∀ c ∈ blanks, c.isBlank = true)
    (hends : ∃ c ∈ blanks, c.isSpacing = false) (c : Text) :
    ∃ e, ofSource (t ++ (blanks ++ " //" ++ c)) = .error (.error e) := by
  obtain ⟨tokens, hscan, -⟩ := exists_ofSource_of_splits h hcomment
  obtain ⟨e, he⟩ := after_blank hblank hends (0 + t.length) (" //" ++ c)
  rw [← List.append_assoc] at he
  refine ⟨e, ?_⟩
  rw [ofSource, after_append hscan (detached_of_isBlank hblank c), he]
  rfl

end Scan

/-! ## What stands behind a statement -/

/-- Lexemes that start with a statement do so in one way. -/
lemma Stmt.WellFormed.unique {s s' : Stmt} (hs : s.WellFormed) (hs' : s'.WellFormed)
    {rest rest' : List Lexeme} (heq : s.lexemes ++ rest = s'.lexemes ++ rest')
    (helse : rest.head? ≠ some (.keyword .elseWord))
    (helse' : rest'.head? ≠ some (.keyword .elseWord)) : s = s' ∧ rest = rest' := by
  obtain ⟨h, htakes⟩ := Parser.statement_complete hs rest fun _ => helse
  obtain ⟨h', htakes'⟩ := Parser.statement_complete hs' rest' fun _ => helse'
  generalize s.lexemes ++ rest = ts at *
  subst heq
  rw [htakes] at htakes'
  cases htakes'
  exact ⟨rfl, rfl⟩

namespace Line

open Text

variable {line : Text} {node : Node} {ls ls' front : List Lexeme}

/-! ## Lines that can be scanned -/

/-- A source that can be scanned has a tree, or an error instead of one. -/
lemma parse_eq_error_of_splits {source : Text} (h : Scan.Splits source ls) {α : Type}
    {parser : List Lexeme → Except GrammarError α}
    (hne : ∀ tree, Scan.parse parser source ≠ .ok tree) :
    ∃ e, Scan.parse parser source = .error (.error e) := by
  obtain ⟨scan, hscan, -⟩ := Scan.after_of_splits h 0
  unfold Scan.parse at hne ⊢
  rw [show Scan.ofSource source = _ from hscan] at hne ⊢
  dsimp only at hne ⊢
  split
  · exact ⟨_, rfl⟩
  · next tree htree => exact absurd (by rw [htree]) (hne tree)

/-- What comes of a line that can be scanned depends on the lexemes of the two texts that are
tried. -/
lemma parse_eq_ok_iff_of_splits (h : Scan.Splits (closed line.trim) ls)
    (h' : Scan.Splits line.trim ls') :
    (parse line).result = .ok node ↔
      (∃ s : Stmt, s.WellFormed ∧ s.lexemes = ls ∧ node = .stmt s) ∨
      ((¬ ∃ s : Stmt, s.WellFormed ∧ s.lexemes = ls) ∧
        ∃ e : Expr, e.Declarative ∧ e.lexemes = ls' ∧ node = .stmt (.expr e)) := by
  have hstmt : ∀ s, Stmt.ofSource (closed line.trim) = .ok s ↔ s.WellFormed ∧ s.lexemes = ls := by
    intro s
    rw [Stmt.ofSource_eq_ok_iff]
    exact and_congr_right fun _ => ⟨fun hs => hs.unique h, fun hs => hs ▸ h⟩
  have hexpr : ∀ e, Expr.ofSource line.trim = .ok e ↔ e.Declarative ∧ e.lexemes = ls' := by
    intro e
    rw [Expr.ofSource_eq_ok_iff]
    exact and_congr_right fun _ => ⟨fun he => he.unique h', fun he => he ▸ h'⟩
  have herror : (∃ e, Stmt.ofSource (closed line.trim) = .error (.error e)) ↔
      ¬ ∃ s : Stmt, s.WellFormed ∧ s.lexemes = ls := by
    simp only [← hstmt]
    constructor
    · rintro ⟨e, he⟩ ⟨s, hs⟩
      rw [he] at hs
      cases hs
    · intro hne
      exact parse_eq_error_of_splits h fun s hs => hne ⟨s, hs⟩
  rw [parse_eq_ok_iff, herror]
  simp only [hstmt, hexpr, and_assoc]

/-- Such a line has a node, or an error instead of one. -/
lemma parse_eq_error_of_splits_trim (h : Scan.Splits (closed line.trim) ls)
    (h' : Scan.Splits line.trim ls') (hne : ∀ node, (parse line).result ≠ .ok node) :
    ∃ e, (parse line).result = .error (.error e) := by
  have hattempt : ∀ s, Stmt.ofSource (closed line.trim) ≠ .ok s :=
    fun s hs => hne _ (parse_eq_ok_iff.mpr (.inl ⟨s, hs, rfl⟩))
  obtain ⟨e, he⟩ := parse_eq_error_of_splits h hattempt
  have hfallback : ∀ found, Expr.ofSource line.trim ≠ .ok found :=
    fun found hfound => hne _ (parse_eq_ok_iff.mpr (.inr ⟨⟨e, he⟩, found, hfound, rfl⟩))
  obtain ⟨e', he'⟩ := parse_eq_error_of_splits h' hfallback
  unfold parse
  rw [show Stmt.ofSource (closed line.trim) = _ from he, show Expr.ofSource line.trim = _ from he']
  exact ⟨e', rfl⟩

/-- Nor does a line that cannot be scanned have a node. -/
lemma parse_eq_error_of_ofSource {e e' : LexicalError}
    (h : Scan.ofSource (closed line.trim) = .error (.error e))
    (h' : Scan.ofSource line.trim = .error (.error e')) :
    ∃ e, (parse line).result = .error (.error e) := by
  simp only [parse, Stmt.ofSource, Expr.ofSource, Scan.parse, h, h', Failure.map, Except.map]
  exact ⟨_, rfl⟩

/-! ## Lines with a comment -/

/-- The text of a line with a node can be scanned, also without the semicolon that is added. -/
lemma exists_splits_of_parse (h : (parse line).result = .ok node) :
    ∃ front, Scan.Splits line.trim front := by
  rcases parse_eq_ok_iff.mp h with ⟨s, hs, -⟩ | ⟨-, e, he, -⟩
  · have hsplits := (Stmt.ofSource_eq_ok_iff.mp hs).2
    rcases closed_eq_or line.trim with hclosed | hclosed
    · rw [hclosed] at hsplits
      exact ⟨_, hsplits⟩
    · rw [hclosed] at hsplits
      exact Scan.exists_splits_of_append hsplits (Scan.detached_closer (s := .semicolon) rfl)
        (Scan.quoteless_closer (s := .semicolon) rfl)
  · exact ⟨_, (Expr.ofSource_eq_ok_iff.mp he).2⟩

/-- A semicolon is added neither to a closed text nor, as a lexeme, behind a comment. -/
lemma splits_closed (h : Scan.Splits line.trim front)
    (hends : Scan.meetsComment line.trim = true ∨ isClosed line.trim = true) :
    Scan.Splits (closed line.trim) front := by
  rcases closed_eq_or line.trim with hclosed | hclosed
  · rwa [hclosed]
  · rcases hends with hcomment | hends
    · rw [hclosed]
      exact (Scan.splits_append_of_meetsComment hcomment
        (Scan.detached_closer (s := .semicolon) rfl)).mpr h
    · rwa [closed, if_pos hends]

/-- Otherwise it is the last lexeme. -/
lemma splits_closed_append (h : Scan.Splits line.trim front)
    (hends : ¬ (Scan.meetsComment line.trim = true ∨ isClosed line.trim = true)) :
    Scan.Splits (closed line.trim) (front ++ [.symbol .semicolon]) := by
  rw [not_or, Bool.not_eq_true] at hends
  rw [closed, if_neg hends.2]
  exact (Scan.splits_append_closer_iff (s := .semicolon) rfl hends.1).mpr ⟨front, rfl, h⟩

/-- A comment behind a line adds no lexemes, to neither of the texts that are tried. -/
lemma splits_append_comment (h : Scan.Splits line.trim front)
    (hends : Scan.meetsComment line.trim = true ∨ ∀ c ∈ line.trailing, c.isSpacing = true)
    (c : Text) :
    Scan.Splits (closed (line ++ " //" ++ c).trim) front ∧
      Scan.Splits (line ++ " //" ++ c).trim front := by
  -- The added semicolon only makes the comment longer.
  suffices hall : ∀ t, t = (line ++ " //" ++ c).trim ∨ t = (line ++ " //" ++ c).trim ++ ";" →
      Scan.Splits t front by
    refine ⟨hall _ ?_, hall _ (.inl rfl)⟩
    exact closed_eq_or _
  intro t ht
  rw [trim_append_comment] at ht
  by_cases hblank : line.trim = []
  · have hnil : Scan.Splits line.trim [] := hblank ▸ .nil
    rw [h.unique hnil]
    rw [if_pos hblank] at ht
    apply Scan.Splits.comment
    rw [Scan.startsComment, List.isPrefixOf_iff_prefix]
    rcases ht with rfl | rfl
    · exact List.prefix_append _ _
    · rw [List.append_assoc]
      exact List.prefix_append _ _
  · have hcomment := h.append_comment (dropWhile_isBlank_eq line).2 hends
    rw [if_neg hblank] at ht
    rcases ht with rfl | rfl
    · exact hcomment c.trimEnd
    · have hlonger := hcomment (c.trimEnd ++ ";")
      simpa only [List.append_assoc] using hlonger

/-- A blank between a line and a comment is no longer trimmed. Unless it is spacing, neither of the
texts that are tried can be scanned. -/
lemma ofSource_append_comment_of_blank (h : Scan.Splits line.trim front)
    (hcomment : Scan.meetsComment line.trim = false)
    (hspacing : ¬ ∀ c ∈ line.trailing, c.isSpacing = true) (c : Text) {t : Text}
    (ht : t = (line ++ " //" ++ c).trim ∨ t = (line ++ " //" ++ c).trim ++ ";") :
    ∃ e, Scan.ofSource t = .error (.error e) := by
  have hends : ∃ c ∈ line.trailing, c.isSpacing = false := by
    by_contra hnone
    apply hspacing
    intro d hd
    by_contra hspace
    exact hnone ⟨d, hd, by simpa using hspace⟩
  have hvisible : line.trim ≠ [] := by
    intro hblank
    obtain ⟨d, hd, -⟩ := hends
    rw [trailing, (dropWhile_isBlank_eq_nil_iff line).mpr hblank, List.drop_nil] at hd
    cases hd
  have hblank := Scan.ofSource_append_blank h hcomment (dropWhile_isBlank_eq line).2 hends
  rw [trim_append_comment, if_neg hvisible] at ht
  rcases ht with rfl | rfl
  · exact hblank c.trimEnd
  · have hlonger := hblank (c.trimEnd ++ ";")
    simpa only [List.append_assoc] using hlonger

/-- The line means the same with a comment behind it: it has a comment already, or only spacing is
trimmed from its end and it needs no semicolon, either because it is closed or because it is an
expression or a declaration. -/
def BearsComment (line : Text) (node : Node) : Prop :=
  Scan.meetsComment line.trim = true ∨
    (∀ c ∈ line.trailing, c.isSpacing = true) ∧
      (isClosed line.trim = true ∨ ∃ e, node = .stmt (.expr e))

/-- No statement has the lexemes of another one without the semicolon at its end. -/
lemma lexemes_ne_of_append {s s' : Stmt} (hs : s.WellFormed) (hs' : s'.WellFormed)
    (heq : s.lexemes = front ++ [.symbol .semicolon]) : s'.lexemes ≠ front := by
  rintro rfl
  rw [← List.append_nil s.lexemes] at heq
  obtain ⟨-, hrest⟩ := hs.unique hs' heq (by simp) (by simp)
  cases hrest

lemma parse_append_comment_of_bears (h : (parse line).result = .ok node)
    (hbears : BearsComment line node) (c : Text) :
    (parse (line ++ " //" ++ c)).result = .ok node := by
  obtain ⟨front, hfront⟩ := exists_splits_of_parse h
  obtain ⟨hattempt, hfallback⟩ := splits_append_comment hfront (hbears.imp_right And.left) c
  rw [parse_eq_ok_iff_of_splits hattempt hfallback]
  by_cases hends : Scan.meetsComment line.trim = true ∨ isClosed line.trim = true
  · rwa [parse_eq_ok_iff_of_splits (splits_closed hfront hends) hfront] at h
  · -- The statement attempt fails now, but the expression is found in its place.
    rw [parse_eq_ok_iff_of_splits (splits_closed_append hfront hends) hfront] at h
    rw [not_or] at hends
    obtain ⟨e, rfl⟩ := (hbears.resolve_left hends.1).2.resolve_left hends.2
    have he : e.Declarative ∧ e.lexemes = front := by
      rcases h with ⟨s, hs, hlexemes, heq⟩ | ⟨-, e', he', hlexemes, heq⟩
      · cases heq
        exact ⟨Stmt.wellFormed_expr_iff.mp hs, List.append_cancel_right hlexemes⟩
      · cases heq
        exact ⟨he', hlexemes⟩
    right
    refine ⟨?_, e, he.1, he.2, rfl⟩
    rintro ⟨s', hs', hlexemes⟩
    refine lexemes_ne_of_append (s := .expr e) (.expr he.1) hs' ?_ hlexemes
    rw [Stmt.lexemes, he.2]

lemma parse_append_comment_of_not_bears (h : (parse line).result = .ok node)
    (hbears : ¬ BearsComment line node) (c : Text) :
    ∃ e, (parse (line ++ " //" ++ c)).result = .error (.error e) := by
  obtain ⟨front, hfront⟩ := exists_splits_of_parse h
  obtain ⟨hcomment, hneeds⟩ := not_or.mp hbears
  by_cases hspacing : ∀ c ∈ line.trailing, c.isSpacing = true
  · have hends : ¬ (isClosed line.trim = true ∨ ∃ e, node = .stmt (.expr e)) :=
      fun hends => hneeds ⟨hspacing, hends⟩
    rw [not_or] at hends
    rw [parse_eq_ok_iff_of_splits (splits_closed_append hfront
      (not_or.mpr ⟨hcomment, hends.1⟩)) hfront] at h
    rcases h with ⟨s, hs, hlexemes, rfl⟩ | ⟨-, e, -, -, heq⟩
    · obtain ⟨hattempt, hfallback⟩ := splits_append_comment hfront (.inr hspacing) c
      apply parse_eq_error_of_splits_trim hattempt hfallback
      intro found hfound
      rw [parse_eq_ok_iff_of_splits hattempt hfallback] at hfound
      rcases hfound with ⟨s', hs', hlexemes', -⟩ | ⟨-, e, he, hlexemes', -⟩
      · exact lexemes_ne_of_append hs hs' hlexemes hlexemes'
      · -- The expression with a semicolon would be the statement.
        have hsame : s.lexemes ++ [] = (Stmt.expr e).lexemes ++ [] := by
          rw [hlexemes, Stmt.lexemes, hlexemes']
        obtain ⟨rfl, -⟩ := hs.unique (.expr he) hsame (by simp) (by simp)
        exact hends.2 ⟨e, rfl⟩
    · exact absurd ⟨e, heq⟩ hends.2
  · rw [Bool.not_eq_true] at hcomment
    obtain ⟨e, he⟩ := ofSource_append_comment_of_blank hfront hcomment hspacing c (closed_eq_or _)
    obtain ⟨e', he'⟩ := ofSource_append_comment_of_blank hfront hcomment hspacing c (.inl rfl)
    exact parse_eq_error_of_ofSource he he'

end Line

/-- A line with a node has the same node with a comment behind it, if it has a comment already or if
it needs no semicolon and only spacing stands at its end. Otherwise it has an error instead. -/
theorem parse_append_comment (line c : Text) (node : Node)
    (h : (Line.parse line).result = .ok node) :
    (Line.BearsComment line node → (Line.parse (line ++ " //" ++ c)).result = .ok node) ∧
    (¬ Line.BearsComment line node →
      ∃ e, (Line.parse (line ++ " //" ++ c)).result = .error (.error e)) := by
  constructor
  · intro hbears
    exact Line.parse_append_comment_of_bears h hbears c
  · intro hbears
    exact Line.parse_append_comment_of_not_bears h hbears c

/-- The line `return 1` is parsed. -/
lemma parse_return :
    (Line.parse "return 1").result = .ok (.stmt (.returnValue (.literal ⟨.int, "1"⟩))) := by
  have hone : Scan.Splits "1;" [.literal ⟨.int, "1"⟩, .symbol .semicolon] :=
    .lexeme ⟨_, _, 1, rfl, by decide, by decide, rfl, rfl⟩
      (.lexeme ⟨_, _, 1, rfl, by decide, by decide, rfl, rfl⟩ .nil)
  have hreturn : Stmt.ofSource "return 1;" = .ok (.returnValue (.literal ⟨.int, "1"⟩)) := by
    rw [Stmt.ofSource_eq_ok_iff]
    exact ⟨.returnValue (.literal _), .lexeme ⟨_, _, 6, rfl, by decide, by decide, rfl, rfl⟩
      (.spacing (by decide) hone)⟩
  exact Line.parse_eq_ok_iff.mpr (.inl ⟨_, hreturn, rfl⟩)

/-- It bears no comment, since it needs a semicolon. -/
lemma not_bearsComment_return :
    ¬ Line.BearsComment "return 1" (.stmt (.returnValue (.literal ⟨.int, "1"⟩))) := by
  have hcomment : Scan.meetsComment ("return 1" : Text).trim = false :=
    Scan.meetsComment_of_not_mem (by decide)
  rintro (hmeets | ⟨-, hclosed | ⟨e, he⟩⟩)
  · rw [hcomment] at hmeets
    cases hmeets
  · exact absurd hclosed (by decide)
  · cases he

/-- A comment can change what a line means: `return 1` has a node, and none with a comment. -/
theorem comment_changes_return :
    ¬ ∀ (line c : Text) (node : Node), Scan.meetsComment line = false →
      (Line.parse line).result = .ok node →
        (Line.parse (line ++ " //" ++ c)).result = .ok node := by
  intro hall
  have hsame := hall "return 1" " c" _ (Scan.meetsComment_of_not_mem (by decide)) parse_return
  obtain ⟨e, he⟩ := Line.parse_append_comment_of_not_bears parse_return not_bearsComment_return " c"
  rw [he] at hsame
  cases hsame

/-- A name keeps its node, although the semicolon lands in the comment; `return 1` does not. -/
theorem parse_append_comment_name :
    (Line.parse (("x" : Text) ++ " //" ++ " c")).result = .ok (.stmt (.expr (.name "x"))) ∧
    ∃ e, (Line.parse (("return 1" : Text) ++ " //" ++ " c")).result = .error (.error e) := by
  have hname : Stmt.ofSource "x;" = .ok (.expr (.name "x")) := by
    rw [Stmt.ofSource_eq_ok_iff]
    exact ⟨.expr (.expr (.name _)), .lexeme ⟨_, _, 1, rfl, by decide, by decide, rfl, rfl⟩
      (.lexeme ⟨_, _, 1, rfl, by decide, by decide, rfl, rfl⟩ .nil)⟩
  have hline : (Line.parse "x").result = .ok (.stmt (.expr (.name "x"))) :=
    Line.parse_eq_ok_iff.mpr (.inl ⟨_, hname, rfl⟩)
  constructor
  · exact (parse_append_comment "x" " c" _ hline).1 (.inr ⟨by decide, .inr ⟨_, rfl⟩⟩)
  · exact (parse_append_comment "return 1" " c" _ parse_return).2 not_bearsComment_return

end LineShell
