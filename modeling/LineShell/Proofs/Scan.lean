import LineShell.Proofs.Lexeme.Spelling
import LineShell.Scan

/-!
# Splitting a text into lexemes

`Scan.Splits` relates a text to its lexemes and leaves positions and the comment out. It is what
scanning finds, from every position (`exists_after_iff`). A lexeme is taken off the front of a
text by `Scan.Reads`, and every lexeme of a text has a spelling (`Splits.spelled`).
-/

namespace LineShell

namespace Scan

/-- The lexeme `x` is read at the start of the text, and `rest` stands behind it. -/
def Reads (t : Text) (x : Lexeme) (rest : Text) : Prop :=
  ∃ c tail width, t = c :: tail ∧ c.isSpacing = false ∧ startsComment t = false ∧
    Lexeme.read c tail = .ok ⟨x, width⟩ ∧ tail.drop (width - 1) = rest

/-- The text has these lexemes. -/
inductive Splits : Text → List Lexeme → Prop
  /-- The empty text has none. -/
  | nil : Splits [] []
  /-- Spacing in front of lexemes is skipped. -/
  | spacing {c : CodePoint} {rest : Text} {ls : List Lexeme} (hc : c.isSpacing = true)
      (h : Splits rest ls) : Splits (c :: rest) ls
  /-- A comment has no lexemes. -/
  | comment {t : Text} (ht : startsComment t = true) : Splits t []
  /-- A lexeme is followed by the lexemes of the rest. -/
  | lexeme {t rest : Text} {x : Lexeme} {ls : List Lexeme} (hx : Reads t x rest)
      (h : Splits rest ls) : Splits t (x :: ls)

/-- Two slashes are no spacing. -/
lemma isSpacing_of_startsComment {c : CodePoint} {rest : Text}
    (h : startsComment (c :: rest) = true) : c.isSpacing = false := by
  rw [startsComment, List.isPrefixOf_iff_prefix] at h
  obtain ⟨tail, htail⟩ := h
  cases htail
  decide

/-! ## Scanning -/

lemma splits_of_after {pos : Nat} {t : Text} {scan : Scan} (h : after pos t = .ok scan) :
    Splits t scan.lexemes := by
  fun_induction after pos t generalizing scan with
  | case1 =>
      cases h
      exact .nil
  | case2 pos c rest hc ih => exact .spacing hc (ih h)
  | case3 pos c rest hc hcomment =>
      cases h
      exact .comment hcomment
  | case4 => cases h
  | case5 => cases h
  | case6 pos c rest hc hcomment reading hread inner hinner ih =>
      cases h
      refine .lexeme ⟨c, rest, reading.width, rfl, ?_, ?_, hread, rfl⟩ (ih hinner)
      · simpa using hc
      · simpa using hcomment

lemma after_of_splits {t : Text} {ls : List Lexeme} (h : Splits t ls) (pos : Nat) :
    ∃ scan, after pos t = .ok scan ∧ scan.lexemes = ls := by
  induction h generalizing pos with
  | nil =>
      rw [after]
      exact ⟨_, rfl, rfl⟩
  | @spacing c rest ls hc h ih =>
      rw [after, if_pos hc]
      exact ih (pos + 1)
  | @comment t ht =>
      cases t with
      | nil => cases ht
      | cons c rest =>
          rw [after, if_neg (by simp [isSpacing_of_startsComment ht]), if_pos ht]
          exact ⟨_, rfl, rfl⟩
  | @lexeme t rest x ls hx h ih =>
      obtain ⟨c, tail, width, rfl, hc, hcomment, hread, rfl⟩ := hx
      obtain ⟨scan, hscan, hlexemes⟩ := ih (pos + width)
      rw [after, if_neg (by simp [hc]), if_neg (by simp [hcomment])]
      simp only [hread, hscan]
      exact ⟨_, rfl, by rw [← hlexemes]; rfl⟩

/-- From every position the scan of a text finds the lexemes of the text. -/
lemma exists_after_iff {t : Text} {ls : List Lexeme} (pos : Nat) :
    (∃ scan, after pos t = .ok scan ∧ scan.lexemes = ls) ↔ Splits t ls := by
  constructor
  · rintro ⟨scan, hscan, rfl⟩
    exact splits_of_after hscan
  · exact fun h => after_of_splits h pos

/-! ## Taking lexemes off the front -/

lemma splits_spacing_iff {c : CodePoint} (hc : c.isSpacing = true) {rest : Text}
    {ls : List Lexeme} : Splits (c :: rest) ls ↔ Splits rest ls := by
  constructor
  · intro h
    cases h with
    | spacing _ h => exact h
    | comment ht => exact absurd hc (by simp [isSpacing_of_startsComment ht])
    | lexeme hx h =>
        obtain ⟨d, tail, width, heq, hd, -⟩ := hx
        cases heq
        exact absurd hc (by simp [hd])
  · exact .spacing hc

/-- A lexeme is read in one way. -/
lemma Reads.unique {t rest rest' : Text} {x x' : Lexeme} (h : Reads t x rest)
    (h' : Reads t x' rest') : x = x' ∧ rest = rest' := by
  obtain ⟨c, tail, width, rfl, -, -, hread, rfl⟩ := h
  obtain ⟨d, tail', width', heq, -, -, hread', rfl⟩ := h'
  cases heq
  rw [hread] at hread'
  cases hread'
  exact ⟨rfl, rfl⟩

/-- Where a lexeme is read, the lexemes of the text are that one and those of the rest. -/
lemma Reads.splits_iff {t rest : Text} {x : Lexeme} (hx : Reads t x rest) {ls : List Lexeme} :
    Splits t ls ↔ ∃ ls', ls = x :: ls' ∧ Splits rest ls' := by
  constructor
  · intro h
    cases h with
    | nil =>
        obtain ⟨c, tail, width, hnil, -⟩ := hx
        cases hnil
    | spacing hc h =>
        obtain ⟨c, tail, width, heq, hc', -⟩ := hx
        cases heq
        exact absurd hc (by simp [hc'])
    | comment ht =>
        obtain ⟨c, tail, width, heq, -, hcomment, -⟩ := hx
        exact absurd ht (by simp [hcomment])
    | lexeme hy h =>
        obtain ⟨rfl, rfl⟩ := hx.unique hy
        exact ⟨_, rfl, h⟩
  · rintro ⟨ls', rfl, h⟩
    exact .lexeme hx h

lemma Reads.splits_cons_iff {t rest : Text} {x : Lexeme} (hx : Reads t x rest)
    {ls : List Lexeme} : Splits t (x :: ls) ↔ Splits rest ls := by
  rw [hx.splits_iff]
  simp

/-! ## Lexemes of a text -/

lemma Reads.spelled {t rest : Text} {x : Lexeme} (h : Reads t x rest) : x.Spelled := by
  obtain ⟨c, tail, width, -, -, -, hread, -⟩ := h
  exact Lexeme.spelled_of_read hread

/-- Every lexeme of a text has a spelling. -/
lemma Splits.spelled {t : Text} {ls : List Lexeme} (h : Splits t ls) : ∀ x ∈ ls, x.Spelled := by
  induction h with
  | nil => simp
  | spacing _ _ ih => exact ih
  | comment _ => simp
  | lexeme hx _ ih => exact List.forall_mem_cons.mpr ⟨hx.spelled, ih⟩

end Scan

end LineShell
