import LineShell.Proofs.Lexeme.Reading
import LineShell.Proofs.Tree.Drift
import LineShell.Proofs.Tree.Grammar

/-!
# The pieces of a rendering

Literals, names and symbols are read back from a rendering because of what follows them there:
nothing, a blank, a parenthesis, a comma, a semicolon or a dot (`Text.Separated`). A literal that
drifts is not, nor is an integer in front of a dot (`splits_literal_iff`). Symbols are followed by
the first code point of an expression, which goes on with none of them (`continuesSymbol`).
-/

namespace LineShell

/-! ## What follows a tree -/

namespace Text

/-- What can stand behind an expression or a name in a rendering. -/
def separators : List CodePoint :=
  [(' ' : Char), ('(' : Char), (')' : Char), (',' : Char), (';' : Char), ('.' : Char)]

/-- The text is empty or starts with a separator. -/
def Separated (rest : Text) : Prop :=
  ∀ c, rest.head? = some c → c ∈ separators

lemma separated_cons {c : CodePoint} (hc : c ∈ separators) (rest : Text) :
    Separated (c :: rest) := by
  intro d hd
  cases hd
  exact hc

lemma Separated.endsRun {rest : Text} (h : Separated rest) {p : CodePoint → Bool}
    (hp : ∀ c ∈ separators, p c = false) : EndsRun p rest :=
  fun c hc => hp c (h c hc)

/-- The text starts with a dot. -/
def StartsWithDot (rest : Text) : Prop :=
  rest.head? = some (('.' : Char) : CodePoint)

/-- The text starts with a separator other than the dot, or it is empty. -/
structure Closes (rest : Text) : Prop where
  /-- The text starts with a separator, if it starts at all. -/
  separated : Separated rest
  /-- The separator is no dot. -/
  not_dot : ¬ StartsWithDot rest

lemma closes_nil : Closes [] :=
  ⟨by simp [Separated], by simp [StartsWithDot]⟩

lemma closes_append {t : Text}
    (ht : t.head?.any (fun c => decide (c ∈ separators ∧ c ≠ ('.' : Char))) = true)
    (rest : Text) : Closes (t ++ rest) := by
  cases t with
  | nil => cases ht
  | cons c t =>
      have hc : c ∈ separators ∧ c ≠ ('.' : Char) := of_decide_eq_true ht
      refine ⟨separated_cons hc.1 _, ?_⟩
      intro hdot
      exact hc.2 (Option.some.inj hdot)

end Text

open Text Scan

/-! ## How renderings start -/

lemma Lexeme.IsWord.endsRun {word : Text} (h : Lexeme.IsWord word) {p : CodePoint → Bool}
    (hp : ∀ c, Lexeme.startsWord c = true → p c = false) (rest : Text) :
    EndsRun p (word ++ rest) := by
  obtain ⟨c, hhead, hc⟩ := h.starts
  obtain ⟨tail, rfl⟩ := List.head?_eq_some_iff.mp hhead
  exact endsRun_cons (hp c hc) _

/-- No word goes on with a symbol. -/
lemma Lexeme.continuesSymbol_of_startsWord {c : CodePoint} (h : Lexeme.startsWord c = true) :
    continuesSymbol c = false := by
  have hne : ∀ d : Char, Lexeme.startsWord d = false → c ≠ d := by
    rintro d hd rfl
    rw [h] at hd
    cases hd
  unfold continuesSymbol
  simp [hne '=' (by decide), hne '<' (by decide), hne '>' (by decide), hne '&' (by decide),
    hne '|' (by decide), hne '/' (by decide)]

/-! ## Literals -/

/-- The text of a numeral without point and exponent is a run of digits. -/
lemma Numeral.WellFormed.digits_of_isInteger {n : Numeral} (hn : n.WellFormed)
    (h : n.isInteger = true) : n.text ≠ [] ∧ ∀ c ∈ n.text, c.isDigit = true := by
  obtain ⟨whole, fraction, exponent⟩ := n
  unfold Numeral.isInteger at h
  simp only [Bool.and_eq_true, Option.isNone_iff_eq_none] at h
  obtain ⟨rfl, rfl⟩ := h
  rw [Numeral.text_digits]
  exact ⟨fun hnil => hn.ne_nil ⟨hnil, rfl⟩, hn.whole⟩

/-- Digits are read as an integer, unless a point follows. -/
lemma reads_integer {digits : Text} (hdigits : ∀ c ∈ digits, c.isDigit = true)
    (hne : digits ≠ []) {rest : Text} (hrest : Separated rest)
    (hpoint : ¬ StartsWithDot rest) :
    Reads (digits ++ rest) (.literal ⟨.int, digits⟩) rest := by
  have hreads := reads_number (Numeral.wellFormed_digits hne hdigits) (hrest.endsRun (by decide))
    (hrest.endsRun (by decide)) fun _ => hpoint
  rw [Numeral.text_digits] at hreads
  exact hreads

/-- Digits in front of a point are not split into a literal of these digits and something else. -/
lemma not_splits_integer {digits : Text} (hdigits : ∀ c ∈ digits, c.isDigit = true)
    (hne : digits ≠ []) {rest : Text} (hpoint : StartsWithDot rest)
    {kind : LiteralKind} {ls : List Lexeme} :
    ¬ Splits (digits ++ rest) (.literal ⟨kind, digits⟩ :: ls) := by
  obtain ⟨rest, rfl⟩ := List.head?_eq_some_iff.mp hpoint
  intro h
  obtain ⟨d, tail, rfl⟩ := List.exists_cons_of_ne_nil hne
  have hd := hdigits d List.mem_cons_self
  cases h with
  | spacing hspacing _ =>
      unfold CodePoint.isSpacing at hspacing
      simp only [Bool.or_eq_true, decide_eq_true_eq] at hspacing
      rcases hspacing with (((rfl | rfl) | rfl) | rfl) | rfl <;> exact absurd hd (by decide)
  | lexeme hx _ => exact integer_ne_of_reads hdigits hne hx

/-- A literal is read back from its rendering, if it does not lose its suffix and no point goes on
with it. -/
lemma reads_literal {l : Literal} (hl : l.Spelled) {rest : Text} (hrest : Separated rest)
    (hdrift : ¬ (Expr.literal l).Drifts)
    (hpoint : l.kind = .int → ¬ StartsWithDot rest) :
    Reads (l.render ++ rest) (.literal l) rest := by
  have hends : EndsRun Lexeme.continuesWord rest := hrest.endsRun (by decide)
  obtain ⟨kind, t⟩ := l
  cases kind with
  | int =>
      obtain ⟨n, hn, hinteger, rfl⟩ := hl
      obtain ⟨hne, hdigits⟩ := hn.digits_of_isInteger hinteger
      exact reads_integer hdigits hne hrest (hpoint rfl)
  | long =>
      obtain ⟨n, hn, hinteger, rfl⟩ := hl
      have hkind : Lexeme.suffixKind? ('L' : Char) = some .long := rfl
      rw [Literal.render, List.append_assoc]
      exact reads_suffixed hn hkind (fun _ => hinteger) rest
  | float =>
      obtain ⟨n, hn, rfl⟩ := hl
      have hkind : Lexeme.suffixKind? ('f' : Char) = some .float := rfl
      rw [Literal.render, List.append_assoc]
      exact reads_suffixed hn hkind (by simp) rest
  | double =>
      obtain ⟨n, hn, rfl⟩ := hl
      have hinteger : n.isInteger = false := by
        by_contra h
        rw [Bool.not_eq_false] at h
        exact hdrift (hn.digits_of_isInteger h).2
      have hreads := reads_number hn (hrest.endsRun (by decide)) (hrest.endsRun (by decide))
        fun h => absurd h (by simp [hinteger])
      rw [hinteger] at hreads
      exact hreads
  | char => exact reads_char hl rest
  | string => exact reads_string t rest
  | boolean =>
      rcases hl with rfl | rfl
      · exact reads_word ⟨⟨('t' : Char), rfl, by decide⟩, by decide⟩ hends
      · exact reads_word ⟨⟨('f' : Char), rfl, by decide⟩, by decide⟩ hends
  | null =>
      obtain rfl : t = "null" := hl
      exact reads_word ⟨⟨('n' : Char), rfl, by decide⟩, by decide⟩ hends

/-- The text of a literal that drifts is read as an integer or goes on with the point behind it. -/
lemma not_splits_of_drifts {l : Literal} (hl : l.Spelled) {rest : Text} (hrest : Separated rest)
    (hdrift : (Expr.literal l).Drifts) {ls : List Lexeme} :
    ¬ Splits (l.render ++ rest) (.literal l :: ls) := by
  obtain ⟨kind, t⟩ := l
  cases kind with
  | double =>
      obtain ⟨n, hn, rfl⟩ := hl
      have hne : n.text ≠ [] := by
        obtain ⟨c, tail, htext, -⟩ := exists_startsNumber hn
        simp [htext]
      by_cases hpoint : StartsWithDot rest
      · exact not_splits_integer hdrift hne hpoint
      · intro h
        obtain ⟨ls', heq, -⟩ := (reads_integer hdrift hne hrest hpoint).splits_iff.mp h
        cases heq
  | _ => exact hdrift.elim

/-- A literal is read back, unless it drifts or takes a point that follows it. -/
lemma splits_literal_iff {l : Literal} (hl : l.Spelled) {rest : Text} (hrest : Separated rest)
    {ls : List Lexeme} : Splits (l.render ++ rest) (.literal l :: ls) ↔
      ¬ (Expr.literal l).Drifts ∧
      (StartsWithDot rest → l.kind ≠ .int) ∧ Splits rest ls := by
  constructor
  · intro h
    have hdrift : ¬ (Expr.literal l).Drifts := fun hdrift => not_splits_of_drifts hl hrest hdrift h
    have hpoint : StartsWithDot rest → l.kind ≠ .int := by
      intro hpoint hkind
      obtain ⟨kind, t⟩ := l
      obtain rfl : kind = .int := hkind
      obtain ⟨n, hn, hinteger, rfl⟩ := hl
      obtain ⟨hne, hdigits⟩ := hn.digits_of_isInteger hinteger
      exact not_splits_integer hdigits hne hpoint h
    have hreads := reads_literal hl hrest hdrift fun hkind hhead => hpoint hhead hkind
    exact ⟨hdrift, hpoint, hreads.splits_cons_iff.mp h⟩
  · rintro ⟨hdrift, hpoint, h⟩
    have hreads := reads_literal hl hrest hdrift fun hkind hhead => hpoint hhead hkind
    exact hreads.splits_cons_iff.mpr h

/-! ## Names and symbols -/

lemma splits_word_iff {word : Text} (hword : (Lexeme.name word).Spelled) {rest : Text}
    (hrest : EndsRun Lexeme.continuesWord rest) {ls : List Lexeme} :
    Splits (word ++ rest) (.name word :: ls) ↔ Splits rest ls := by
  have hreads := reads_word hword.1 hrest
  rw [hword.2] at hreads
  exact hreads.splits_cons_iff

lemma splits_symbol_iff (s : Symbol) {rest : Text} (hrest : EndsRun continuesSymbol rest)
    (hdot : s = .dot → EndsRun CodePoint.hasDigitProperty rest) {ls : List Lexeme} :
    Splits (s.text ++ rest) (.symbol s :: ls) ↔ Splits rest ls :=
  (reads_symbol s hrest hdot).splits_cons_iff

lemma splits_space_iff {rest : Text} {ls : List Lexeme} :
    Splits (" " ++ rest) ls ↔ Splits rest ls := by
  have hspace : ((' ' : Char) : CodePoint).isSpacing = true := by decide
  exact splits_spacing_iff hspace

/-- A symbol between two spaces. -/
lemma splits_spaced_iff (s : Symbol) (hs : s ≠ .dot) (sep : Text)
    (hsep : " " ++ s.text ++ " " = sep) {rest : Text} {ls : List Lexeme} :
    Splits (sep ++ rest) (.symbol s :: ls) ↔ Splits rest ls := by
  have hspace : Closes (" " ++ rest) := closes_append (by decide) rest
  rw [← hsep, List.append_assoc, List.append_assoc, splits_space_iff,
    splits_symbol_iff s (hspace.separated.endsRun (by decide)) fun h => absurd h hs,
    splits_space_iff]

lemma foldl_qualified (words : List Text) (first : Text) :
    words.foldl (fun (y w : Text) => y ++ "." ++ w) first
      = first ++ words.flatMap fun w => Symbol.dot.text ++ w := by
  induction words generalizing first with
  | nil => simp
  | cons w words ih =>
      rw [List.foldl_cons, ih, List.flatMap_cons, List.append_assoc, List.append_assoc,
        List.append_assoc]
      rfl

lemma separated_words (words : List Text) {rest : Text} (hrest : Separated rest) :
    Separated ((words.flatMap fun w => Symbol.dot.text ++ w) ++ rest) := by
  cases words with
  | nil => exact hrest
  | cons w words => exact separated_cons (c := ('.' : Char)) (by decide) _

/-- The words of a qualified name behind the first one, each with its dot. -/
lemma splits_words_iff {words : List Text} (hwords : ∀ w ∈ words, (Lexeme.name w).Spelled)
    {rest : Text} (hrest : Separated rest) {ls : List Lexeme} :
    Splits ((words.flatMap fun w => Symbol.dot.text ++ w) ++ rest)
      ((words.flatMap fun w => [.symbol .dot, .name w]) ++ ls) ↔ Splits rest ls := by
  induction words with
  | nil => exact Iff.rfl
  | cons w words ih =>
      rw [List.forall_mem_cons] at hwords
      have hmore := separated_words words hrest
      have hsymbol := hwords.1.1.endsRun (fun c => Lexeme.continuesSymbol_of_startsWord)
        ((words.flatMap fun w => Symbol.dot.text ++ w) ++ rest)
      have hdigit := hwords.1.1.endsRun (fun c => Lexeme.hasDigitProperty_of_startsWord)
        ((words.flatMap fun w => Symbol.dot.text ++ w) ++ rest)
      simp only [List.flatMap_cons, List.append_assoc, List.cons_append, List.nil_append]
      rw [splits_symbol_iff .dot hsymbol fun _ => hdigit,
        splits_word_iff hwords.1 (hmore.endsRun (by decide)), ih hwords.2]

/-- A name is read back word by word. -/
lemma splits_name_iff {x : Text} (hx : ∀ l ∈ Expr.nameLexemes x, l.Spelled) {rest : Text}
    (hrest : Separated rest) {ls : List Lexeme} :
    Splits (x ++ rest) (Expr.nameLexemes x ++ ls) ↔ Splits rest ls := by
  obtain ⟨first, words, hwords, hjoin⟩ := Expr.exists_words x
  rw [foldl_qualified] at hjoin
  rw [hwords] at hx ⊢
  rw [← hjoin, List.append_assoc, List.cons_append]
  have hmore := separated_words words hrest
  rw [splits_word_iff (hx _ List.mem_cons_self) (hmore.endsRun (by decide)),
    splits_words_iff _ hrest]
  intro w hw
  apply hx
  simp [hw]

/-! ## How pieces start -/

/-- A number starts with no symbol that goes on with another one. -/
lemma Numeral.WellFormed.endsRun {n : Numeral} (hn : n.WellFormed) (rest : Text) :
    EndsRun continuesSymbol (n.text ++ rest) := by
  obtain ⟨c, tail, htext, hc, -⟩ := exists_startsNumber hn
  rw [htext]
  apply endsRun_cons
  by_contra hmark
  rw [Bool.not_eq_false] at hmark
  unfold continuesSymbol at hmark
  simp only [Bool.or_eq_true, decide_eq_true_eq] at hmark
  rcases hc with hc | rfl
  · rcases hmark with ((((rfl | rfl) | rfl) | rfl) | rfl) | rfl <;> exact absurd hc (by decide)
  · exact absurd hmark (by decide)

lemma Literal.Spelled.endsRun {l : Literal} (hl : l.Spelled) (rest : Text) :
    EndsRun continuesSymbol (l.render ++ rest) := by
  obtain ⟨kind, t⟩ := l
  cases kind with
  | int =>
      obtain ⟨n, hn, -, rfl⟩ := hl
      exact hn.endsRun rest
  | long =>
      obtain ⟨n, hn, -, rfl⟩ := hl
      rw [Literal.render, List.append_assoc]
      exact hn.endsRun _
  | float =>
      obtain ⟨n, hn, rfl⟩ := hl
      rw [Literal.render, List.append_assoc]
      exact hn.endsRun _
  | double =>
      obtain ⟨n, hn, rfl⟩ := hl
      exact hn.endsRun rest
  | char => exact endsRun_cons (c := ('\'' : Char)) (by decide) _
  | string => exact endsRun_cons (c := ('"' : Char)) (by decide) _
  | boolean =>
      rcases hl with rfl | rfl
      · exact endsRun_cons (c := ('t' : Char)) (by decide) _
      · exact endsRun_cons (c := ('f' : Char)) (by decide) _
  | null =>
      obtain rfl : t = "null" := hl
      exact endsRun_cons (c := ('n' : Char)) (by decide) _

lemma endsRun_name {x : Text} (hx : ∀ l ∈ Expr.nameLexemes x, l.Spelled) (rest : Text) :
    EndsRun continuesSymbol (x ++ rest) := by
  obtain ⟨first, words, hwords, hjoin⟩ := Expr.exists_words x
  rw [foldl_qualified] at hjoin
  rw [hwords] at hx
  rw [← hjoin, List.append_assoc]
  exact (hx _ List.mem_cons_self).1.endsRun (fun c => Lexeme.continuesSymbol_of_startsWord) _

end LineShell
