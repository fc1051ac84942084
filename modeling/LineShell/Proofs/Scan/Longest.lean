import LineShell.Proofs.Lexeme.Decoding
import LineShell.Source

/-!
# A scan loses nothing and takes the longest lexemes

`Lexeme.SpelledAs` lists the spellings of every lexeme, without the reader. Words that are no names
and the suffixes of numbers are listed in tables (`Lexeme.reservedWords`, `Lexeme.suffixes`), and
the reader is shown to know the same ones. It takes off the front of a text a spelling of the lexeme
that it gives (`exists_spelledAs_of_read`), and no longer beginning of the text is the spelling of
any lexeme (`length_le_of_read`). What starts a spelling tells which kind of lexeme is read, so that
there is one case for each kind; a dot is the only code point that starts two kinds.

Main statement: the source of a scan is made of the spellings of its tokens, at their positions,
with spacing between them and the comment at the end, and each spelling is the longest one that
starts where it starts (`ofSource_factors`).
-/

namespace LineShell

open Text

namespace Lexeme

/-- A text between two quotes. -/
def inQuotes (quote : CodePoint) (body : Text) : Text :=
  quote :: (body ++ [quote])

/-- The words that are no names, each with the lexeme that it spells. -/
def reservedWords : List (Text × Lexeme) :=
  [("true", .literal ⟨.boolean, "true"⟩), ("false", .literal ⟨.boolean, "false"⟩),
    ("null", .literal ⟨.null, "null"⟩), ("if", .keyword .ifWord), ("else", .keyword .elseWord),
    ("while", .keyword .whileWord), ("return", .keyword .returnWord)]

/-- The suffixes of numbers, each with the kind that it gives. -/
def suffixes : List (CodePoint × LiteralKind) :=
  [('l', .long), ('L', .long), ('f', .float), ('F', .float), ('d', .double), ('D', .double)]

/-- The text is a spelling of the lexeme. -/
inductive SpelledAs : Lexeme → Text → Prop
  /-- A symbol is spelled as the table of symbols says. -/
  | symbol (s : Symbol) : SpelledAs (.symbol s) s.text
  /-- A reserved word spells what is listed. -/
  | reserved {word : Text} {x : Lexeme} (h : (word, x) ∈ reservedWords) : SpelledAs x word
  /-- Every other word is a name. -/
  | name {word : Text} (hword : IsWord word) (hfree : word ∉ reservedWords.map Prod.fst) :
      SpelledAs (.name word) word
  /-- A number without suffix is an integer or a `double` by its form. -/
  | number {n : Numeral} (hn : n.WellFormed) :
      SpelledAs (.literal ⟨if n.isInteger then .int else .double, n.text⟩) n.text
  /-- A suffix gives a number its kind, and is not part of its text. -/
  | suffixed {n : Numeral} {c : CodePoint} {kind : LiteralKind} (hn : n.WellFormed)
      (hkind : (c, kind) ∈ suffixes) (hlong : kind = .long → n.isInteger = true) :
      SpelledAs (.literal ⟨kind, n.text⟩) (n.text ++ [c])
  /-- A string stands between quotes. -/
  | string {body contents : Text} (h : Decodes ('"' : Char) body contents) :
      SpelledAs (.literal ⟨.string, contents⟩) (inQuotes ('"' : Char) body)
  /-- A character, and no more than one, stands between apostrophes. -/
  | char {c : CodePoint} {body : Text} (h : Decodes ('\'' : Char) body [c]) :
      SpelledAs (.literal ⟨.char, [c]⟩) (inQuotes ('\'' : Char) body)

/-! ## Words and suffixes that the reader knows -/

lemma ofWord_of_mem {word : Text} {x : Lexeme} (h : (word, x) ∈ reservedWords) :
    ofWord word = x := by
  have hall : ∀ entry ∈ reservedWords, ofWord entry.1 = entry.2 := by decide
  exact hall _ h

lemma ofWord_of_not_mem {word : Text} (h : word ∉ reservedWords.map Prod.fst) :
    ofWord word = .name word := by
  simp only [reservedWords, List.map_cons, List.map_nil, List.mem_cons, List.not_mem_nil, or_false,
    not_or] at h
  simp [ofWord, h]

/-- A word is its own spelling, whether it is reserved or a name. -/
lemma spelledAs_ofWord {word : Text} (hword : IsWord word) : (ofWord word).SpelledAs word := by
  by_cases hfree : word ∈ reservedWords.map Prod.fst
  · obtain ⟨⟨_, x⟩, hmem, rfl⟩ := List.mem_map.mp hfree
    rw [ofWord_of_mem hmem]
    exact .reserved hmem
  · rw [ofWord_of_not_mem hfree]
    exact .name hword hfree

lemma isWord_of_mem {word : Text} {x : Lexeme} (h : (word, x) ∈ reservedWords) : IsWord word := by
  have hall : ∀ entry ∈ reservedWords,
      entry.1.head?.any startsWord = true ∧ ∀ c ∈ entry.1, continuesWord c = true := by
    decide
  obtain ⟨hstarts, hcontinues⟩ := hall _ h
  exact ⟨(Option.any_eq_true _ _).mp hstarts, hcontinues⟩

lemma suffixKind?_eq_some_iff {c : CodePoint} {kind : LiteralKind} :
    suffixKind? c = some kind ↔ (c, kind) ∈ suffixes := by
  constructor
  · intro h
    unfold suffixKind? at h
    repeat
      split at h
      · next hc =>
        cases h
        rcases hc with rfl | rfl
        all_goals decide
    cases h
  · intro h
    have hall : ∀ entry ∈ suffixes, suffixKind? entry.1 = some entry.2 := by decide
    exact hall _ h

/-! ## What is read is spelled -/

variable {c : CodePoint} {t : Text} {reading : Reading}

/-- What is read up to a closing quote stands between two quotes. -/
lemma exists_inQuotes_of_readContents {quote : CodePoint} {unfinished : LexicalIssue}
    {contents : Text} {width : Nat}
    (h : readContents quote unfinished 1 t = .ok (contents, width)) :
    ∃ body rest, quote :: t = inQuotes quote body ++ rest ∧
      (inQuotes quote body).length = width ∧ Decodes quote body contents := by
  obtain ⟨body, rest, rfl, hbody, rfl⟩ := exists_decodes_of_readContents h
  refine ⟨body, rest, ?_, ?_, hbody⟩
  · simp [inQuotes]
  · simp only [inQuotes, List.length_cons, List.length_append, List.length_nil]
    omega

lemma exists_spelledAs_of_readNumber (h : readNumber t = .ok reading) :
    ∃ l rest, t = l ++ rest ∧ l.length = reading.width ∧ reading.lexeme.SpelledAs l := by
  unfold readNumber at h
  split at h
  · cases h
  · next n rest hscan =>
    have hn := Numeral.wellFormed_of_scan hscan
    have htext := Numeral.text_append_of_scan hscan
    split at h
    · cases h
      exact ⟨n.text, rest, htext.symm, rfl, .number hn⟩
    · next suffix kind hsuffix =>
      split at h
      · cases h
      · next hlong =>
        cases h
        cases rest with
        | nil => cases hsuffix
        | cons first rest =>
            obtain ⟨kind', hkind, heq⟩ := Option.map_eq_some_iff.mp hsuffix
            cases heq
            refine ⟨n.text ++ [suffix], rest, ?_, ?_,
              .suffixed hn (suffixKind?_eq_some_iff.mp hkind) ?_⟩
            · rw [← htext, List.append_assoc]
              rfl
            · rw [List.length_append, List.length_singleton]
            · simpa using hlong

/-- The reader takes a spelling of the lexeme off the front of the text. -/
lemma exists_spelledAs_of_read (h : read c t = .ok reading) :
    ∃ l rest, c :: t = l ++ rest ∧ l.length = reading.width ∧ reading.lexeme.SpelledAs l := by
  unfold read at h
  split at h
  · next hc =>
    subst hc
    obtain ⟨contents, hread, hlexeme⟩ := readString_eq_ok_iff.mp h
    obtain ⟨body, rest, htext, hwidth, hbody⟩ := exists_inQuotes_of_readContents hread
    refine ⟨_, rest, htext, hwidth, ?_⟩
    rw [hlexeme]
    exact .string hbody
  split at h
  · next hc =>
    subst hc
    obtain ⟨contents, hread, hone, hlexeme⟩ := readChar_eq_ok_iff.mp h
    obtain ⟨d, rfl⟩ := List.length_eq_one_iff.mp hone
    obtain ⟨body, rest, htext, hwidth, hbody⟩ := exists_inQuotes_of_readContents hread
    refine ⟨_, rest, htext, hwidth, ?_⟩
    rw [hlexeme]
    exact .char hbody
  split at h
  · exact exists_spelledAs_of_readNumber h
  split at h
  · next hword =>
    cases h
    refine ⟨_, t.dropWhile continuesWord, ?_, rfl,
      spelledAs_ofWord (isWord_cons_takeWhile hword t)⟩
    rw [List.cons_append, List.takeWhile_append_dropWhile]
  split at h
  · next s hs =>
    cases h
    have hprefix := List.find?_some hs
    obtain ⟨rest, hrest⟩ := List.isPrefixOf_iff_prefix.mp hprefix
    exact ⟨s.text, rest, hrest.symm, rfl, .symbol s⟩
  · cases h

end Lexeme

/-! ## The longest number -/

namespace Numeral

lemma length_scanFraction_le (t : Text) : (scanFraction t).2.length ≤ t.length := by
  have hlength := congrArg List.length (fractionText_append_of_scanFraction t)
  rw [List.length_append] at hlength
  omega

lemma length_scanExponent_le (t : Text) : (scanExponent t).2.length ≤ t.length := by
  have hlength := congrArg List.length (exponentText_append_of_scanExponent t)
  rw [List.length_append] at hlength
  omega

lemma length_dropWhile_append_le {digits : Text} (h : ∀ c ∈ digits, c.isDigit = true)
    (more : Text) : ((digits ++ more).dropWhile CodePoint.isDigit).length ≤ more.length := by
  rw [List.dropWhile_append_of_pos h]
  exact (List.dropWhile_suffix _).length_le

/-- An exponent in front of more text is taken, with all digits that follow. -/
lemma length_scanExponent_append_le {e : Exponent} (he : e.WellFormed) (more : Text) :
    (scanExponent (e.text ++ more)).2.length ≤ more.length := by
  obtain ⟨mark, sign, digits⟩ := e
  obtain ⟨hmark, hsign, hne, hdigits⟩ := he
  have hscan := scanSign_append_digits hsign hne hdigits more
  have hsome : (digits ++ more).takeWhile CodePoint.isDigit ≠ [] := by
    rw [List.takeWhile_append_of_pos hdigits]
    simp [hne]
  simp only [Exponent.text, List.cons_append, List.append_assoc, scanExponent, if_pos hmark, hscan]
  exact length_dropWhile_append_le hdigits more

/-- At the start of a text no numeral is longer than the one that is scanned. -/
lemma length_text_le_of_scan {n n' : Numeral} {t rest : Text} (hscan : scan t = some (n, rest))
    (hn' : n'.WellFormed) (hstart : n'.text <+: t) : n'.text.length ≤ n.text.length := by
  obtain ⟨more, rfl⟩ := hstart
  have htext := congrArg List.length (text_append_of_scan hscan)
  rw [List.length_append, List.length_append] at htext
  -- It is enough that the scan leaves no more than `more`.
  suffices hrest : rest.length ≤ more.length by omega
  obtain ⟨whole, fraction, exponent⟩ := n'
  have hrest : rest = (scanExponent (scanFraction
      ((text ⟨whole, fraction, exponent⟩ ++ more).dropWhile CodePoint.isDigit)).2).2 := by
    simp only [scan] at hscan
    split at hscan
    · cases hscan
    · cases hscan
      rfl
  rw [hrest]
  cases exponent with
  | none =>
      refine (length_scanExponent_le _).trans ?_
      cases fraction with
      | none =>
          refine (length_scanFraction_le _).trans ?_
          simp only [text, fractionText, exponentText, List.append_nil]
          exact length_dropWhile_append_le hn'.whole more
      | some digits =>
          have hend : EndsRun CodePoint.isDigit
              ((('.' : Char) : CodePoint) :: (digits ++ more)) := endsRun_cons (by decide) _
          simp only [text, fractionText, exponentText, List.append_nil, List.append_assoc,
            List.cons_append, hend.dropWhile_append hn'.whole, scanFraction, if_true]
          exact length_dropWhile_append_le hn'.fraction more
  | some e =>
      -- The mark of the exponent ends the digits, and is no point.
      have he := hn'.exponent e rfl
      have hdigit : EndsRun CodePoint.isDigit (e.text ++ more) := by
        apply endsRun_cons
        rcases he.mark with hmark | hmark <;> rw [hmark] <;> decide
      have hpoint : (e.text ++ more).head? ≠ some (('.' : Char) : CodePoint) := by
        intro hhead
        have hdot : e.mark = ('.' : Char) := Option.some.inj hhead
        rcases he.mark with hmark | hmark <;> rw [hmark] at hdot <;>
          exact absurd hdot (by decide)
      have hend : EndsRun CodePoint.isDigit (fractionText fraction ++ (e.text ++ more)) := by
        cases fraction with
        | none => exact hdigit
        | some digits => exact endsRun_cons (by decide) _
      have hfraction := scanFraction_append hn'.fraction hdigit fun _ => hpoint
      simp only [text, exponentText, List.append_assoc, hend.dropWhile_append hn'.whole, hfraction]
      exact length_scanExponent_append_le he more

end Numeral

/-! ## The longest lexeme -/

/-- At the start of a text no symbol is longer than the one that is found. -/
lemma Symbol.length_le_of_startOf? {s s' : Symbol} {t : Text} (h : startOf? t = some s)
    (hstart : s'.text <+: t) : s'.text.length ≤ s.text.length := by
  obtain ⟨-, before, behind, hsplit, hbefore⟩ := List.find?_eq_some_iff_append.mp h
  have hmem := mem_longestFirst s'
  rw [hsplit] at hmem
  rcases List.mem_append.mp hmem with hmem | hmem
  · -- A symbol that is tried earlier does not start the text.
    have hnot := hbefore s' hmem
    rw [List.isPrefixOf_iff_prefix.mpr hstart] at hnot
    cases hnot
  rcases List.mem_cons.mp hmem with rfl | hmem
  · exact le_rfl
  · have hsorted := pairwise_longestFirst
    rw [hsplit, List.pairwise_append] at hsorted
    exact (List.pairwise_cons.mp hsorted.2.1).1 s' hmem

namespace Lexeme

variable {c : CodePoint} {t : Text} {reading : Reading}

lemma length_le_of_readNumber {n : Numeral} (h : readNumber t = .ok reading) (hn : n.WellFormed)
    (hstart : n.text <+: t) : n.text.length ≤ reading.width := by
  unfold readNumber at h
  split at h
  · cases h
  · next n' rest hscan =>
    have hle := Numeral.length_text_le_of_scan hscan hn hstart
    split at h
    · cases h
      exact hle
    · split at h
      · cases h
      · cases h
        dsimp only
        omega

/-- A suffix behind the longest number is taken, and a shorter number is shorter by one at least. -/
lemma length_le_of_readNumber_suffixed {n : Numeral} {suffix : CodePoint} {kind : LiteralKind}
    (h : readNumber t = .ok reading) (hn : n.WellFormed) (hkind : suffixKind? suffix = some kind)
    (hstart : n.text ++ [suffix] <+: t) : n.text.length + 1 ≤ reading.width := by
  have hshort : n.text <+: t := (List.prefix_append _ _).trans hstart
  unfold readNumber at h
  split at h
  · cases h
  · next n' rest hscan =>
    have htext := Numeral.text_append_of_scan hscan
    have hle := Numeral.length_text_le_of_scan hscan hn hshort
    rcases Nat.lt_or_eq_of_le hle with hlt | heq
    · split at h
      · cases h
        exact hlt
      · split at h
        · cases h
        · cases h
          dsimp only
          omega
    · have hsame : n.text = n'.text :=
        (List.prefix_of_prefix_length_le hshort ⟨rest, htext⟩ hle).eq_of_length heq
      rw [hsame, ← htext, List.prefix_append_right_inj] at hstart
      obtain ⟨behind, rfl⟩ := hstart
      have hsuffix : scanSuffix ([suffix] ++ behind) = some (suffix, kind) := by
        rw [List.singleton_append, scanSuffix, hkind, Option.map_some]
      split at h
      · next hnone =>
        rw [hsuffix] at hnone
        cases hnone
      · split at h
        · cases h
        · cases h
          dsimp only
          omega

/-- Where a number starts, a number is read. -/
lemma read_eq_readNumber (hc : c.isDigit = true ∨ c = ('.' : Char))
    (hnumber : startsNumber c t = true) : read c t = readNumber (c :: t) := by
  have hne : ∀ d : Char, (d : CodePoint).isDigit = false → d ≠ '.' → c ≠ d := by
    rintro d hdigit hpoint rfl
    rcases hc with hc | hc
    · rw [hc] at hdigit
      cases hdigit
    · exact hpoint (CodePoint.ofChar_injective hc)
  unfold read
  rw [if_neg (hne '"' (by decide) (by decide)), if_neg (hne '\'' (by decide) (by decide)),
    if_pos hnumber]

/-- Where a word starts, a word is read. -/
lemma read_of_startsWord (hc : startsWord c = true) (t : Text) :
    read c t = .ok ⟨ofWord (c :: t.takeWhile continuesWord),
      (c :: t.takeWhile continuesWord).length⟩ := by
  have hne : ∀ d : Char, startsWord d = false → c ≠ d := by
    rintro d hd rfl
    rw [hc] at hd
    cases hd
  have hnumber : startsNumber c t = false := by
    unfold startsNumber
    simp [hasDigitProperty_of_startsWord hc, hne '.' (by decide)]
  unfold read
  rw [if_neg (hne '"' (by decide)), if_neg (hne '\'' (by decide)), if_neg (by simp [hnumber]),
    if_pos hc]

/-- A symbol is no longer than what is read where it starts. Only a dot can be read as part of
something else, which is a number then. -/
lemma length_le_of_read_symbol {s : Symbol} (h : read c t = .ok reading)
    (hstart : s.text <+: c :: t) : s.text.length ≤ reading.width := by
  have hhead := (Scan.symbol_head s (Symbol.mem_longestFirst s)).1
  obtain ⟨d, tail, htext⟩ := List.exists_cons_of_ne_nil s.text_ne_nil
  have hd := hstart
  rw [htext] at hhead hd
  obtain ⟨rfl, -⟩ := List.cons_prefix_cons.mp hd
  simp only [List.head?_cons, Option.any_some, Bool.and_eq_true, decide_eq_true_eq,
    Bool.not_eq_eq_eq_not, Bool.not_true, Bool.or_eq_true] at hhead
  obtain ⟨⟨⟨⟨⟨hquote, happ⟩, hdigit⟩, hword⟩, -⟩, hpoint⟩ := hhead
  by_cases hnumber : startsNumber d t = true
  · have hdot : s = .dot := by
      apply hpoint.resolve_left
      unfold startsNumber at hnumber
      rw [hdigit, Bool.false_or, Bool.and_eq_true, decide_eq_true_eq] at hnumber
      simp [hnumber.1]
    rw [hdot]
    exact width_pos_of_read h
  · unfold read at h
    rw [if_neg hquote, if_neg happ, if_neg hnumber, if_neg (by simp [hword])] at h
    split at h
    · next s' hs' =>
      cases h
      exact Symbol.length_le_of_startOf? hs' hstart
    · cases h

/-- A spelling between quotes is all that is read. -/
lemma length_inQuotes_of_readContents {quote : CodePoint} {unfinished : LexicalIssue}
    {body rest contents contents' : Text} {width : Nat} (hbody : Decodes quote body contents)
    (hslash : quote ≠ ('\\' : Char)) (hoctal : quote.isOctalDigit = false)
    (h : readContents quote unfinished 1 (body ++ [quote] ++ rest) = .ok (contents', width)) :
    (inQuotes quote body).length = width := by
  rw [List.append_assoc, List.singleton_append,
    readContents_of_decodes hbody hslash hoctal] at h
  cases h
  simp only [inQuotes, List.length_cons, List.length_append, List.length_nil]
  omega

/-- A word is no longer than what is read where it starts. -/
lemma length_le_of_read_word {word : Text} (h : read c t = .ok reading) (hword : IsWord word)
    (hstart : word <+: c :: t) : word.length ≤ reading.width := by
  obtain ⟨d, hhead, hd⟩ := hword.starts
  obtain ⟨tail, rfl⟩ := List.head?_eq_some_iff.mp hhead
  obtain ⟨rfl, rest, rfl⟩ := List.cons_prefix_cons.mp hstart
  rw [read_of_startsWord hd] at h
  cases h
  have htail : ∀ e ∈ tail, continuesWord e = true :=
    fun e he => hword.continues e (List.mem_cons_of_mem d he)
  simp only [List.takeWhile_append_of_pos htail, List.length_cons, List.length_append]
  omega

/-- At the start of a text no lexeme has a longer spelling than the one that is read. -/
lemma length_le_of_read {x : Lexeme} {l : Text} (h : read c t = .ok reading)
    (hx : x.SpelledAs l) (hstart : l <+: c :: t) : l.length ≤ reading.width := by
  cases hx with
  | symbol s => exact length_le_of_read_symbol h hstart
  | reserved hmem => exact length_le_of_read_word h (isWord_of_mem hmem) hstart
  | name hword _ => exact length_le_of_read_word h hword hstart
  | @number n hn =>
      obtain ⟨d, tail, htext, hd, hnumber⟩ := Scan.exists_startsNumber hn
      rw [htext] at hstart
      obtain ⟨rfl, rest, rfl⟩ := List.cons_prefix_cons.mp hstart
      rw [read_eq_readNumber hd (hnumber rest)] at h
      rw [← htext] at hstart
      exact length_le_of_readNumber h hn hstart
  | @suffixed n suffix kind hn hkind hlong =>
      obtain ⟨d, tail, htext, hd, hnumber⟩ := Scan.exists_startsNumber hn
      rw [htext] at hstart
      obtain ⟨rfl, rest, rfl⟩ := List.cons_prefix_cons.mp hstart
      have hread := hnumber ([suffix] ++ rest)
      rw [← List.append_assoc] at hread
      rw [List.append_eq, read_eq_readNumber hd hread] at h
      rw [← htext] at hstart
      rw [List.length_append, List.length_singleton]
      exact length_le_of_readNumber_suffixed h hn (suffixKind?_eq_some_iff.mpr hkind) hstart
  | @string body contents hbody =>
      obtain ⟨rfl, rest, rfl⟩ := List.cons_prefix_cons.mp hstart
      have hread : readString (body ++ [(('"' : Char) : CodePoint)] ++ rest) = .ok reading := h
      obtain ⟨contents', hcontents, -⟩ := readString_eq_ok_iff.mp hread
      exact (length_inQuotes_of_readContents hbody (by decide) (by decide) hcontents).le
  | @char d body hbody =>
      obtain ⟨rfl, rest, rfl⟩ := List.cons_prefix_cons.mp hstart
      have hread : readChar (body ++ [(('\'' : Char) : CodePoint)] ++ rest) = .ok reading := h
      obtain ⟨contents', hcontents, -⟩ := readChar_eq_ok_iff.mp hread
      exact (length_inQuotes_of_readContents hbody (by decide) (by decide) hcontents).le

end Lexeme

/-! ## The factors of a source -/

namespace Scan

/-- The text behind `pos` code points is made of these tokens and this comment: spacing, the
spelling of a token at its position, spacing and so on, up to the comment. Every spelling is the
longest one that starts at its place. -/
inductive Factors : Nat → Text → List Token → Text → Prop
  /-- Behind the last token only spacing and the comment follow. -/
  | done {pos : Nat} {spacing comment : Text} (hspacing : ∀ c ∈ spacing, c.isSpacing = true)
      (hcomment : comment = [] ∨ startsComment comment = true) :
      Factors pos (spacing ++ comment) [] comment
  /-- A token comes behind some spacing. -/
  | token {pos : Nat} {spacing l rest comment : Text} {x : Lexeme} {tokens : List Token}
      (hspacing : ∀ c ∈ spacing, c.isSpacing = true) (hspelled : x.SpelledAs l)
      (hlongest : ∀ (y : Lexeme) (l' : Text), y.SpelledAs l' → l' <+: l ++ rest →
        l'.length ≤ l.length)
      (hrest : Factors (pos + spacing.length + l.length) rest tokens comment) :
      Factors pos (spacing ++ (l ++ rest)) (⟨x, pos + spacing.length⟩ :: tokens) comment

/-- One more code point of spacing in front. -/
lemma Factors.cons {pos : Nat} {c : CodePoint} {t comment : Text} {tokens : List Token}
    (hc : c.isSpacing = true) (h : Factors (pos + 1) t tokens comment) :
    Factors pos (c :: t) tokens comment := by
  cases h with
  | @done _ spacing _ hspacing hcomment =>
      have hmore : ∀ d ∈ c :: spacing, d.isSpacing = true :=
        List.forall_mem_cons.mpr ⟨hc, hspacing⟩
      exact .done hmore hcomment
  | @token _ spacing l rest _ x tokens hspacing hspelled hlongest hrest =>
      have hmore : ∀ d ∈ c :: spacing, d.isSpacing = true :=
        List.forall_mem_cons.mpr ⟨hc, hspacing⟩
      have hpos : pos + 1 + spacing.length = pos + (c :: spacing).length := by
        rw [List.length_cons]
        omega
      rw [hpos] at hrest ⊢
      exact .token hmore hspelled hlongest hrest

/-- A scan finds the factors of a text. -/
lemma factors_of_after {pos : Nat} {t : Text} {scan : Scan} (h : after pos t = .ok scan) :
    Factors pos t scan.tokens scan.comment := by
  have hnil : ∀ c ∈ ([] : Text), c.isSpacing = true := by simp
  fun_induction after pos t generalizing scan with
  | case1 pos =>
      cases h
      exact .done hnil (.inl rfl)
  | case2 pos c rest hc ih => exact (ih h).cons hc
  | case3 pos c rest hc hcomment =>
      cases h
      exact .done hnil (.inr hcomment)
  | case4 => cases h
  | case5 => cases h
  | case6 pos c rest hc hcomment reading hread inner hinner ih =>
      cases h
      obtain ⟨l, behind, htext, hlength, hspelled⟩ := Lexeme.exists_spelledAs_of_read hread
      have hlongest : ∀ (y : Lexeme) (l' : Text), y.SpelledAs l' → l' <+: l ++ behind →
          l'.length ≤ l.length := by
        intro y l' hy hstart
        rw [hlength]
        exact Lexeme.length_le_of_read hread hy (htext ▸ hstart)
      have hdrop : rest.drop (reading.width - 1) = behind := by
        have hpos := Lexeme.width_pos_of_read hread
        have hsplit := congrArg (List.drop reading.width) htext
        rwa [← hlength, List.drop_left, hlength,
          show reading.width = reading.width - 1 + 1 by omega, List.drop_succ_cons] at hsplit
      have hrest := ih hinner
      rw [hdrop, ← hlength] at hrest
      rw [htext]
      exact .token hnil hspelled hlongest hrest

end Scan

/-- **A scan loses nothing and takes the longest lexemes.** A source that is scanned is made of
spacing, spellings of the tokens, each at the position of its token, and the comment. Every spelling
is the longest one that any lexeme has at its place. The end of the source is at its length. -/
theorem ofSource_factors (source : Text) (scan : Scan) (h : Scan.ofSource source = .ok scan) :
    Scan.Factors 0 source scan.tokens scan.comment ∧
      scan.position source.length 0 = source.length := by
  refine ⟨Scan.factors_of_after h, ?_⟩
  unfold Scan.position
  rw [List.getElem?_eq_none (by omega)]

/-- The scan of `a>>>=.5e+ //1`, where a mark without digits is no exponent. -/
def exponentless : Scan where
  tokens := [⟨.name "a", 0⟩, ⟨.symbol (.assign .shiftRightUnsigned), 1⟩,
    ⟨.literal ⟨.double, ".5"⟩, 5⟩, ⟨.name "e", 7⟩, ⟨.symbol (.binary .add), 8⟩]
  comment := "//1"

/-- A symbol that starts with others, a number that starts with a dot, and a comment. -/
theorem ofSource_factors_exponentless :
    Scan.ofSource "a>>>=.5e+ //1" = .ok exponentless ∧
      Scan.Factors 0 "a>>>=.5e+ //1" exponentless.tokens "//1" := by
  have hscan : Scan.ofSource "a>>>=.5e+ //1" = .ok exponentless := by decide +kernel
  exact ⟨hscan, (ofSource_factors "a>>>=.5e+ //1" exponentless hscan).1⟩

end LineShell
