import LineShell.Proofs.Scan

/-!
# Reading spelled lexemes back

The spelling of a lexeme is read as that lexeme, as long as what follows does not go on with it:
words (`reads_word`), symbols (`reads_symbol`), numbers (`reads_number`, `reads_suffixed`) and
quoted literals (`reads_string`, `reads_char`). `Text.EndsRun` says that a text does not start with
a code point of some kind, so that a run of such code points ends in front of it.

An integer in front of a point is the exception. The point is taken for a part of the number
(`integer_ne_of_reads`).
-/

namespace LineShell

/-! ## Where runs end -/

namespace Text

/-- The text does not start with a code point of the kind `p`. -/
def EndsRun (p : CodePoint → Bool) (rest : Text) : Prop :=
  ∀ c, rest.head? = some c → p c = false

lemma endsRun_cons {p : CodePoint → Bool} {c : CodePoint} (hc : p c = false) (rest : Text) :
    EndsRun p (c :: rest) := by
  intro d hd
  cases hd
  exact hc

/-- A run of code points is taken as a whole. -/
lemma EndsRun.takeWhile_append {p : CodePoint → Bool} {run rest : Text} (h : EndsRun p rest)
    (hrun : ∀ c ∈ run, p c = true) : (run ++ rest).takeWhile p = run := by
  rw [List.takeWhile_append_of_pos hrun]
  cases rest with
  | nil => simp
  | cons c rest => simp [h c rfl]

/-- What stands behind a run is left as it is. -/
lemma EndsRun.dropWhile_append {p : CodePoint → Bool} {run rest : Text} (h : EndsRun p rest)
    (hrun : ∀ c ∈ run, p c = true) : (run ++ rest).dropWhile p = rest := by
  rw [List.dropWhile_append_of_pos hrun]
  cases rest with
  | nil => rfl
  | cons c rest => simp [h c rfl]

end Text

open Text

/-! ## Numerals -/

namespace Numeral

/-- Whether a number without point can go on with the code point. -/
def continuesNumber (c : CodePoint) : Bool :=
  c.isDigit || c = 'e' || c = 'E'

lemma isDigit_of_continuesNumber {c : CodePoint} (h : continuesNumber c = false) :
    c.isDigit = false := by
  unfold continuesNumber at h
  simp only [Bool.or_eq_false_iff] at h
  exact h.1.1

/-- A sign is told from the digits behind it, because no digit is a sign. -/
lemma scanSign_append_digits {sign : Option CodePoint}
    (hsign : ∀ c, sign = some c → c = ('+' : Char) ∨ c = ('-' : Char)) {digits : Text}
    (hne : digits ≠ []) (hdigits : ∀ c ∈ digits, c.isDigit = true) (rest : Text) :
    scanSign (sign.toList ++ (digits ++ rest)) = (sign, digits ++ rest) := by
  cases sign with
  | none =>
      obtain ⟨d, digits, rfl⟩ := List.exists_cons_of_ne_nil hne
      have hd := hdigits d List.mem_cons_self
      have hplus : d ≠ ('+' : Char) := by
        rintro rfl
        exact absurd hd (by decide)
      have hminus : d ≠ ('-' : Char) := by
        rintro rfl
        exact absurd hd (by decide)
      simp [scanSign, hplus, hminus]
  | some c => simp [scanSign, hsign c rfl]

lemma scanExponent_append {exponent : Option Exponent}
    (hexponent : ∀ e, exponent = some e → e.WellFormed) {rest : Text}
    (hrest : EndsRun continuesNumber rest) :
    scanExponent (exponentText exponent ++ rest) = (exponent, rest) := by
  cases exponent with
  | none =>
      cases rest with
      | nil => rfl
      | cons c rest =>
          have hc := hrest c rfl
          unfold continuesNumber at hc
          simp only [Bool.or_eq_false_iff, decide_eq_false_iff_not] at hc
          simp [exponentText, scanExponent, hc.1.2, hc.2]
  | some e =>
      obtain ⟨mark, sign, digits⟩ := e
      obtain ⟨hmark, hsign, hne, hdigits⟩ := hexponent _ rfl
      have hend : EndsRun CodePoint.isDigit rest :=
        fun c hc => isDigit_of_continuesNumber (hrest c hc)
      have hscan := scanSign_append_digits hsign hne hdigits rest
      simp only [exponentText, Exponent.text, List.cons_append, List.append_assoc, scanExponent,
        if_pos hmark, hscan, hend.takeWhile_append hdigits, hend.dropWhile_append hdigits]

lemma scanFraction_append {fraction : Option Text}
    (hdigits : ∀ c ∈ fraction.getD [], c.isDigit = true) {rest : Text}
    (hrest : EndsRun CodePoint.isDigit rest)
    (hpoint : fraction = none → rest.head? ≠ some (('.' : Char) : CodePoint)) :
    scanFraction (fractionText fraction ++ rest) = (fraction, rest) := by
  cases fraction with
  | none =>
      cases rest with
      | nil => rfl
      | cons c rest =>
          have hc : c ≠ ('.' : Char) := by
            rintro rfl
            exact hpoint rfl rfl
          simp [fractionText, scanFraction, hc]
  | some digits =>
      rw [Option.getD_some] at hdigits
      simp only [fractionText, List.cons_append, scanFraction, if_true,
        hrest.takeWhile_append hdigits, hrest.dropWhile_append hdigits]

/-- The text of a numeral is scanned as that numeral, unless a digit, an exponent or a point goes
on with it. -/
lemma scan_text_append {n : Numeral} (hn : n.WellFormed) {rest : Text}
    (hrest : EndsRun continuesNumber rest)
    (hpoint : n.isInteger = true → rest.head? ≠ some (('.' : Char) : CodePoint)) :
    scan (n.text ++ rest) = some (n, rest) := by
  obtain ⟨whole, fraction, exponent⟩ := n
  -- An exponent starts with its mark, which is neither a digit nor a point.
  have hdigit : EndsRun CodePoint.isDigit (exponentText exponent ++ rest) := by
    cases exponent with
    | none => exact fun c hc => isDigit_of_continuesNumber (hrest c hc)
    | some e =>
        apply endsRun_cons
        rcases (hn.exponent e rfl).mark with hmark | hmark <;> rw [hmark] <;> decide
  have hpoint' : fraction = none →
      (exponentText exponent ++ rest).head? ≠ some (('.' : Char) : CodePoint) := by
    rintro rfl
    cases exponent with
    | none => exact hpoint rfl
    | some e =>
        intro hhead
        have hdot : e.mark = ('.' : Char) := Option.some.inj hhead
        rcases (hn.exponent e rfl).mark with hmark | hmark <;> rw [hmark] at hdot <;>
          exact absurd hdot (by decide)
  have hfraction := scanFraction_append hn.fraction hdigit hpoint'
  have hexponent := scanExponent_append hn.exponent hrest
  have hend : EndsRun CodePoint.isDigit
      (fractionText fraction ++ (exponentText exponent ++ rest)) := by
    cases fraction with
    | none => exact hdigit
    | some digits => exact endsRun_cons (by decide) _
  have htext : text ⟨whole, fraction, exponent⟩ ++ rest
      = whole ++ (fractionText fraction ++ (exponentText exponent ++ rest)) := by
    simp only [text, List.append_assoc]
  rw [htext]
  simp only [scan, hend.takeWhile_append hn.whole, hend.dropWhile_append hn.whole, hfraction,
    hexponent]
  exact if_neg hn.ne_nil

/-- Digits in front of a point are scanned as a number with a point. -/
lemma scan_integer_point {digits rest : Text} (hdigits : ∀ c ∈ digits, c.isDigit = true)
    {n : Numeral} {behind : Text}
    (h : scan (digits ++ (('.' : Char) : CodePoint) :: rest) = some (n, behind)) :
    n.text ≠ digits := by
  have hend : EndsRun CodePoint.isDigit ((('.' : Char) : CodePoint) :: rest) :=
    endsRun_cons (by decide) rest
  simp only [scan, hend.takeWhile_append hdigits, hend.dropWhile_append hdigits] at h
  split at h
  · cases h
  · cases h
    intro htext
    have hlength := congrArg List.length htext
    simp [text, scanFraction, fractionText] at hlength

end Numeral

/-! ## Words -/

/-- A digit of any script is an ASCII digit or has a large number. -/
lemma CodePoint.isDigit_or_of_hasDigitProperty {c : CodePoint} (h : c.hasDigitProperty = true) :
    c.isDigit = true ∨ 0xB2 ≤ c.val := by
  have htable : ∀ range ∈ digitTable, range = (0x30, 0x39) ∨ 0xB2 ≤ range.1 := by decide
  obtain ⟨range, hrange, hlow, hhigh⟩ := RangeTable.holds_iff.mp h
  rcases htable range hrange with rfl | hlarge
  · exact .inl (within_iff.mpr ⟨hlow, hhigh⟩)
  · exact .inr (hlarge.trans hlow)

namespace Lexeme

lemma val_of_startsWord {c : CodePoint} (h : startsWord c = true) :
    0x24 ≤ c.val ∧ c.val ≤ 0x7A := by
  unfold startsWord CodePoint.isLetter at h
  simp only [Bool.or_eq_true, CodePoint.within_iff, decide_eq_true_eq] at h
  rcases h with ((h | h) | rfl) | rfl
  · omega
  · omega
  · decide
  · decide

lemma hasDigitProperty_of_startsWord {c : CodePoint} (h : startsWord c = true) :
    c.hasDigitProperty = false := by
  by_contra hdigit
  rw [Bool.not_eq_false] at hdigit
  rcases CodePoint.isDigit_or_of_hasDigitProperty hdigit with hdigit | hlarge
  · unfold startsWord CodePoint.isLetter at h
    have hrange := CodePoint.within_iff.mp hdigit
    simp only [Bool.or_eq_true, CodePoint.within_iff, decide_eq_true_eq] at h
    rcases h with ((h | h) | rfl) | rfl
    · omega
    · omega
    · exact absurd hdigit (by decide)
    · exact absurd hdigit (by decide)
  · have := val_of_startsWord h
    omega

end Lexeme

namespace Scan

open Lexeme

lemma startsComment_cons_iff {c : CodePoint} {rest : Text} :
    startsComment (c :: rest) = true ↔
      c = ('/' : Char) ∧ rest.head? = some (('/' : Char) : CodePoint) := by
  unfold startsComment
  rw [List.isPrefixOf_iff_prefix]
  constructor
  · rintro ⟨tail, htail⟩
    cases htail
    exact ⟨rfl, rfl⟩
  · rintro ⟨rfl, hhead⟩
    obtain ⟨tail, rfl⟩ := List.head?_eq_some_iff.mp hhead
    exact ⟨tail, rfl⟩

lemma startsComment_of_ne {c : CodePoint} (h : c ≠ ('/' : Char)) (rest : Text) :
    startsComment (c :: rest) = false := by
  by_contra hcomment
  rw [Bool.not_eq_false, startsComment_cons_iff] at hcomment
  exact h hcomment.1

/-- A word is read up to where it ends. -/
lemma reads_word {word : Text} (hword : IsWord word) {rest : Text}
    (hrest : EndsRun continuesWord rest) : Reads (word ++ rest) (ofWord word) rest := by
  obtain ⟨c, hhead, hc⟩ := hword.starts
  obtain ⟨tail, rfl⟩ := List.head?_eq_some_iff.mp hhead
  have htail : ∀ d ∈ tail, continuesWord d = true :=
    fun d hd => hword.continues d (List.mem_cons_of_mem c hd)
  -- No other kind of lexeme, no comment and no spacing starts as a word does.
  have hne : ∀ d : Char, startsWord d = false → c ≠ d := by
    rintro d hd rfl
    rw [hc] at hd
    cases hd
  have hspacing : c.isSpacing = false := by
    unfold CodePoint.isSpacing
    simp [hne ' ' (by decide), hne '\t' (by decide), hne '\n' (by decide), hne '\r' (by decide),
      hne '\x0c' (by decide)]
  have hnumber : startsNumber c (tail ++ rest) = false := by
    unfold startsNumber
    simp [hasDigitProperty_of_startsWord hc, hne '.' (by decide)]
  have hcomment := startsComment_of_ne (hne '/' (by decide)) (tail ++ rest)
  refine ⟨c, tail ++ rest, (c :: tail).length, rfl, hspacing, hcomment, ?_, ?_⟩
  · unfold Lexeme.read
    rw [if_neg (hne '"' (by decide)), if_neg (hne '\'' (by decide)), if_neg (by simp [hnumber]),
      if_pos hc, hrest.takeWhile_append htail]
  · simp

/-! ## Symbols -/

/-- Whether a symbol or a comment can go on with the code point. -/
def continuesSymbol (c : CodePoint) : Bool :=
  c = '=' || c = '<' || c = '>' || c = '&' || c = '|' || c = '/'

/-- A symbol that starts with the spelling of another one goes on with one of these marks. -/
lemma continuesSymbol_of_prefix : ∀ s ∈ Symbol.longestFirst, ∀ t ∈ Symbol.longestFirst,
    s.text <+: t.text → s = t ∨ (t.text.drop s.text.length).head?.any continuesSymbol = true := by
  decide +kernel

/-- What starts a symbol starts nothing else, a dot in front of a digit apart. -/
lemma symbol_head : ∀ s ∈ Symbol.longestFirst, s.text.head?.any (fun (c : CodePoint) =>
    c ≠ '"' && c ≠ '\'' && !c.hasDigitProperty && !startsWord c && !c.isSpacing &&
      (c ≠ '.' || decide (s = .dot))) = true ∧
    s.text.tail.head? ≠ some (('/' : Char) : CodePoint) := by
  decide +kernel

/-- The symbol that starts a text is found, unless the text goes on with it. -/
lemma startOf?_append (s : Symbol) {rest : Text} (hrest : EndsRun continuesSymbol rest) :
    Symbol.startOf? (s.text ++ rest) = some s := by
  unfold Symbol.startOf?
  have hs : s.text.isPrefixOf (s.text ++ rest) = true := by simp
  cases hfind : Symbol.longestFirst.find? fun t => t.text.isPrefixOf (s.text ++ rest) with
  | none => exact absurd hs (List.find?_eq_none.mp hfind s (Symbol.mem_longestFirst s))
  | some t =>
      obtain ⟨ht, before, behind, hsplit, hbefore⟩ := List.find?_eq_some_iff_append.mp hfind
      have hmem := Symbol.mem_longestFirst s
      rw [hsplit] at hmem
      rcases List.mem_append.mp hmem with hmem | hmem
      · have hnot := hbefore s hmem
        rw [hs] at hnot
        cases hnot
      rcases List.mem_cons.mp hmem with rfl | hmem
      · rfl
      -- The symbol `t` is tried before `s`, so it is no shorter, and `s` is its beginning.
      have hlength : s.text.length ≤ t.text.length := by
        have hsorted := Symbol.pairwise_longestFirst
        rw [hsplit, List.pairwise_append] at hsorted
        exact (List.pairwise_cons.mp hsorted.2.1).1 s hmem
      rw [List.isPrefixOf_iff_prefix] at ht
      have hstart : s.text <+: t.text :=
        List.prefix_of_prefix_length_le (List.prefix_append _ _) ht hlength
      rcases continuesSymbol_of_prefix s (Symbol.mem_longestFirst s) t (Symbol.mem_longestFirst t)
        hstart with rfl | hmark
      · rfl
      · obtain ⟨more, hmore⟩ := hstart
        rw [← hmore, List.drop_left] at hmark
        rw [← hmore, List.prefix_append_right_inj] at ht
        cases more with
        | nil => cases hmark
        | cons c more =>
            obtain ⟨tail, rfl⟩ := ht
            rw [List.head?_cons, Option.any_some, hrest c rfl] at hmark
            cases hmark

/-- A symbol is read, unless the text goes on with it or a dot is the point of a number. -/
lemma reads_symbol (s : Symbol) {rest : Text} (hrest : EndsRun continuesSymbol rest)
    (hdot : s = .dot → EndsRun CodePoint.hasDigitProperty rest) :
    Reads (s.text ++ rest) (.symbol s) rest := by
  obtain ⟨hhead, hslash⟩ := symbol_head s (Symbol.mem_longestFirst s)
  have hfound := startOf?_append s hrest
  obtain ⟨c, tail, htext⟩ := List.exists_cons_of_ne_nil s.text_ne_nil
  rw [htext] at hhead hslash hfound ⊢
  simp only [List.head?_cons, Option.any_some, Bool.and_eq_true, decide_eq_true_eq,
    Bool.not_eq_eq_eq_not, Bool.not_true, Bool.or_eq_true] at hhead
  obtain ⟨⟨⟨⟨⟨hquote, happ⟩, hdigit⟩, hword⟩, hspacing⟩, hpoint⟩ := hhead
  have hcomment : startsComment (c :: (tail ++ rest)) = false := by
    by_contra hcomment
    rw [Bool.not_eq_false, startsComment_cons_iff] at hcomment
    cases tail with
    | nil => exact absurd (hrest _ hcomment.2) (by decide)
    | cons d tail => exact hslash hcomment.2
  have hnumber : startsNumber c (tail ++ rest) = false := by
    unfold startsNumber
    rw [hdigit, Bool.false_or, Bool.and_eq_false_iff]
    by_cases hc : c = ('.' : Char)
    · right
      have hs := hpoint.resolve_left (by simp [hc])
      have hnil : tail = [] := by
        rw [hs] at htext
        exact (List.cons.inj htext).2.symm
      rw [hnil, List.nil_append]
      cases hr : rest.head? with
      | none => rfl
      | some d => exact hdot hs d hr
    · left
      exact decide_eq_false hc
  refine ⟨c, tail ++ rest, s.text.length, rfl, hspacing, hcomment, ?_, ?_⟩
  · unfold Lexeme.read
    rw [if_neg hquote, if_neg happ, if_neg (by simp [hnumber]), if_neg (by simp [hword])]
    rw [List.cons_append] at hfound
    rw [hfound]
  · rw [htext]
    simp

/-! ## Numbers -/

/-- Whether a suffix of a number starts with the code point. -/
def isNumberSuffix (c : CodePoint) : Bool :=
  (suffixKind? c).isSome

/-- A number starts with a digit, or with a point and a digit. -/
lemma exists_startsNumber {n : Numeral} (hn : n.WellFormed) :
    ∃ c tail, n.text = c :: tail ∧ (c.isDigit = true ∨ c = ('.' : Char)) ∧
      ∀ rest, startsNumber c (tail ++ rest) = true := by
  have hproperty : ∀ c : CodePoint, c.isDigit = true → c.hasDigitProperty = true := by
    intro c hc
    have hrange := CodePoint.within_iff.mp hc
    exact CodePoint.hasDigitProperty_of_ascii hrange.1 hrange.2
  obtain ⟨whole, fraction, exponent⟩ := n
  unfold Numeral.text
  cases whole with
  | cons c whole =>
      have hc := hn.whole c List.mem_cons_self
      refine ⟨c, _, rfl, .inl hc, fun rest => ?_⟩
      unfold startsNumber
      rw [hproperty c hc, Bool.true_or]
  | nil =>
      have hne : fraction.getD [] ≠ [] := fun hnil => hn.ne_nil ⟨rfl, hnil⟩
      cases fraction with
      | none => exact absurd rfl hne
      | some digits =>
          obtain ⟨d, digits, rfl⟩ := List.exists_cons_of_ne_nil hne
          have hd := hn.fraction d List.mem_cons_self
          refine ⟨('.' : Char), _, rfl, .inr rfl, fun rest => ?_⟩
          unfold startsNumber
          simp [hproperty d hd]

/-- Where a number starts, a number is read. -/
lemma reads_of_readNumber {n : Numeral} (hn : n.WellFormed) {t : Text} {x : Lexeme} (width : Nat)
    (hread : readNumber (n.text ++ t) = .ok ⟨x, n.text.length + width⟩) :
    Reads (n.text ++ t) x (t.drop width) := by
  obtain ⟨c, tail, htext, hc, hnumber⟩ := exists_startsNumber hn
  have hne : ∀ d : Char, (d : CodePoint).isDigit = false → d ≠ '.' → c ≠ d := by
    rintro d hdigit hpoint rfl
    rcases hc with hc | hc
    · rw [hc] at hdigit
      cases hdigit
    · exact hpoint (CodePoint.ofChar_injective hc)
  have hspacing : c.isSpacing = false := by
    unfold CodePoint.isSpacing
    simp [hne ' ' (by decide) (by decide), hne '\t' (by decide) (by decide),
      hne '\n' (by decide) (by decide), hne '\r' (by decide) (by decide),
      hne '\x0c' (by decide) (by decide)]
  have hcomment := startsComment_of_ne (hne '/' (by decide) (by decide)) (tail ++ t)
  rw [htext] at hread ⊢
  refine ⟨c, tail ++ t, (c :: tail).length + width, rfl, hspacing, hcomment, ?_, ?_⟩
  · unfold Lexeme.read
    rw [if_neg (hne '"' (by decide) (by decide)), if_neg (hne '\'' (by decide) (by decide)),
      if_pos (hnumber t)]
    exact hread
  · rw [List.length_cons, Nat.add_right_comm, Nat.add_sub_cancel, List.drop_append]
    simp

/-- A number without suffix is an integer or a floating number by its text. -/
lemma reads_number {n : Numeral} (hn : n.WellFormed) {rest : Text}
    (hrest : EndsRun Numeral.continuesNumber rest) (hsuffix : EndsRun isNumberSuffix rest)
    (hpoint : n.isInteger = true → rest.head? ≠ some (('.' : Char) : CodePoint)) :
    Reads (n.text ++ rest) (.literal ⟨if n.isInteger then .int else .double, n.text⟩) rest := by
  have hnone : scanSuffix rest = none := by
    cases rest with
    | nil => rfl
    | cons c rest =>
        have hc := hsuffix c rfl
        unfold isNumberSuffix at hc
        rw [Option.isSome_eq_false_iff, Option.isNone_iff_eq_none] at hc
        rw [scanSuffix, hc, Option.map_none]
  apply reads_of_readNumber hn 0
  unfold readNumber
  rw [Numeral.scan_text_append hn hrest hpoint]
  simp only [hnone]
  rfl

/-- A suffix gives a number its kind. -/
lemma reads_suffixed {n : Numeral} (hn : n.WellFormed) {c : CodePoint} {kind : LiteralKind}
    (hkind : suffixKind? c = some kind) (hlong : kind = .long → n.isInteger = true)
    (rest : Text) : Reads (n.text ++ c :: rest) (.literal ⟨kind, n.text⟩) rest := by
  have hc : Numeral.continuesNumber c = false ∧ c ≠ ('.' : Char) := by
    unfold suffixKind? at hkind
    split at hkind
    · next h => rcases h with rfl | rfl <;> decide
    split at hkind
    · next h => rcases h with rfl | rfl <;> decide
    split at hkind
    · next h => rcases h with rfl | rfl <;> decide
    · cases hkind
  have hscan := Numeral.scan_text_append hn (endsRun_cons hc.1 rest) (fun _ => by simp [hc.2])
  have hsuffix : scanSuffix (c :: rest) = some (c, kind) := by
    rw [scanSuffix, hkind, Option.map_some]
  apply reads_of_readNumber hn 1
  unfold readNumber
  rw [hscan]
  simp only [hsuffix]
  rw [if_neg (by
    rintro ⟨hk, hinteger⟩
    rw [hlong hk] at hinteger
    cases hinteger)]

/-- Digits in front of a point are never read as a literal of these digits. -/
lemma integer_ne_of_reads {digits rest : Text} (hdigits : ∀ c ∈ digits, c.isDigit = true)
    (hne : digits ≠ []) {kind : LiteralKind} {behind : Text} :
    ¬ Reads (digits ++ (('.' : Char) : CodePoint) :: rest) (.literal ⟨kind, digits⟩) behind := by
  rintro ⟨c, tail, width, heq, -, -, hread, -⟩
  obtain ⟨d, digits, rfl⟩ := List.exists_cons_of_ne_nil hne
  rw [List.cons_append] at heq
  cases heq
  have hd := hdigits c List.mem_cons_self
  have hrange := CodePoint.within_iff.mp hd
  unfold Lexeme.read at hread
  rw [if_neg (by rintro rfl; exact absurd hd (by decide)),
    if_neg (by rintro rfl; exact absurd hd (by decide)),
    if_pos (by rw [startsNumber, CodePoint.hasDigitProperty_of_ascii hrange.1 hrange.2,
      Bool.true_or])] at hread
  unfold readNumber at hread
  split at hread
  · cases hread
  · next n after hscan =>
    have htext := Numeral.scan_integer_point hdigits hscan
    split at hread
    · simp only [Except.ok.injEq, Reading.mk.injEq, Lexeme.literal.injEq, Literal.mk.injEq] at hread
      exact htext hread.1.2
    · split at hread
      · cases hread
      · simp only [Except.ok.injEq, Reading.mk.injEq, Lexeme.literal.injEq,
          Literal.mk.injEq] at hread
        exact htext hread.1.2

/-! ## Quoted literals -/

/-- Contents are read back from their escaped form, up to the closing quote. -/
lemma readContents_escaped (quote : CodePoint) (hquote : Escape.letter? quote = some quote)
    (hne : quote ≠ ('\\' : Char)) (unfinished : LexicalIssue) (offset : Nat) (t rest : Text) :
    readContents quote unfinished offset (t.escaped quote ++ quote :: rest)
      = .ok (t, offset + (t.escaped quote).length + 1) := by
  induction t generalizing offset with
  | nil =>
      rw [Text.escaped, List.flatMap_nil, List.nil_append, readContents, if_neg hne, if_pos rfl]
      rfl
  | cons c t ih =>
      have hcons : Text.escaped quote (c :: t)
          = (if c = ('\\' : Char) ∨ c = quote then [(('\\' : Char) : CodePoint), c] else [c])
            ++ Text.escaped quote t := rfl
      rw [hcons]
      by_cases hc : c = ('\\' : Char) ∨ c = quote
      · have hletter : Escape.letter? c = some c := by
          rcases hc with rfl | rfl
          · decide
          · exact hquote
        rw [if_pos hc, List.append_assoc, List.cons_append, readContents, if_pos rfl]
        simp only [List.cons_append, List.nil_append, Escape.read, hletter, List.drop_one,
          List.tail_cons, ih]
        simp only [List.length_cons]
        congr 2
        omega
      · rw [not_or] at hc
        rw [if_neg (by simp [hc]), List.append_assoc, List.cons_append, List.nil_append,
          readContents, if_neg hc.1, if_neg hc.2, ih]
        simp only [List.length_append, List.length_cons, List.length_nil]
        congr 2
        omega

/-- A string literal is read back from its escaped contents. -/
lemma reads_string (t rest : Text) :
    Reads ((Literal.mk .string t).render ++ rest) (.literal ⟨.string, t⟩) rest := by
  have hrender : (Literal.mk .string t).render ++ rest
      = (('"' : Char) : CodePoint) ::
        (t.escaped ('"' : Char) ++ (('"' : Char) : CodePoint) :: rest) := by
    simp only [Literal.render, List.append_assoc]
    rfl
  have hcontents := readContents_escaped ('"' : Char) (by decide) (by decide)
    .unfinishedString 1 t rest
  rw [hrender]
  refine ⟨_, _, 1 + (t.escaped ('"' : Char)).length + 1, rfl, by decide,
    startsComment_of_ne (by decide) _, ?_, ?_⟩
  · unfold Lexeme.read readString
    rw [if_pos rfl, hcontents]
  · rw [Nat.add_sub_cancel, Nat.add_comm, List.drop_append]
    simp

/-- A character literal is read back from its escaped contents. -/
lemma reads_char {t : Text} (ht : t.length = 1) (rest : Text) :
    Reads ((Literal.mk .char t).render ++ rest) (.literal ⟨.char, t⟩) rest := by
  have hrender : (Literal.mk .char t).render ++ rest
      = (('\'' : Char) : CodePoint)
        :: (t.escaped ('\'' : Char) ++ (('\'' : Char) : CodePoint) :: rest) := by
    simp only [Literal.render, List.append_assoc]
    rfl
  have hcontents := readContents_escaped ('\'' : Char) (by decide) (by decide)
    .unfinishedChar 1 t rest
  rw [hrender]
  refine ⟨_, _, 1 + (t.escaped ('\'' : Char)).length + 1, rfl, by decide,
    startsComment_of_ne (by decide) _, ?_, ?_⟩
  · unfold Lexeme.read readChar
    rw [if_neg (by decide), if_pos rfl, hcontents]
    simp only [if_pos ht]
  · rw [Nat.add_sub_cancel, Nat.add_comm, List.drop_append]
    simp

end Scan

end LineShell
