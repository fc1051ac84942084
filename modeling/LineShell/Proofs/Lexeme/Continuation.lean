import LineShell.Proofs.Lexeme.Reading

/-!
# Lexemes in front of more text

What a lexeme is depends on the code points that it takes and on whether the text goes on with it.
Here a text `u` is put behind the text that a lexeme is read from.

* A quoted literal ends at its closing quote, whatever follows (`readContents_append_iff`).
* Every other lexeme is the same with `u` behind it, and so is every failure to read one, unless
  `u` starts with a code point that some lexeme goes on with (`mayExtend`, `read_append_of_ne`).

Both together: with a text behind it that goes on with no lexeme (`Text.Detached`), every lexeme is
still read (`read_append`), and nothing is read that was not read before (`read_of_append`).
-/

namespace LineShell

/-! ## Runs in front of more text -/

namespace Text

variable {p : CodePoint → Bool} {t u : Text}

/-- A run that ends inside a text is the same with more text behind it. -/
lemma takeWhile_append_of_lt (h : (t.takeWhile p).length < t.length) (u : Text) :
    (t ++ u).takeWhile p = t.takeWhile p := by
  rw [List.takeWhile_append, if_neg (Nat.ne_of_lt h)]

/-- A run that ends inside the first part of a text is a run of this part. -/
lemma takeWhile_append_of_append_lt (h : ((t ++ u).takeWhile p).length < t.length) :
    (t ++ u).takeWhile p = t.takeWhile p := by
  rw [List.takeWhile_append] at h ⊢
  split
  · next hall =>
    rw [if_pos hall, List.length_append] at h
    omega
  · rfl

/-- What stands behind a run that is the same with more text behind it. -/
lemma dropWhile_append_of_takeWhile (h : (t ++ u).takeWhile p = t.takeWhile p) :
    (t ++ u).dropWhile p = t.dropWhile p ++ u := by
  have hwhole : (t ++ u).takeWhile p ++ (t ++ u).dropWhile p
      = t.takeWhile p ++ (t.dropWhile p ++ u) := by
    rw [List.takeWhile_append_dropWhile, ← List.append_assoc, List.takeWhile_append_dropWhile]
  rw [h] at hwhole
  exact List.append_cancel_left hwhole

/-- A run does not go on in a text that starts with another kind of code point. -/
lemma EndsRun.takeWhile_append_eq (h : EndsRun p u) (t : Text) :
    (t ++ u).takeWhile p = t.takeWhile p := by
  have hnil : u.takeWhile p = [] := by
    cases u with
    | nil => rfl
    | cons c u => simp [h c rfl]
  rw [List.takeWhile_append, hnil, List.append_nil]
  split
  · next hall => exact ((List.takeWhile_prefix p).eq_of_length hall).symm
  · rfl

lemma EndsRun.dropWhile_append_eq (h : EndsRun p u) (t : Text) :
    (t ++ u).dropWhile p = t.dropWhile p ++ u :=
  dropWhile_append_of_takeWhile (h.takeWhile_append_eq t)

end Text

open Text

/-! ## Escape sequences -/

namespace Escape

variable {t u : Text}

/-- Octal digits that end inside a text are the same with more text behind it. -/
lemma octalDigits_append (h : (octalDigits t).length < t.length ∨
      (octalDigits (t ++ u)).length < t.length) :
    octalDigits (t ++ u) = octalDigits t := by
  cases t with
  | nil => simp at h
  | cons c rest =>
      simp only [List.cons_append, octalDigits] at h ⊢
      by_cases hc : c.isOctalDigit = true
      · simp only [if_pos hc, List.length_cons] at h ⊢
        generalize (if c.digitValue ≤ 3 then 2 else 1) = limit at h ⊢
        congr 1
        rw [List.take_append] at h ⊢
        by_cases hlimit : limit ≤ rest.length
        · rw [Nat.sub_eq_zero_of_le hlimit, List.take_zero, List.append_nil]
        · -- The limit is not reached in `rest`, so the digits end inside `rest`.
          rw [List.take_of_length_le (by omega)] at h ⊢
          rcases h with h | h
          · exact takeWhile_append_of_lt (by omega) _
          · exact takeWhile_append_of_append_lt (by omega)
      · rw [if_neg hc, if_neg hc]

/-- An escape that ends inside a text is read whether or not more text stands behind. -/
lemma read_append_iff {e : Escape} (h : e.width < t.length) (u : Text) :
    read (t ++ u) = .ok e ↔ read t = .ok e := by
  cases t with
  | nil => simp at h
  | cons c rest =>
      simp only [List.cons_append, read]
      rcases letter? c with _ | target
      · by_cases hoctal : c.isOctalDigit = true
        · simp only [if_pos hoctal, Except.ok.injEq]
          constructor
          · rintro rfl
            have hdigits := octalDigits_append (t := c :: rest) (u := u) (.inr h)
            rw [List.cons_append] at hdigits
            simp only [octalTarget, hdigits]
          · rintro rfl
            have hdigits := octalDigits_append (t := c :: rest) (u := u) (.inl h)
            rw [List.cons_append] at hdigits
            simp only [octalTarget, hdigits]
        · simp only [if_neg hoctal]
          by_cases hmark : isMark c = true
          · simp only [if_pos hmark]
            -- Marks and digits end inside `rest` in either case.
            have hsame : (rest.takeWhile isMark).length + 4 < rest.length ∨
                  ((rest ++ u).takeWhile isMark).length + 4 < rest.length →
                (rest ++ u).takeWhile isMark = rest.takeWhile isMark ∧
                  ((rest ++ u).dropWhile isMark).take 4 = (rest.dropWhile isMark).take 4 := by
              intro hlt
              have hmarks : (rest ++ u).takeWhile isMark = rest.takeWhile isMark := by
                rcases hlt with hlt | hlt
                · exact takeWhile_append_of_lt (by omega) u
                · exact takeWhile_append_of_append_lt (by omega)
              rw [hmarks, or_self] at hlt
              refine ⟨hmarks, ?_⟩
              have hlength := congrArg List.length
                (List.takeWhile_append_dropWhile (p := isMark) (l := rest))
              rw [List.length_append] at hlength
              rw [dropWhile_append_of_takeWhile hmarks, List.take_append_of_le_length (by omega)]
            constructor
            · intro hread
              split at hread
              · next hunit =>
                cases hread
                simp only [List.length_cons] at h
                obtain ⟨hmarks, hdigits⟩ := hsame (.inr (by omega))
                simp only [hmarks, hdigits] at hunit ⊢
                rw [dif_pos hunit]
              · cases hread
            · intro hread
              split at hread
              · next hunit =>
                cases hread
                simp only [List.length_cons] at h
                obtain ⟨hmarks, hdigits⟩ := hsame (.inl (by omega))
                simp only [hmarks, hdigits]
                rw [dif_pos hunit]
              · cases hread
          · simp only [if_neg hmark, reduceCtorEq]
      · rfl

end Escape

/-! ## Quoted literals -/

namespace Lexeme

variable {quote : CodePoint} {unfinished : LexicalIssue} {offset width : Nat} {t u contents : Text}

/-- Contents start with an escape, end with the closing quote, or start with a code point that
stands for itself. -/
lemma readContents_cons_eq_ok_iff {c : CodePoint} {rest : Text} :
    readContents quote unfinished offset (c :: rest) = .ok (contents, width) ↔
      (c = ('\\' : Char) ∧ ∃ e more, Escape.read rest = .ok e ∧
        readContents quote unfinished (offset + 1 + e.width) (rest.drop e.width)
          = .ok (more, width) ∧ contents = e.target :: more) ∨
      (c ≠ ('\\' : Char) ∧ c = quote ∧ contents = [] ∧ width = offset + 1) ∨
      (c ≠ ('\\' : Char) ∧ c ≠ quote ∧ ∃ more,
        readContents quote unfinished (offset + 1) rest = .ok (more, width) ∧
          contents = c :: more) := by
  rw [readContents]
  by_cases hslash : c = ('\\' : Char)
  · rw [if_pos hslash]
    simp only [hslash, ne_eq, not_true_eq_false, false_and, or_false, true_and]
    rcases hescape : Escape.read rest with issue | e
    · simp
    · simp only [Except.ok.injEq, exists_eq_left', exists_and_left]
      rcases readContents quote unfinished (offset + 1 + e.width) (rest.drop e.width) with
        failure | ⟨more, behind⟩
      · simp
      · simp only [Except.ok.injEq, Prod.mk.injEq]
        constructor
        · rintro ⟨rfl, rfl⟩
          exact ⟨more, ⟨rfl, rfl⟩, rfl⟩
        · rintro ⟨_, ⟨rfl, rfl⟩, rfl⟩
          exact ⟨rfl, rfl⟩
  · rw [if_neg hslash]
    simp only [hslash, false_and, false_or, ne_eq, not_false_eq_true, true_and]
    by_cases hquote : c = quote
    · rw [if_pos hquote]
      simp only [hquote, true_and, not_true_eq_false, false_and, or_false, Except.ok.injEq,
        Prod.mk.injEq]
      exact and_congr eq_comm eq_comm
    · rw [if_neg hquote]
      simp only [hquote, false_and, false_or, not_false_eq_true, true_and]
      rcases readContents quote unfinished (offset + 1) rest with failure | ⟨more, behind⟩
      · simp
      · simp only [Except.ok.injEq, Prod.mk.injEq]
        constructor
        · rintro ⟨rfl, rfl⟩
          exact ⟨more, ⟨rfl, rfl⟩, rfl⟩
        · rintro ⟨_, ⟨rfl, rfl⟩, rfl⟩
          exact ⟨rfl, rfl⟩

lemma readContents_nil :
    readContents quote unfinished offset [] = .error ⟨unfinished, 0⟩ := by
  rw [readContents]

/-- The closing quote is the last code point that a literal takes, and it lies in the text. -/
lemma getElem?_of_readContents
    (h : readContents quote unfinished offset t = .ok (contents, width)) :
    ∃ i, width = offset + i + 1 ∧ t[i]? = some quote := by
  induction hn : t.length using Nat.strong_induction_on generalizing offset t contents with
  | _ n ih =>
      subst hn
      cases t with
      | nil =>
          rw [readContents_nil] at h
          cases h
      | cons c rest =>
          rcases readContents_cons_eq_ok_iff.mp h with ⟨-, e, more, -, hmore, -⟩ |
            ⟨-, hquote, -, rfl⟩ | ⟨-, -, more, hmore, -⟩
          · have hlt : (rest.drop e.width).length < (c :: rest).length := by
              rw [List.length_drop, List.length_cons]
              omega
            obtain ⟨i, hi, hget⟩ := ih _ hlt hmore rfl
            refine ⟨e.width + i + 1, by omega, ?_⟩
            rw [List.getElem?_cons_succ, ← List.getElem?_drop]
            exact hget
          · exact ⟨0, rfl, by rw [List.getElem?_cons_zero, hquote]⟩
          · obtain ⟨i, hi, hget⟩ := ih _ (by simp) hmore rfl
            exact ⟨i + 1, by omega, by rw [List.getElem?_cons_succ, hget]⟩

lemma width_le_of_readContents
    (h : readContents quote unfinished offset t = .ok (contents, width)) :
    width ≤ offset + t.length := by
  obtain ⟨i, hi, hget⟩ := getElem?_of_readContents h
  have hlt := (List.getElem?_eq_some_iff.mp hget).1
  omega

/-- A literal that is closed inside a text is read whether or not more text stands behind. -/
lemma readContents_append_iff (hwidth : width ≤ offset + t.length) (u : Text) :
    readContents quote unfinished offset (t ++ u) = .ok (contents, width) ↔
      readContents quote unfinished offset t = .ok (contents, width) := by
  induction hn : t.length using Nat.strong_induction_on generalizing offset t contents with
  | _ n ih =>
      subst hn
      cases t with
      | nil =>
          rw [readContents_nil]
          refine ⟨fun h => ?_, fun h => by cases h⟩
          have hlt := lt_of_readContents h
          rw [List.length_nil] at hwidth
          omega
      | cons c rest =>
          rw [List.length_cons] at hwidth
          -- The rest of the literal is closed inside `rest` too.
          have hstep : ∀ more,
              readContents quote unfinished (offset + 1) (rest ++ u) = .ok (more, width) ↔
                readContents quote unfinished (offset + 1) rest = .ok (more, width) :=
            fun more => ih _ (by simp) (by omega) rfl
          have hescape : ∀ (e : Escape) more,
              (Escape.read (rest ++ u) = .ok e ∧
                readContents quote unfinished (offset + 1 + e.width) ((rest ++ u).drop e.width)
                  = .ok (more, width)) ↔
              (Escape.read rest = .ok e ∧
                readContents quote unfinished (offset + 1 + e.width) (rest.drop e.width)
                  = .ok (more, width)) := by
            intro e more
            by_cases he : e.width < rest.length
            · rw [Escape.read_append_iff he u, List.drop_append_of_le_length (by omega)]
              refine and_congr_right fun _ => ih _ ?_ ?_ rfl
              · rw [List.length_drop, List.length_cons]
                omega
              · rw [List.length_drop]
                omega
            · constructor
              · rintro ⟨-, hmore⟩
                have hlt := lt_of_readContents hmore
                omega
              · rintro ⟨-, hmore⟩
                have hlt := lt_of_readContents hmore
                omega
          rw [List.cons_append, readContents_cons_eq_ok_iff, readContents_cons_eq_ok_iff]
          simp only [hstep, ← and_assoc, hescape]

/-! ## Code points that a lexeme goes on with -/

/-- Whether some lexeme, or something that starts like one, can go on with the code point. -/
def mayExtend (c : CodePoint) : Bool :=
  continuesWord c || Scan.continuesSymbol c || c = '.' || c = '+' || c = '-'

lemma mayExtend_eq_false {c : CodePoint} (h : mayExtend c = false) :
    continuesWord c = false ∧ Scan.continuesSymbol c = false ∧ c ≠ ('.' : Char) ∧
      c ≠ ('+' : Char) ∧ c ≠ ('-' : Char) := by
  unfold mayExtend at h
  simp only [Bool.or_eq_false_iff, decide_eq_false_iff_not] at h
  obtain ⟨⟨⟨⟨hword, hsymbol⟩, hdot⟩, hplus⟩, hminus⟩ := h
  exact ⟨hword, hsymbol, hdot, hplus, hminus⟩

/-- Apart from words, lexemes go on with nine marks. -/
lemma mayExtend_of_ne {c : CodePoint} (hword : continuesWord c = false)
    (hne : ∀ d ∈ ("=<>&|/.+-" : Text), c ≠ d) : mayExtend c = false := by
  have hmark : ∀ d : Char, CodePoint.ofChar d ∈ ("=<>&|/.+-" : Text) → c ≠ d :=
    fun d hd => hne d hd
  simp [mayExtend, Scan.continuesSymbol, hword, hmark '=' (by decide), hmark '<' (by decide),
    hmark '>' (by decide), hmark '&' (by decide), hmark '|' (by decide), hmark '/' (by decide),
    hmark '.' (by decide), hmark '+' (by decide), hmark '-' (by decide)]

lemma isDigit_of_mayExtend {c : CodePoint} (h : mayExtend c = false) : c.isDigit = false := by
  have hword := (mayExtend_eq_false h).1
  unfold continuesWord at hword
  exact (Bool.or_eq_false_iff.mp hword).2

lemma ne_of_mayExtend {c : CodePoint} (h : mayExtend c = false) {d : CodePoint}
    (hd : continuesWord d = true) : c ≠ d := by
  rintro rfl
  rw [(mayExtend_eq_false h).1] at hd
  cases hd

end Lexeme

open Lexeme (mayExtend isDigit_of_mayExtend ne_of_mayExtend mayExtend_eq_false)

/-! ## Numerals -/

namespace Numeral

variable {u : Text}

lemma scanSign_append_of_endsRun (hu : EndsRun mayExtend u) (t : Text) :
    scanSign (t ++ u) = ((scanSign t).1, (scanSign t).2 ++ u) := by
  cases t with
  | nil =>
      cases u with
      | nil => rfl
      | cons c u =>
          obtain ⟨-, -, -, hplus, hminus⟩ := mayExtend_eq_false (hu c rfl)
          simp [scanSign, hplus, hminus]
  | cons c t =>
      simp only [List.cons_append, scanSign]
      split
      · rfl
      · rfl

lemma scanFraction_append_of_endsRun (hu : EndsRun mayExtend u) (t : Text) :
    scanFraction (t ++ u) = ((scanFraction t).1, (scanFraction t).2 ++ u) := by
  have hdigit : EndsRun CodePoint.isDigit u := fun c hc => isDigit_of_mayExtend (hu c hc)
  cases t with
  | nil =>
      cases u with
      | nil => rfl
      | cons c u =>
          have hdot := (mayExtend_eq_false (hu c rfl)).2.2.1
          simp [scanFraction, hdot]
  | cons c t =>
      simp only [List.cons_append, scanFraction]
      split
      · rw [hdigit.takeWhile_append_eq, hdigit.dropWhile_append_eq]
      · rfl

lemma scanExponent_append_of_endsRun (hu : EndsRun mayExtend u) (t : Text) :
    scanExponent (t ++ u) = ((scanExponent t).1, (scanExponent t).2 ++ u) := by
  have hdigit : EndsRun CodePoint.isDigit u := fun c hc => isDigit_of_mayExtend (hu c hc)
  cases t with
  | nil =>
      cases u with
      | nil => rfl
      | cons c u =>
          have hlower := ne_of_mayExtend (hu c rfl) (d := ('e' : Char)) (by decide)
          have hupper := ne_of_mayExtend (hu c rfl) (d := ('E' : Char)) (by decide)
          simp [scanExponent, hlower, hupper]
  | cons mark t =>
      simp only [List.cons_append, scanExponent]
      split
      · rw [scanSign_append_of_endsRun hu t]
        simp only [hdigit.takeWhile_append_eq, hdigit.dropWhile_append_eq]
        split
        · rfl
        · rfl
      · rfl

/-- The numeral at the start of a text is the same with a text behind it that starts with nothing
a numeral goes on with. -/
lemma scan_append_of_endsRun (hu : EndsRun mayExtend u) (t : Text) :
    scan (t ++ u) = (scan t).map fun found => (found.1, found.2 ++ u) := by
  have hdigit : EndsRun CodePoint.isDigit u := fun c hc => isDigit_of_mayExtend (hu c hc)
  simp only [scan, hdigit.takeWhile_append_eq, hdigit.dropWhile_append_eq,
    scanFraction_append_of_endsRun hu, scanExponent_append_of_endsRun hu]
  split
  · rfl
  · rfl

end Numeral

/-! ## Numbers, words and symbols -/

namespace Lexeme

variable {c : CodePoint} {rest u : Text}

lemma scanSuffix_append (hu : EndsRun mayExtend u) (t : Text) :
    scanSuffix (t ++ u) = scanSuffix t := by
  cases t with
  | cons d t => rfl
  | nil =>
      cases u with
      | nil => rfl
      | cons d u =>
          have hne : ∀ e : Char, continuesWord e = true → d ≠ e :=
            fun e he => ne_of_mayExtend (hu d rfl) he
          simp [scanSuffix, suffixKind?, hne 'l' (by decide), hne 'L' (by decide),
            hne 'f' (by decide), hne 'F' (by decide), hne 'd' (by decide), hne 'D' (by decide)]

lemma readNumber_append (hu : EndsRun mayExtend u) (t : Text) :
    readNumber (t ++ u) = readNumber t := by
  unfold readNumber
  rw [Numeral.scan_append_of_endsRun hu]
  rcases Numeral.scan t with _ | ⟨n, behind⟩
  · rfl
  · simp only [Option.map_some, scanSuffix_append hu]

/-- Behind its first code point a symbol has only marks that extend another symbol. -/
lemma mayExtend_of_mem_tail : ∀ s ∈ Symbol.longestFirst, ∀ d ∈ s.text.tail,
    mayExtend d = true := by
  decide +kernel

lemma startOf?_append_of_endsRun (hu : EndsRun mayExtend u) (c : CodePoint) (rest : Text) :
    Symbol.startOf? (c :: (rest ++ u)) = Symbol.startOf? (c :: rest) := by
  unfold Symbol.startOf?
  congr 1
  funext s
  have hs := Symbol.mem_longestFirst s
  rw [Bool.eq_iff_iff, List.isPrefixOf_iff_prefix, List.isPrefixOf_iff_prefix]
  constructor
  · intro hprefix
    by_cases hlength : s.text.length ≤ (c :: rest).length
    · exact List.prefix_of_prefix_length_le hprefix (List.prefix_append (c :: rest) u) hlength
    · -- A longer symbol would have the first code point of `u` inside it.
      obtain ⟨more, hmore⟩ := List.prefix_of_prefix_length_le (List.prefix_append (c :: rest) u)
        hprefix (by omega)
      rw [← hmore] at hprefix hlength
      cases more with
      | nil => simp at hlength
      | cons d more =>
          have hd := mayExtend_of_mem_tail s hs d (by rw [← hmore]; simp)
          have hhead : u.head? = some d := by
            have hrest : d :: more <+: u := (List.prefix_append_right_inj (c :: rest)).mp hprefix
            obtain ⟨tail, rfl⟩ := hrest
            rfl
          rw [hu d hhead] at hd
          cases hd
  · intro hprefix
    exact hprefix.trans (List.prefix_append (c :: rest) u)

/-- What is no quoted literal is read, or fails to be read, in the same way with a text behind it
that starts with nothing a lexeme goes on with. A dot must not become the point of a number. -/
lemma read_append_of_ne (hu : EndsRun mayExtend u) (hquote : c ≠ ('"' : Char))
    (happ : c ≠ ('\'' : Char))
    (hdot : c = ('.' : Char) → rest = [] → EndsRun CodePoint.hasDigitProperty u) :
    read c (rest ++ u) = read c rest := by
  have hword : EndsRun continuesWord u := fun d hd => (mayExtend_eq_false (hu d hd)).1
  have hnumber : startsNumber c (rest ++ u) = startsNumber c rest := by
    unfold startsNumber
    by_cases hc : c = ('.' : Char)
    · cases rest with
      | cons d rest => rfl
      | nil =>
          have hnone : u.head?.any CodePoint.hasDigitProperty = false := by
            rcases hhead : u.head? with _ | d
            · rfl
            · exact hdot hc rfl d hhead
          rw [List.nil_append, hnone]
          rfl
    · rw [decide_eq_false hc, Bool.false_and, Bool.false_and]
  unfold read
  rw [if_neg hquote, if_neg hquote, if_neg happ, if_neg happ, hnumber, ← List.cons_append,
    readNumber_append hu, List.cons_append, hword.takeWhile_append_eq,
    startOf?_append_of_endsRun hu]

end Lexeme

/-! ## Texts that go on with no lexeme -/

/-- The text starts with nothing that goes on with a lexeme in front of it. -/
structure Text.Detached (u : Text) : Prop where
  /-- No word, number or symbol goes on. -/
  endsRun : EndsRun mayExtend u
  /-- No dot becomes the point of a number. -/
  endsRun_digit : EndsRun CodePoint.hasDigitProperty u

/-- The text holds no quote that could close a literal. -/
def Text.Quoteless (u : Text) : Prop :=
  (('"' : Char) : CodePoint) ∉ u ∧ (('\'' : Char) : CodePoint) ∉ u

lemma Text.detached_cons {c : CodePoint} (hc : mayExtend c = false)
    (hdigit : c.hasDigitProperty = false) (u : Text) : Detached (c :: u) :=
  ⟨endsRun_cons hc u, endsRun_cons hdigit u⟩

namespace Lexeme

variable {c : CodePoint} {rest u : Text} {reading : Reading}

lemma readString_eq_ok_iff :
    readString rest = .ok reading ↔ ∃ contents,
      readContents ('"' : Char) .unfinishedString 1 rest = .ok (contents, reading.width) ∧
        reading.lexeme = .literal ⟨.string, contents⟩ := by
  obtain ⟨x, width⟩ := reading
  unfold readString
  rcases readContents ('"' : Char) .unfinishedString 1 rest with e | ⟨contents, behind⟩
  · simp
  · simp only [Except.ok.injEq, Reading.mk.injEq, Prod.mk.injEq]
    constructor
    · rintro ⟨rfl, rfl⟩
      exact ⟨contents, ⟨rfl, rfl⟩, rfl⟩
    · rintro ⟨_, ⟨rfl, rfl⟩, rfl⟩
      exact ⟨rfl, rfl⟩

lemma readChar_eq_ok_iff :
    readChar rest = .ok reading ↔ ∃ contents,
      readContents ('\'' : Char) .unfinishedChar 1 rest = .ok (contents, reading.width) ∧
        contents.length = 1 ∧ reading.lexeme = .literal ⟨.char, contents⟩ := by
  obtain ⟨x, width⟩ := reading
  unfold readChar
  rcases readContents ('\'' : Char) .unfinishedChar 1 rest with e | ⟨contents, behind⟩
  · simp
  · by_cases hone : contents.length = 1
    · simp only [if_pos hone, Except.ok.injEq, Reading.mk.injEq, Prod.mk.injEq]
      constructor
      · rintro ⟨rfl, rfl⟩
        exact ⟨contents, ⟨rfl, rfl⟩, hone, rfl⟩
      · rintro ⟨_, ⟨rfl, rfl⟩, -, rfl⟩
        exact ⟨rfl, rfl⟩
    · simp only [if_neg hone, reduceCtorEq, false_iff]
      rintro ⟨_, heq, hlength, -⟩
      cases heq
      exact hone hlength

/-- A quoted literal fails with an error or is read, and no fault comes from it. -/
lemma read_ne_fault_of_quote (hc : c = ('"' : Char) ∨ c = ('\'' : Char)) (rest : Text)
    (f : Fault) : read c rest ≠ .error (.fault f) := by
  rcases hc with rfl | rfl
  · unfold read readString
    rw [if_pos rfl]
    split
    · simp
    · simp
  · unfold read readChar
    rw [if_neg (by decide), if_pos rfl]
    split
    · simp
    · split
      · simp
      · simp

/-- A quoted literal that ends inside a text is read whether or not more text stands behind. -/
lemma read_append_iff_of_quote (hc : c = ('"' : Char) ∨ c = ('\'' : Char))
    (hwidth : reading.width ≤ rest.length + 1) (u : Text) :
    read c (rest ++ u) = .ok reading ↔ read c rest = .ok reading := by
  rw [Nat.add_comm] at hwidth
  rcases hc with rfl | rfl
  · have hread : ∀ t, read ('"' : Char) t = readString t := fun t => if_pos rfl
    simp only [hread, readString_eq_ok_iff, readContents_append_iff hwidth]
  · have hread : ∀ t, read ('\'' : Char) t = readChar t := fun t => by
      rw [read, if_neg (by decide), if_pos rfl]
    simp only [hread, readChar_eq_ok_iff, readContents_append_iff hwidth]

/-- A quoted literal that is closed behind a text is closed by a quote that stands there. -/
lemma quote_mem_of_read_append (hc : c = ('"' : Char) ∨ c = ('\'' : Char))
    (h : read c (rest ++ u) = .ok reading) (hwidth : rest.length + 1 < reading.width) : c ∈ u := by
  have hclosed : ∃ i, reading.width = 1 + i + 1 ∧ (rest ++ u)[i]? = some c := by
    rcases hc with rfl | rfl
    · rw [read, if_pos rfl, readString_eq_ok_iff] at h
      obtain ⟨contents, hcontents, -⟩ := h
      exact getElem?_of_readContents hcontents
    · rw [read, if_neg (by decide), if_pos rfl, readChar_eq_ok_iff] at h
      obtain ⟨contents, hcontents, -⟩ := h
      exact getElem?_of_readContents hcontents
  obtain ⟨i, hi, hget⟩ := hclosed
  rw [List.getElem?_append_right (by omega)] at hget
  exact List.mem_of_getElem? hget

end Lexeme

/-! ## Digits of other scripts -/

/-- Whether the code point is a digit, but none that numbers are written with. -/
def CodePoint.isForeignDigit (c : CodePoint) : Bool :=
  c.hasDigitProperty && !c.isDigit

lemma CodePoint.isForeignDigit_iff {c : CodePoint} :
    c.isForeignDigit = true ↔ c.hasDigitProperty = true ∧ c.isDigit = false := by
  simp [isForeignDigit]

/-- Digits of other scripts have large numbers. -/
lemma CodePoint.le_val_of_isForeignDigit {c : CodePoint} (h : c.isForeignDigit = true) :
    0xB2 ≤ c.val := by
  obtain ⟨hdigit, hascii⟩ := isForeignDigit_iff.mp h
  apply (isDigit_or_of_hasDigitProperty hdigit).resolve_left
  simp [hascii]

lemma CodePoint.ne_of_isForeignDigit {c : CodePoint} (h : c.isForeignDigit = true) {d : Char}
    (hd : d.toNat < 0xB2) : c ≠ d := by
  rintro rfl
  have hle := le_val_of_isForeignDigit h
  rw [val_ofChar] at hle
  omega

namespace Lexeme

variable {c : CodePoint} {rest u : Text} {reading : Reading} {f : Fault}

lemma mayExtend_of_isForeignDigit (h : c.isForeignDigit = true) : mayExtend c = false := by
  have hle := CodePoint.le_val_of_isForeignDigit h
  apply mayExtend_of_ne
  · rw [continuesWord, (CodePoint.isForeignDigit_iff.mp h).2, Bool.or_false]
    by_contra hstarts
    rw [Bool.not_eq_false] at hstarts
    have hrange := val_of_startsWord hstarts
    omega
  · have hsmall : ∀ d ∈ ("=<>&|/.+-" : Text), d.val < 0xB2 := by decide
    rintro _ hd rfl
    exact absurd (hsmall c hd) (Nat.not_lt.mpr hle)

/-- A digit of another script stands here, possibly behind a point. -/
def StartsForeign (c : CodePoint) (rest : Text) : Prop :=
  c.isForeignDigit = true ∨ c = ('.' : Char) ∧ ∃ d, rest.head? = some d ∧ d.isForeignDigit = true

lemma startsNumber_of_startsForeign (h : StartsForeign c rest) : startsNumber c rest = true := by
  unfold startsNumber
  rcases h with hc | ⟨rfl, d, hhead, hd⟩
  · rw [(CodePoint.isForeignDigit_iff.mp hc).1, Bool.true_or]
  · simp [hhead, (CodePoint.isForeignDigit_iff.mp hd).1]

/-- Where a number has to start, there is none exactly if its first digit is of another script. -/
lemma scan_eq_none_iff (h : startsNumber c rest = true) :
    Numeral.scan (c :: rest) = none ↔ StartsForeign c rest := by
  unfold startsNumber at h
  by_cases hdot : c = ('.' : Char)
  · have hpoint : (('.' : Char) : CodePoint).hasDigitProperty = false ∧
        (('.' : Char) : CodePoint).isDigit = false := by decide
    subst hdot
    rw [hpoint.1, Bool.false_or] at h
    cases rest with
    | nil => exact absurd h (by decide)
    | cons d rest =>
        have hd : d.hasDigitProperty = true := by simpa using h
        simp [Numeral.scan, Numeral.scanFraction, StartsForeign, CodePoint.isForeignDigit, hpoint,
          hd]
  · have hc : c.hasDigitProperty = true := by simpa [hdot] using h
    by_cases hascii : c.isDigit = true
    · simp [Numeral.scan, StartsForeign, CodePoint.isForeignDigit, hascii, hdot]
    · simp [Numeral.scan, Numeral.scanFraction, StartsForeign, CodePoint.isForeignDigit, hascii,
        hdot, hc]

lemma readNumber_eq_fault_iff {t : Text} :
    readNumber t = .error (.fault f) ↔ f = .strayDigit ∧ Numeral.scan t = none := by
  unfold readNumber
  rcases Numeral.scan t with _ | ⟨n, behind⟩
  · simp [eq_comm]
  · simp only [reduceCtorEq, and_false, iff_false]
    split
    · simp
    · split
      · simp
      · simp

/-- Reading a lexeme ends in a fault exactly at a digit of another script. -/
lemma read_eq_fault_iff :
    read c rest = .error (.fault f) ↔ f = .strayDigit ∧ StartsForeign c rest := by
  by_cases hnumber : startsNumber c rest = true
  · have hne : ∀ d : Char, (d : CodePoint).hasDigitProperty = false → d ≠ '.' → c ≠ d := by
      rintro d hdigit hdot rfl
      rw [startsNumber, hdigit, Bool.false_or, Bool.and_eq_true, decide_eq_true_eq] at hnumber
      exact hdot (CodePoint.ofChar_injective hnumber.1)
    rw [read, if_neg (hne '"' (by decide) (by decide)), if_neg (hne '\'' (by decide) (by decide)),
      if_pos hnumber, readNumber_eq_fault_iff, scan_eq_none_iff hnumber]
  · have hread : read c rest ≠ .error (.fault f) := by
      by_cases hquote : c = ('"' : Char) ∨ c = ('\'' : Char)
      · exact read_ne_fault_of_quote hquote rest f
      · rw [not_or] at hquote
        rw [read, if_neg hquote.1, if_neg hquote.2, if_neg hnumber]
        split
        · simp
        · split
          · simp
          · simp
    simp only [hread, false_iff, not_and]
    intro _ hforeign
    exact hnumber (startsNumber_of_startsForeign hforeign)

/-! ## Reading with and without more text behind -/

/-- A lexeme lies inside the text that it is read from. -/
lemma width_le_of_read (h : read c rest = .ok reading) : reading.width ≤ rest.length + 1 := by
  unfold read at h
  split at h
  · obtain ⟨contents, hcontents, -⟩ := readString_eq_ok_iff.mp h
    have hle := width_le_of_readContents hcontents
    omega
  split at h
  · obtain ⟨contents, hcontents, -⟩ := readChar_eq_ok_iff.mp h
    have hle := width_le_of_readContents hcontents
    omega
  split at h
  · unfold readNumber at h
    split at h
    · cases h
    · next n behind hscan =>
      have hlength := congrArg List.length (Numeral.text_append_of_scan hscan)
      rw [List.length_append, List.length_cons] at hlength
      split at h
      · cases h
        dsimp only
        omega
      · next suffix kind hsuffix =>
        split at h
        · cases h
        · cases h
          cases behind with
          | nil => cases hsuffix
          | cons d behind =>
              rw [List.length_cons] at hlength
              dsimp only
              omega
  split at h
  · cases h
    have hle := (List.takeWhile_sublist (l := rest) continuesWord).length_le
    simp only [List.length_cons]
    omega
  split at h
  · next s hs =>
    cases h
    have hprefix := List.find?_some hs
    rw [List.isPrefixOf_iff_prefix] at hprefix
    exact hprefix.length_le
  · cases h

/-- A lexeme is still read with a text behind it that goes on with no lexeme. -/
lemma read_append (h : read c rest = .ok reading) (hu : Detached u) :
    read c (rest ++ u) = .ok reading := by
  by_cases hquote : c = ('"' : Char) ∨ c = ('\'' : Char)
  · exact (read_append_iff_of_quote hquote (width_le_of_read h) u).mpr h
  · rw [not_or] at hquote
    rw [read_append_of_ne hu.endsRun hquote.1 hquote.2 fun _ _ => hu.endsRun_digit, h]

/-- A lexeme that ends in front of such a text is read without the text too. -/
lemma read_of_append (h : read c (rest ++ u) = .ok reading)
    (hwidth : reading.width ≤ rest.length + 1) (hu : EndsRun mayExtend u) :
    read c rest = .ok reading := by
  by_cases hquote : c = ('"' : Char) ∨ c = ('\'' : Char)
  · exact (read_append_iff_of_quote hquote hwidth u).mp h
  · rw [not_or] at hquote
    rw [← h, read_append_of_ne hu hquote.1 hquote.2]
    -- A digit behind the dot would be one of another script, and that is a fault.
    intro hdot hnil d hd
    by_contra hdigit
    rw [Bool.not_eq_false] at hdigit
    have hforeign : d.isForeignDigit = true :=
      CodePoint.isForeignDigit_iff.mpr ⟨hdigit, isDigit_of_mayExtend (hu d hd)⟩
    rw [hnil, List.nil_append, read_eq_fault_iff.mpr ⟨rfl, .inr ⟨hdot, d, hd, hforeign⟩⟩] at h
    cases h

/-- A fault stays a fault, whatever stands behind. -/
lemma read_append_of_fault (h : read c rest = .error (.fault f)) (u : Text) :
    read c (rest ++ u) = .error (.fault f) := by
  rw [read_eq_fault_iff] at h ⊢
  refine ⟨h.1, ?_⟩
  rcases h.2 with hc | ⟨hdot, d, hhead, hd⟩
  · exact .inl hc
  · obtain ⟨tail, rfl⟩ := List.head?_eq_some_iff.mp hhead
    exact .inr ⟨hdot, d, rfl, hd⟩

/-- An error stays an error, unless a quoted literal is closed by what stands behind. -/
lemma read_append_of_error {e : LexicalError} (h : read c rest = .error (.error e))
    (hu : Detached u) (hquotes : Quoteless u) :
    ∃ e', read c (rest ++ u) = .error (.error e') := by
  by_cases hquote : c = ('"' : Char) ∨ c = ('\'' : Char)
  · rcases hread : read c (rest ++ u) with (e' | f) | reading
    · exact ⟨e', rfl⟩
    · exact absurd hread (read_ne_fault_of_quote hquote _ f)
    · have hclosed : c ∉ u := by
        rcases hquote with rfl | rfl
        · exact hquotes.1
        · exact hquotes.2
      by_cases hwidth : reading.width ≤ rest.length + 1
      · rw [(read_append_iff_of_quote hquote hwidth u).mp hread] at h
        cases h
      · exact absurd (quote_mem_of_read_append hquote hread (by omega)) hclosed
  · rw [not_or] at hquote
    rw [read_append_of_ne hu.endsRun hquote.1 hquote.2 fun _ _ => hu.endsRun_digit, h]
    exact ⟨e, rfl⟩

end Lexeme

end LineShell
