import LineShell.Proofs.Lexeme.Continuation

/-!
# Scanning a text in parts

A scan takes one lexeme after the other until it comes to the end of the text, to a comment, or to
something that is no lexeme; `Scan.Reaches` says how far it has come. With a text `u` behind it that
goes on with no lexeme (`Text.Detached`), the scan takes the same way (`Reaches.append`). From this
follows what comes of the scan with `u` behind it, for each way in which a scan can stop:

* it comes to the end, and goes on with `u` (`after_append`);
* it comes to a comment, which takes `u` too (`after_append_of_comment`);
* it fails, and still does (`after_append_of_fault`, `after_append_of_error`).

A semicolon or a closing brace at the end of a text is therefore one more lexeme, unless a comment
takes it (`splits_append_closer_iff`). A scan ends in a fault exactly if some part of the text is
scanned to its end and a digit of another script stands behind it (`ofSource_eq_fault_iff`).
-/

namespace LineShell

namespace Scan

open Text Lexeme

/-- The scan with more tokens in front. -/
def prepend (tokens : List Token) (scan : Scan) : Scan :=
  ⟨tokens ++ scan.tokens, scan.comment⟩

/-! ## The way of a scan -/

/-- From the text at one position the scan takes the tokens and comes to the rest at another
position. -/
inductive Reaches : Nat → Text → List Token → Nat → Text → Prop
  /-- The scan has not moved. -/
  | here (pos : Nat) (t : Text) : Reaches pos t [] pos t
  /-- Spacing is skipped. -/
  | spacing {pos stop : Nat} {c : CodePoint} {t rest : Text} {tokens : List Token}
      (hc : c.isSpacing = true) (h : Reaches (pos + 1) t tokens stop rest) :
      Reaches pos (c :: t) tokens stop rest
  /-- A lexeme is taken. -/
  | lexeme {pos stop : Nat} {c : CodePoint} {t rest : Text} {tokens : List Token}
      {reading : Reading} (hc : c.isSpacing = false) (hcomment : startsComment (c :: t) = false)
      (hread : Lexeme.read c t = .ok reading)
      (h : Reaches (pos + reading.width) (t.drop (reading.width - 1)) tokens stop rest) :
      Reaches pos (c :: t) (⟨reading.lexeme, pos⟩ :: tokens) stop rest

variable {pos stop : Nat} {t u rest comment : Text} {tokens : List Token} {c : CodePoint}

/-- A scan that succeeds comes to the end of the text or to the comment. -/
lemma exists_reaches_of_ok (h : after pos t = .ok ⟨tokens, comment⟩) :
    ∃ stop, Reaches pos t tokens stop comment ∧ (comment = [] ∨ startsComment comment = true) := by
  fun_induction after pos t generalizing tokens with
  | case1 pos =>
      cases h
      exact ⟨pos, .here pos [], .inl rfl⟩
  | case2 pos c rest hc ih =>
      obtain ⟨stop, hreaches, hend⟩ := ih h
      exact ⟨stop, .spacing hc hreaches, hend⟩
  | case3 pos c rest hc hcomment =>
      cases h
      exact ⟨pos, .here pos _, .inr hcomment⟩
  | case4 => cases h
  | case5 => cases h
  | case6 pos c rest hc hcomment reading hread inner hinner ih =>
      cases h
      obtain ⟨stop, hreaches, hend⟩ := ih hinner
      refine ⟨stop, .lexeme ?_ ?_ hread hreaches, hend⟩
      · simpa using hc
      · simpa using hcomment

/-- A scan that fails comes to a place where no lexeme can be read. -/
lemma exists_reaches_of_error {failure : Failure LexicalError}
    (h : after pos t = .error failure) :
    ∃ tokens stop c rest cause, Reaches pos t tokens stop (c :: rest) ∧ c.isSpacing = false ∧
      startsComment (c :: rest) = false ∧ Lexeme.read c rest = .error cause ∧
      failure = cause.map (LexicalError.shift stop) := by
  fun_induction after pos t with
  | case1 => cases h
  | case2 pos c rest hc ih =>
      obtain ⟨tokens, stop, d, last, cause, hreaches, hd⟩ := ih h
      exact ⟨tokens, stop, d, last, cause, .spacing hc hreaches, hd⟩
  | case3 => cases h
  | case4 pos c rest hc hcomment cause hread =>
      cases h
      refine ⟨[], pos, c, rest, cause, .here pos _, ?_, ?_, hread, rfl⟩
      · simpa using hc
      · simpa using hcomment
  | case5 pos c rest hc hcomment reading hread inner hinner ih =>
      obtain ⟨tokens, stop, d, last, cause, hreaches, hd⟩ := ih (by rw [hinner, h])
      refine ⟨_, stop, d, last, cause, .lexeme ?_ ?_ hread hreaches, hd⟩
      · simpa using hc
      · simpa using hcomment
  | case6 => cases h

lemma after_nil (pos : Nat) : after pos [] = .ok ⟨[], []⟩ := by
  rw [after]

lemma after_of_startsComment (h : startsComment t = true) (pos : Nat) :
    after pos t = .ok ⟨[], t⟩ := by
  cases t with
  | nil => cases h
  | cons c t => rw [after, if_neg (by simp [isSpacing_of_startsComment h]), if_pos h]

lemma after_of_failure {failure : Failure LexicalError} (hc : c.isSpacing = false)
    (hcomment : startsComment (c :: t) = false) (hread : Lexeme.read c t = .error failure)
    (pos : Nat) : after pos (c :: t) = .error (failure.map (LexicalError.shift pos)) := by
  rw [after, if_neg (by simp [hc]), if_neg (by simp [hcomment])]
  simp only [hread]

/-- What comes of a scan is decided where it has come to. -/
lemma Reaches.after_eq (h : Reaches pos t tokens stop rest) :
    after pos t = (after stop rest).map (prepend tokens) := by
  induction h with
  | here pos t =>
      rcases after pos t with failure | scan
      · rfl
      · rfl
  | spacing hc h ih => rw [after, if_pos hc, ih]
  | lexeme hc hcomment hread h ih =>
      rw [after, if_neg (by simp [hc]), if_neg (by simp [hcomment])]
      simp only [hread, ih]
      rcases after _ _ with failure | scan
      · rfl
      · rfl

lemma Reaches.exists_append (h : Reaches pos t tokens stop rest) :
    ∃ before, t = before ++ rest ∧ stop = pos + before.length := by
  induction h with
  | here pos t => exact ⟨[], rfl, rfl⟩
  | @spacing pos stop c t rest tokens hc h ih =>
      obtain ⟨before, rfl, rfl⟩ := ih
      exact ⟨c :: before, rfl, by rw [List.length_cons]; omega⟩
  | @lexeme pos stop c t rest tokens reading hc hcomment hread h ih =>
      obtain ⟨before, hdrop, rfl⟩ := ih
      have hpos := width_pos_of_read hread
      have hle := width_le_of_read hread
      refine ⟨c :: t.take (reading.width - 1) ++ before, ?_, ?_⟩
      · rw [List.append_assoc, ← hdrop, List.cons_append, List.take_append_drop]
      · rw [List.length_append, List.length_cons, List.length_take]
        omega

/-! ## The same way with more text behind -/

lemma startsComment_append (hu : EndsRun mayExtend u) (c : CodePoint) (t : Text) :
    startsComment (c :: t ++ u) = startsComment (c :: t) := by
  rw [Bool.eq_iff_iff, List.cons_append, startsComment_cons_iff, startsComment_cons_iff]
  apply and_congr_right
  intro _
  cases t with
  | cons d t => exact Iff.rfl
  | nil =>
      simp only [List.nil_append, List.head?_nil, reduceCtorEq, iff_false]
      intro hhead
      exact absurd (hu _ hhead) (by decide)

/-- Spacing and lexemes are taken as before with a text behind them that goes on with no lexeme. -/
lemma Reaches.append (h : Reaches pos t tokens stop rest) (hu : Detached u) :
    Reaches pos (t ++ u) tokens stop (rest ++ u) := by
  induction h with
  | here pos t => exact .here pos (t ++ u)
  | spacing hc h ih => exact .spacing hc ih
  | lexeme hc hcomment hread h ih =>
      have hle := width_le_of_read hread
      rw [List.cons_append]
      refine .lexeme hc ?_ (read_append hread hu) ?_
      · rw [← List.cons_append, startsComment_append hu.endsRun, hcomment]
      · rw [List.drop_append_of_le_length (by omega)]
        exact ih

/-- What the scan takes in front of such a text, it takes without the text too. -/
lemma Reaches.of_append (h : Reaches pos (t ++ u) tokens stop (rest ++ u))
    (hu : EndsRun mayExtend u) : Reaches pos t tokens stop rest := by
  generalize htext : t ++ u = text at h
  generalize hlast : rest ++ u = last at h
  induction h generalizing t with
  | here pos text =>
      rw [← hlast] at htext
      rw [List.append_cancel_right htext]
      exact .here pos rest
  | @spacing pos stop c text last tokens hc h ih =>
      obtain ⟨before, hbefore, -⟩ := h.exists_append
      subst hlast
      rw [hbefore, ← List.append_assoc, ← List.cons_append] at htext
      rw [List.append_cancel_right htext]
      exact .spacing hc (ih (by rw [hbefore, List.append_assoc]) rfl)
  | @lexeme pos stop c text last tokens reading hc hcomment hread h ih =>
      obtain ⟨before, hbefore, -⟩ := h.exists_append
      subst hlast
      have hle := width_le_of_read hread
      have hpos := width_pos_of_read hread
      -- The lexeme ends in front of `u`, so it lies inside the text without `u`.
      have hsplit : text = text.take (reading.width - 1) ++ (before ++ rest) ++ u := by
        rw [List.append_assoc, List.append_assoc, ← hbefore, List.take_append_drop]
      have hwidth : (text.take (reading.width - 1)).length = reading.width - 1 := by
        rw [List.length_take]
        omega
      generalize text.take (reading.width - 1) = taken at hsplit hwidth
      subst hsplit
      rw [← List.cons_append] at htext
      rw [List.append_cancel_right htext]
      rw [← List.cons_append, startsComment_append hu] at hcomment
      refine .lexeme hc hcomment (read_of_append hread ?_ hu) ?_
      · rw [List.length_append]
        omega
      · rw [← hwidth, List.drop_left]
        apply ih _ rfl
        rw [hbefore, List.append_assoc]

/-! ## What comes of a scan with more text behind -/

/-- A scan that comes to the end goes on with the text behind. -/
lemma after_append (h : after pos t = .ok ⟨tokens, []⟩) (hu : Detached u) :
    after pos (t ++ u) = (after (pos + t.length) u).map (prepend tokens) := by
  obtain ⟨stop, hreaches, -⟩ := exists_reaches_of_ok h
  obtain ⟨before, rfl, rfl⟩ := hreaches.exists_append
  rw [List.append_nil] at hreaches ⊢
  exact (hreaches.append hu).after_eq

/-- A comment takes all text behind it. -/
lemma after_append_of_comment (h : after pos t = .ok ⟨tokens, comment⟩) (hne : comment ≠ [])
    (hu : Detached u) : after pos (t ++ u) = .ok ⟨tokens, comment ++ u⟩ := by
  obtain ⟨stop, hreaches, hend⟩ := exists_reaches_of_ok h
  have hcomment : startsComment (comment ++ u) = true := by
    obtain ⟨c, rest, rfl⟩ := List.exists_cons_of_ne_nil hne
    rw [startsComment_append hu.endsRun, hend.resolve_left hne]
  rw [(hreaches.append hu).after_eq, after_of_startsComment hcomment]
  simp [Except.map, prepend]

lemma after_append_of_fault {f : Fault} (h : after pos t = .error (.fault f)) (hu : Detached u) :
    after pos (t ++ u) = .error (.fault f) := by
  obtain ⟨taken, stop, c, rest, cause, hreaches, hc, hcomment, hread, hfailure⟩ :=
    exists_reaches_of_error h
  rw [← startsComment_append hu.endsRun, List.cons_append] at hcomment
  rcases cause with e | g
  · cases hfailure
  · cases hfailure
    rw [(hreaches.append hu).after_eq, List.cons_append,
      after_of_failure hc hcomment (read_append_of_fault hread u)]
    rfl

/-- A text that cannot be scanned cannot be with more text behind it either, if this text holds no
quote that could close a literal. -/
lemma after_append_of_error {e : LexicalError} (h : after pos t = .error (.error e))
    (hu : Detached u) (hquotes : Quoteless u) :
    ∃ e', after pos (t ++ u) = .error (.error e') := by
  obtain ⟨taken, stop, c, rest, cause, hreaches, hc, hcomment, hread, hfailure⟩ :=
    exists_reaches_of_error h
  rw [← startsComment_append hu.endsRun, List.cons_append] at hcomment
  rcases cause with e | g
  · obtain ⟨e', hread'⟩ := read_append_of_error hread hu hquotes
    rw [(hreaches.append hu).after_eq, List.cons_append, after_of_failure hc hcomment hread']
    exact ⟨_, rfl⟩
  · cases hfailure

/-! ## Lexemes with more text behind -/

/-- Whether the scan of the text comes to a comment. -/
def meetsComment (t : Text) : Bool :=
  match ofSource t with
  | .ok scan => scan.comment ≠ []
  | .error _ => false

lemma meetsComment_of_ofSource (h : ofSource t = .ok ⟨tokens, comment⟩) :
    meetsComment t = decide (comment ≠ []) := by
  simp only [meetsComment, h]

/-- Without a slash there is no comment. -/
lemma meetsComment_of_not_mem (h : (('/' : Char) : CodePoint) ∉ t) : meetsComment t = false := by
  unfold meetsComment
  split
  · next scan hscan =>
    obtain ⟨stop, hreaches, hend⟩ := exists_reaches_of_ok hscan
    rcases hend with hnil | hcomment
    · simp [hnil]
    · obtain ⟨before, hbefore, -⟩ := hreaches.exists_append
      rw [startsComment, List.isPrefixOf_iff_prefix] at hcomment
      obtain ⟨behind, hbehind⟩ := hcomment
      rw [hbefore, ← hbehind] at h
      exact absurd (List.mem_append_right _ List.mem_cons_self) h
  · rfl

/-- A text with lexemes and without a comment is scanned to its end. -/
lemma exists_ofSource_of_splits {ls : List Lexeme} (h : Splits t ls)
    (hcomment : meetsComment t = false) :
    ∃ tokens, ofSource t = .ok ⟨tokens, []⟩ ∧ tokens.map Token.lexeme = ls := by
  obtain ⟨⟨tokens, comment⟩, hscan, hlexemes⟩ := after_of_splits h 0
  rw [meetsComment_of_ofSource hscan, decide_eq_false_iff_not, not_not] at hcomment
  subst hcomment
  exact ⟨tokens, hscan, hlexemes⟩

lemma exists_ofSource_of_meetsComment (h : meetsComment t = true) :
    ∃ tokens comment, ofSource t = .ok ⟨tokens, comment⟩ ∧ comment ≠ [] := by
  unfold meetsComment at h
  split at h
  · next scan hscan => exact ⟨scan.tokens, scan.comment, hscan, of_decide_eq_true h⟩
  · cases h

/-- A text has its lexemes in one way. -/
lemma Splits.unique {ls ls' : List Lexeme} (h : Splits t ls) (h' : Splits t ls') : ls = ls' := by
  obtain ⟨scan, hscan, rfl⟩ := after_of_splits h 0
  obtain ⟨scan', hscan', rfl⟩ := after_of_splits h' 0
  rw [hscan] at hscan'
  cases hscan'
  rfl

/-- Without a comment the lexemes of a text are followed by those of the text behind it. -/
lemma Splits.append_iff {front ls : List Lexeme} (h : Splits t front)
    (hcomment : meetsComment t = false) (hu : Detached u) :
    Splits (t ++ u) ls ↔ ∃ back, ls = front ++ back ∧ Splits u back := by
  obtain ⟨tokens, hscan, rfl⟩ := exists_ofSource_of_splits h hcomment
  have happend := after_append hscan hu
  constructor
  · intro hsplits
    obtain ⟨scan, hwhole, rfl⟩ := after_of_splits hsplits 0
    rcases hback : after (0 + t.length) u with failure | back
    · rw [happend, hback] at hwhole
      cases hwhole
    · rw [happend, hback] at hwhole
      cases hwhole
      exact ⟨back.lexemes, by simp [lexemes, prepend], splits_of_after hback⟩
  · rintro ⟨_, rfl, hsplits⟩
    obtain ⟨back, hback, rfl⟩ := after_of_splits hsplits (0 + t.length)
    rw [hback] at happend
    have hwhole := splits_of_after happend
    simpa [lexemes, prepend] using hwhole

/-- A text that comes to a comment still does with more text behind it. -/
lemma meetsComment_append (h : meetsComment t = true) (hu : Detached u) :
    meetsComment (t ++ u) = true := by
  obtain ⟨tokens, comment, hscan, hne⟩ := exists_ofSource_of_meetsComment h
  rw [meetsComment_of_ofSource (after_append_of_comment hscan hne hu)]
  simp [hne]

/-- A comment takes all text behind it, so there are no further lexemes. -/
lemma splits_append_of_meetsComment {ls : List Lexeme} (h : meetsComment t = true)
    (hu : Detached u) : Splits (t ++ u) ls ↔ Splits t ls := by
  obtain ⟨tokens, comment, hscan, hne⟩ := exists_ofSource_of_meetsComment h
  rw [← exists_after_iff 0, ← exists_after_iff 0, show after 0 t = _ from hscan,
    after_append_of_comment hscan hne hu]
  simp [lexemes]

/-- With a text behind it that closes no literal, a text has lexemes only if it has some alone. -/
lemma exists_splits_of_append {ls : List Lexeme} (h : Splits (t ++ u) ls) (hu : Detached u)
    (hquotes : Quoteless u) : ∃ front, Splits t front := by
  obtain ⟨scan, hscan, -⟩ := after_of_splits h 0
  rcases ht : after 0 t with (e | f) | found
  · obtain ⟨e', he'⟩ := after_append_of_error ht hu hquotes
    rw [he'] at hscan
    cases hscan
  · rw [after_append_of_fault ht hu] at hscan
    cases hscan
  · exact ⟨_, splits_of_after ht⟩

/-! ## Semicolons and closing braces -/

/-- Whether a statement can end with the symbol. -/
def closesText : Symbol → Bool
  | .semicolon | .rightBrace => true
  | _ => false

lemma detached_closer {s : Symbol} (hs : closesText s = true) : Detached s.text := by
  cases s with
  | semicolon => exact detached_cons (by decide) (by decide) []
  | rightBrace => exact detached_cons (by decide) (by decide) []
  | _ => cases hs

lemma quoteless_closer {s : Symbol} (hs : closesText s = true) : Quoteless s.text := by
  cases s with
  | semicolon => exact ⟨by decide, by decide⟩
  | rightBrace => exact ⟨by decide, by decide⟩
  | _ => cases hs

lemma splits_text_iff (s : Symbol) {ls : List Lexeme} :
    Splits s.text ls ↔ ls = [.symbol s] := by
  have hreads : Reads (s.text ++ []) (.symbol s) [] :=
    reads_symbol s (by simp [EndsRun]) fun _ => by simp [EndsRun]
  rw [List.append_nil] at hreads
  rw [hreads.splits_iff]
  constructor
  · rintro ⟨ls', rfl, hnil⟩
    cases hnil with
    | nil => rfl
    | comment ht => cases ht
    | lexeme hx _ =>
        obtain ⟨c, tail, width, hnil, -⟩ := hx
        cases hnil
  · rintro rfl
    exact ⟨[], rfl, .nil⟩

/-- A semicolon or a closing brace that no comment takes is the last lexeme. -/
lemma splits_append_closer_iff {s : Symbol} (hs : closesText s = true)
    (hcomment : meetsComment t = false) {ls : List Lexeme} :
    Splits (t ++ s.text) ls ↔ ∃ front, ls = front ++ [.symbol s] ∧ Splits t front := by
  constructor
  · intro h
    obtain ⟨front, hfront⟩ :=
      exists_splits_of_append h (detached_closer hs) (quoteless_closer hs)
    obtain ⟨back, rfl, hback⟩ := (hfront.append_iff hcomment (detached_closer hs)).mp h
    rw [splits_text_iff s] at hback
    exact ⟨front, by rw [hback], hfront⟩
  · rintro ⟨front, rfl, hfront⟩
    exact (hfront.append_iff hcomment (detached_closer hs)).mpr
      ⟨_, rfl, (splits_text_iff s).mpr rfl⟩

/-- A semicolon or a closing brace at the end neither causes a fault nor prevents one. -/
lemma ofSource_append_closer_eq_fault_iff {s : Symbol} (hs : closesText s = true) {f : Fault} :
    ofSource (t ++ s.text) = .error (.fault f) ↔ ofSource t = .error (.fault f) := by
  have hu := detached_closer hs
  constructor
  · intro h
    rcases ht : ofSource t with (e | g) | ⟨tokens, comment⟩
    · obtain ⟨e', he'⟩ := after_append_of_error ht hu (quoteless_closer hs)
      rw [ofSource, he'] at h
      cases h
    · rw [ofSource, after_append_of_fault ht hu] at h
      exact h
    · have hwhole : ∃ ls, Splits (t ++ s.text) ls := by
        by_cases hcomment : meetsComment t = true
        · exact ⟨_, (splits_append_of_meetsComment hcomment hu).mpr (splits_of_after ht)⟩
        · rw [Bool.not_eq_true] at hcomment
          exact ⟨_, (splits_append_closer_iff hs hcomment).mpr ⟨_, rfl, splits_of_after ht⟩⟩
      obtain ⟨ls, hls⟩ := hwhole
      obtain ⟨scan, hscan, -⟩ := after_of_splits hls 0
      rw [ofSource, hscan] at h
      cases h
  · exact fun h => after_append_of_fault h hu

/-! ## Digits of other scripts -/

lemma isSpacing_of_isForeignDigit (h : c.isForeignDigit = true) : c.isSpacing = false := by
  have hne : ∀ d : Char, d.toNat < 0xB2 → c ≠ d := fun d => CodePoint.ne_of_isForeignDigit h
  unfold CodePoint.isSpacing
  simp [hne ' ' (by decide), hne '\t' (by decide), hne '\n' (by decide), hne '\r' (by decide),
    hne '\x0c' (by decide)]

/-- A lexeme at the end of a text is still read with a digit of another script behind it, unless it
is a dot. -/
lemma read_append_foreign {reading : Reading} (h : Lexeme.read c t = .ok reading)
    (hdot : ¬ (c = ('.' : Char) ∧ t = [])) (hu : EndsRun mayExtend u) :
    Lexeme.read c (t ++ u) = .ok reading := by
  by_cases hquote : c = ('"' : Char) ∨ c = ('\'' : Char)
  · exact (read_append_iff_of_quote hquote (width_le_of_read h) u).mpr h
  · rw [not_or] at hquote
    rw [read_append_of_ne hu hquote.1 hquote.2 fun hc ht => absurd ⟨hc, ht⟩ hdot, h]

/-- Behind a text that is scanned to its end, a digit of another script is a fault. -/
lemma after_append_foreign (h : after pos t = .ok ⟨tokens, []⟩) (hc : c.isForeignDigit = true)
    (rest : Text) : after pos (t ++ c :: rest) = .error (.fault .strayDigit) := by
  have hu : EndsRun mayExtend (c :: rest) := endsRun_cons (mayExtend_of_isForeignDigit hc) rest
  obtain ⟨stop, hreaches, -⟩ := exists_reaches_of_ok h
  clear h
  generalize hend : ([] : Text) = last at hreaches
  induction hreaches with
  | here pos t =>
      subst hend
      have hcomment : startsComment (c :: rest) = false :=
        startsComment_of_ne (CodePoint.ne_of_isForeignDigit hc (by decide)) rest
      rw [List.nil_append, after_of_failure (isSpacing_of_isForeignDigit hc) hcomment
        (read_eq_fault_iff.mpr ⟨rfl, .inl hc⟩)]
      rfl
  | spacing hd hreaches ih => rw [List.cons_append, after, if_pos hd, ih hend]
  | @lexeme pos stop d t last tokens reading hd hcomment hread hreaches ih =>
      rw [← startsComment_append hu, List.cons_append] at hcomment
      rw [List.cons_append]
      by_cases hdot : d = ('.' : Char) ∧ t = []
      · -- The digit would belong to a number that starts with the dot.
        obtain ⟨hdot, rfl⟩ := hdot
        have hforeign : StartsForeign d ([] ++ c :: rest) := .inr ⟨hdot, c, rfl, hc⟩
        rw [after_of_failure hd hcomment (read_eq_fault_iff.mpr ⟨rfl, hforeign⟩)]
        rfl
      · have hle := width_le_of_read hread
        rw [after, if_neg (by simp [hd]), if_neg (by simp [hcomment])]
        simp only [read_append_foreign hread hdot hu]
        rw [List.drop_append_of_le_length (by omega), ih hend]

/-- Some part of the text is scanned to its end, and a digit of another script stands behind it. -/
def Strays (t : Text) : Prop :=
  ∃ before c rest tokens, t = before ++ c :: rest ∧ ofSource before = .ok ⟨tokens, []⟩ ∧
    c.isForeignDigit = true

/-- The scan of a text ends in a fault exactly if a digit of another script stands where a lexeme
can start. -/
lemma ofSource_eq_fault_iff {f : Fault} :
    ofSource t = .error (.fault f) ↔ f = .strayDigit ∧ Strays t := by
  constructor
  · intro h
    obtain ⟨tokens, stop, c, rest, cause, hreaches, hc, hcomment, hread, hfailure⟩ :=
      exists_reaches_of_error h
    rcases cause with e | g
    · cases hfailure
    cases hfailure
    obtain ⟨rfl, hforeign⟩ := read_eq_fault_iff.mp hread
    refine ⟨rfl, ?_⟩
    obtain ⟨before, rfl, rfl⟩ := hreaches.exists_append
    rcases hforeign with hc | ⟨hdot, d, hhead, hd⟩
    · have hfront : Reaches 0 before tokens (0 + before.length) [] :=
        hreaches.of_append (endsRun_cons (mayExtend_of_isForeignDigit hc) rest)
      refine ⟨before, c, rest, tokens ++ [], rfl, ?_, hc⟩
      rw [ofSource, hfront.after_eq, after_nil]
      rfl
    · -- The dot is a symbol of its own in front of the digit.
      obtain ⟨last, rfl⟩ := List.head?_eq_some_iff.mp hhead
      subst hdot
      have hfront : Reaches 0 (before ++ [(('.' : Char) : CodePoint)]) tokens
          (0 + before.length) [(('.' : Char) : CodePoint)] := by
        apply Reaches.of_append _ (endsRun_cons (mayExtend_of_isForeignDigit hd) last)
        rwa [List.append_assoc]
      have hsymbol : after (0 + before.length) [(('.' : Char) : CodePoint)]
          = .ok ⟨[⟨.symbol .dot, 0 + before.length⟩], []⟩ := by
        rw [after, if_neg (by decide), if_neg (by decide)]
        have hread : Lexeme.read ('.' : Char) [] = .ok ⟨.symbol .dot, 1⟩ := rfl
        simp only [hread]
        rw [List.drop_nil, after_nil]
      refine ⟨before ++ [(('.' : Char) : CodePoint)], d, last,
        tokens ++ [⟨.symbol .dot, 0 + before.length⟩], by simp, ?_, hd⟩
      rw [ofSource, hfront.after_eq, hsymbol]
      rfl
  · rintro ⟨rfl, before, c, rest, tokens, rfl, hbefore, hc⟩
    exact after_append_foreign hbefore hc rest

end Scan

end LineShell
