import LineShell.Proofs.Lexeme.Continuation

/-!
# How quoted literals are spelled

The contents of a quoted literal are spelled one code point after the other, each by itself or by
an escape sequence. `Escape.Spells` lists the escape sequences, with a table of the letters and
marks that can stand behind a backslash (`Escape.letters`), and `Lexeme.Decodes` says what a
spelling of contents stands for. All are stated without the reader.

An octal escape takes as many digits as it can. It is the only escape that depends on what follows:
one with fewer digits than its first digit admits must not stand in front of another octal digit
(`Escape.IsClosed`).

Main statements: a spelling in front of a closing quote is read (`readContents_of_decodes`), and
nothing else is (`exists_decodes_of_readContents`).
-/

namespace LineShell

open Text

/-! ## Escape sequences -/

namespace Escape

/-- The greatest number of digits of an octal escape, which depends on the first one. -/
def octalLimit (first : CodePoint) : Nat :=
  if first.digitValue ≤ 3 then 3 else 2

/-- The letters and marks that can stand behind a backslash, each with what it stands for. -/
def letters : List (CodePoint × CodePoint) :=
  [('n', '\n'), ('t', '\t'), ('b', '\x08'), ('r', '\r'), ('f', '\x0c'), ('s', ' '), ('\'', '\''),
    ('"', '"'), ('\\', '\\')]

/-- What stands behind the backslash for a code point. -/
inductive Spells : Text → CodePoint → Prop
  /-- A letter or a mark. -/
  | letter {c target : CodePoint} (h : (c, target) ∈ letters) : Spells [c] target
  /-- Octal digits, not too many. -/
  | octal {c target : CodePoint} {digits : Text}
      (hdigits : ∀ d ∈ c :: digits, d.isOctalDigit = true)
      (hlength : (c :: digits).length ≤ octalLimit c)
      (htarget : target.val = natOfBase 8 (c :: digits)) : Spells (c :: digits) target
  /-- Letters `u`, at least one, and four hexadecimal digits. -/
  | unicode {c target : CodePoint} {marks digits : Text}
      (hmarks : ∀ d ∈ c :: marks, d = ('u' : Char)) (hlength : digits.length = 4)
      (hdigits : ∀ d ∈ digits, d.isHexDigit = true)
      (htarget : target.val = natOfBase 16 digits) : Spells (c :: marks ++ digits) target

/-- The escape does not go on in the rest: it has all the octal digits that its first one admits, or
no other one follows. -/
def IsClosed (escape rest : Text) : Prop :=
  ∀ c, escape.head? = some c → c.isOctalDigit = true → escape.length < octalLimit c →
    EndsRun CodePoint.isOctalDigit rest

/-- The reader knows the letters and marks that are listed. -/
lemma letter?_eq_some_iff {c target : CodePoint} :
    letter? c = some target ↔ (c, target) ∈ letters := by
  constructor
  · intro h
    unfold letter? at h
    repeat
      split at h
      · next hc =>
        subst hc
        cases h
        decide
    split at h
    · next hc =>
      cases h
      rcases hc with rfl | rfl | rfl
      all_goals decide
    · cases h
  · intro h
    have hall : ∀ entry ∈ letters, letter? entry.1 = some entry.2 := by decide
    exact hall _ h

lemma isMark_iff {c : CodePoint} : isMark c = true ↔ c = ('u' : Char) := by
  simp [isMark]

lemma letter?_of_isOctalDigit {c : CodePoint} (h : c.isOctalDigit = true) : letter? c = none := by
  have hne : ∀ d : Char, (d : CodePoint).isOctalDigit = false → c ≠ d := by
    rintro d hd rfl
    rw [h] at hd
    cases hd
  simp [letter?, hne 'n' (by decide), hne 't' (by decide), hne 'b' (by decide),
    hne 'r' (by decide), hne 'f' (by decide), hne 's' (by decide), hne '\'' (by decide),
    hne '"' (by decide), hne '\\' (by decide)]

/-- Only octal escapes depend on what follows. -/
lemma isClosed_cons {c : CodePoint} (h : c.isOctalDigit = false) (more rest : Text) :
    IsClosed (c :: more) rest := by
  rintro d hd hoctal
  cases hd
  rw [h] at hoctal
  cases hoctal

/-- The octal digits at the start of a text are an octal escape that is closed by the rest. -/
lemma exists_octalDigits {c : CodePoint} (hc : c.isOctalDigit = true) (t : Text) :
    ∃ digits rest, octalDigits (c :: t) = c :: digits ∧ t = digits ++ rest ∧
      (∀ d ∈ digits, d.isOctalDigit = true) ∧ (c :: digits).length ≤ octalLimit c ∧
      IsClosed (c :: digits) rest := by
  set limit := (if c.digitValue ≤ 3 then 2 else 1) with hlimit
  set digits := (t.take limit).takeWhile CodePoint.isOctalDigit with hdigits
  have hoctal : ∀ d ∈ digits, d.isOctalDigit = true := fun d hd => List.mem_takeWhile_imp hd
  have hsucc : octalLimit c = limit + 1 := by
    rw [hlimit, octalLimit]
    split <;> rfl
  have hprefix : digits <+: t := (List.takeWhile_prefix _).trans (List.take_prefix limit t)
  have hlength : digits.length ≤ limit :=
    (List.takeWhile_prefix _).length_le.trans (List.length_take_le limit t)
  obtain ⟨rest, hrest⟩ := hprefix
  refine ⟨digits, rest, ?_, hrest.symm, hoctal, by rw [List.length_cons]; omega, ?_⟩
  · rw [octalDigits, if_pos hc]
  · -- An octal digit behind fewer digits than the limit would have been taken too.
    rintro d hd - hlt e he
    cases hd
    rw [List.length_cons, hsucc] at hlt
    obtain ⟨more, rfl⟩ := List.head?_eq_some_iff.mp he
    by_contra hne
    rw [Bool.not_eq_false] at hne
    have htake : t.take limit = digits ++ e :: more.take (limit - digits.length - 1) := by
      rw [← hrest, List.take_append, List.take_of_length_le hlength,
        List.take_cons (by omega)]
    have hrun := congrArg List.length hdigits
    rw [htake, List.takeWhile_append_of_pos hoctal, List.takeWhile_cons_of_pos hne,
      List.length_append, List.length_cons] at hrun
    omega

/-- An octal escape that is closed by the rest is taken as a whole. -/
lemma octalDigits_append_of_isClosed {c : CodePoint} {digits rest : Text}
    (hdigits : ∀ d ∈ c :: digits, d.isOctalDigit = true)
    (hlength : (c :: digits).length ≤ octalLimit c) (hclosed : IsClosed (c :: digits) rest) :
    octalDigits (c :: (digits ++ rest)) = c :: digits := by
  have hc := hdigits c List.mem_cons_self
  have hoctal : ∀ d ∈ digits, d.isOctalDigit = true :=
    fun d hd => hdigits d (List.mem_cons_of_mem c hd)
  rw [octalDigits, if_pos hc]
  have hsucc : octalLimit c = (if c.digitValue ≤ 3 then 2 else 1) + 1 := by
    rw [octalLimit]
    split <;> rfl
  generalize (if c.digitValue ≤ 3 then 2 else 1) = limit at hsucc ⊢
  rw [List.length_cons] at hlength
  have hend : EndsRun CodePoint.isOctalDigit (rest.take (limit - digits.length)) := by
    intro d hd
    rcases Nat.eq_zero_or_pos (limit - digits.length) with hzero | hpos
    · rw [hzero] at hd
      cases hd
    · rw [List.head?_take, if_neg (by omega)] at hd
      exact hclosed c rfl hc (by rw [List.length_cons]; omega) d hd
  rw [List.take_append, List.take_of_length_le (by omega), hend.takeWhile_append hoctal]

/-- Hexadecimal digits are no marks. -/
lemma isMark_of_isHexDigit {c : CodePoint} (h : c.isHexDigit = true) : isMark c = false := by
  unfold isMark
  rw [decide_eq_false_iff_not]
  rintro rfl
  exact absurd h (by decide)

/-- What the reader takes for an escape is one, and it is closed by what it leaves. -/
lemma exists_spells_of_read {t : Text} {e : Escape} (h : read t = .ok e) :
    ∃ escape rest, t = escape ++ rest ∧ escape.length = e.width ∧ Spells escape e.target ∧
      IsClosed escape rest := by
  cases t with
  | nil => cases h
  | cons c t =>
      simp only [read] at h
      rcases hletter : letter? c with _ | target
      · simp only [hletter] at h
        by_cases hoctal : c.isOctalDigit = true
        · rw [if_pos hoctal] at h
          cases h
          obtain ⟨digits, rest, htaken, rfl, hdigits, hlength, hclosed⟩ :=
            exists_octalDigits hoctal t
          refine ⟨c :: digits, rest, rfl, by rw [htaken], ?_, hclosed⟩
          refine .octal (List.forall_mem_cons.mpr ⟨hoctal, hdigits⟩) hlength ?_
          simp only [octalTarget, htaken]
        · rw [if_neg hoctal] at h
          by_cases hmark : isMark c = true
          · rw [if_pos hmark] at h
            split at h
            · next hunit =>
              cases h
              refine ⟨c :: t.takeWhile isMark ++ (t.dropWhile isMark).take 4,
                (t.dropWhile isMark).drop 4, ?_, ?_, ?_, ?_⟩
              · simp
              · simp only [List.length_append, List.length_cons, hunit.1]
                omega
              · have hmarks : ∀ d ∈ t.takeWhile isMark, d = ('u' : Char) :=
                  fun d hd => isMark_iff.mp (List.mem_takeWhile_imp hd)
                exact .unicode (List.forall_mem_cons.mpr ⟨isMark_iff.mp hmark, hmarks⟩) hunit.1
                  (List.all_eq_true.mp hunit.2) rfl
              · exact isClosed_cons (by simpa using hoctal) _ _
            · cases h
          · rw [if_neg hmark] at h
            cases h
      · simp only [hletter] at h
        cases h
        refine ⟨[c], t, rfl, rfl, .letter (letter?_eq_some_iff.mp hletter), isClosed_cons ?_ [] t⟩
        by_contra hoctal
        rw [Bool.not_eq_false] at hoctal
        rw [letter?_of_isOctalDigit hoctal] at hletter
        cases hletter

/-- An escape that is closed by the rest is read. -/
lemma read_append_of_spells {escape rest : Text} {target : CodePoint}
    (h : Spells escape target) (hclosed : IsClosed escape rest) :
    read (escape ++ rest) = .ok ⟨target, escape.length⟩ := by
  cases h with
  | @letter c _ hletter => simp [read, letter?_eq_some_iff.mpr hletter]
  | @octal c _ digits hdigits hlength htarget =>
      have hc := hdigits c List.mem_cons_self
      have htaken := octalDigits_append_of_isClosed hdigits hlength hclosed
      have heq : octalTarget (c :: (digits ++ rest)) = target := by
        apply CodePoint.ext_val
        simp only [octalTarget, htaken, htarget]
      simp only [List.cons_append, read, letter?_of_isOctalDigit hc, if_pos hc, htaken, heq]
  | @unicode c _ marks digits hmarks hlength hall htarget =>
      obtain rfl := hmarks c List.mem_cons_self
      have hdigits : IsCodeUnit digits := ⟨hlength, List.all_eq_true.mpr hall⟩
      have hmore : ∀ d ∈ marks, isMark d = true :=
        fun d hd => isMark_iff.mpr (hmarks d (List.mem_cons_of_mem _ hd))
      have hend : EndsRun isMark (digits ++ rest) := by
        intro d hd
        cases digits with
        | nil => cases hdigits.1
        | cons first digits =>
            cases hd
            exact isMark_of_isHexDigit (hall _ List.mem_cons_self)
      have htake : (digits ++ rest).take 4 = digits := by
        rw [← hdigits.1, List.take_left]
      have heq : hexTarget digits hdigits = target := CodePoint.ext_val htarget.symm
      have hletter : letter? (('u' : Char) : CodePoint) = none := by decide
      have hoctal : ((('u' : Char) : CodePoint).isOctalDigit = true) = False := by decide
      have hmark : (isMark (('u' : Char) : CodePoint) = true) = True := by decide
      simp only [List.cons_append, List.append_assoc, read, hletter, hoctal, hmark, if_true,
        if_false, hend.takeWhile_append hmore, hend.dropWhile_append hmore, htake]
      rw [dif_pos hdigits, heq]
      simp only [List.length_cons, List.length_append, hdigits.1]
      congr 2
      omega

end Escape

/-! ## Contents -/

namespace Lexeme

/-- The text between two quotes stands for the contents. Every code point stands for itself, apart
from the quote and the backslash, which starts an escape. -/
inductive Decodes (quote : CodePoint) : Text → Text → Prop
  /-- Nothing stands for nothing. -/
  | nil : Decodes quote [] []
  /-- A code point stands for itself. -/
  | plain {c : CodePoint} {body contents : Text} (hslash : c ≠ ('\\' : Char)) (hquote : c ≠ quote)
      (h : Decodes quote body contents) : Decodes quote (c :: body) (c :: contents)
  /-- An escape stands for a code point. -/
  | escape {target : CodePoint} {escape body contents : Text}
      (hescape : Escape.Spells escape target) (hclosed : Escape.IsClosed escape body)
      (h : Decodes quote body contents) :
      Decodes quote ((('\\' : Char) : CodePoint) :: (escape ++ body)) (target :: contents)

variable {quote : CodePoint} {unfinished : LexicalIssue} {offset width : Nat} {t contents : Text}

/-- A spelling is read up to the closing quote. -/
lemma readContents_of_decodes {body : Text} (h : Decodes quote body contents)
    (hslash : quote ≠ ('\\' : Char)) (hoctal : quote.isOctalDigit = false)
    (unfinished : LexicalIssue) (offset : Nat) (rest : Text) :
    readContents quote unfinished offset (body ++ quote :: rest)
      = .ok (contents, offset + body.length + 1) := by
  induction h generalizing offset with
  | nil => exact readContents_cons_eq_ok_iff.mpr (.inr (.inl ⟨hslash, rfl, rfl, rfl⟩))
  | @plain c body contents hc hquote _ ih =>
      refine readContents_cons_eq_ok_iff.mpr (.inr (.inr ⟨hc, hquote, contents, ?_, rfl⟩))
      refine (ih (offset + 1)).trans ?_
      rw [List.length_cons]
      congr 2
      omega
  | @escape target escape body contents hescape hclosed _ ih =>
      -- The closing quote is no octal digit, so the rest closes the escape as `body` does.
      have hclosed' : Escape.IsClosed escape (body ++ quote :: rest) := by
        intro c hc hdigit hlt d hd
        cases body with
        | nil =>
            cases hd
            exact hoctal
        | cons first body => exact hclosed c hc hdigit hlt d hd
      have hread := Escape.read_append_of_spells hescape hclosed'
      rw [← List.append_assoc] at hread
      refine readContents_cons_eq_ok_iff.mpr (.inl ⟨rfl, _, contents, hread, ?_, rfl⟩)
      rw [List.append_eq, List.append_assoc, List.drop_left, ih]
      simp only [List.length_cons, List.length_append]
      congr 2
      omega

/-- What is read up to a closing quote is a spelling of the contents. -/
lemma exists_decodes_of_readContents
    (h : readContents quote unfinished offset t = .ok (contents, width)) :
    ∃ body rest, t = body ++ quote :: rest ∧ Decodes quote body contents ∧
      width = offset + body.length + 1 := by
  induction hn : t.length using Nat.strong_induction_on generalizing offset t contents with
  | _ n ih =>
      subst hn
      cases t with
      | nil =>
          rw [readContents_nil] at h
          cases h
      | cons c t =>
          rcases readContents_cons_eq_ok_iff.mp h with ⟨rfl, e, more, hread, hmore, rfl⟩ |
            ⟨-, rfl, rfl, rfl⟩ | ⟨hslash, hquote, more, hmore, rfl⟩
          · obtain ⟨escape, behind, rfl, hlength, hescape, hclosed⟩ :=
              Escape.exists_spells_of_read hread
            rw [← hlength, List.drop_left] at hmore
            have hshorter : behind.length < (escape ++ behind).length + 1 := by
              rw [List.length_append]
              omega
            obtain ⟨body, rest, rfl, hbody, rfl⟩ := ih behind.length hshorter hmore rfl
            refine ⟨_, rest, ?_, .escape hescape ?_ hbody, ?_⟩
            · simp
            · intro d hd hdigit hlt first hfirst
              apply hclosed d hd hdigit hlt
              obtain ⟨tail, rfl⟩ := List.head?_eq_some_iff.mp hfirst
              rfl
            · simp only [List.length_cons, List.length_append]
              omega
          · exact ⟨[], t, rfl, .nil, rfl⟩
          · obtain ⟨body, rest, rfl, hbody, rfl⟩ := ih t.length (by simp) hmore rfl
            refine ⟨c :: body, rest, rfl, .plain hslash hquote hbody, ?_⟩
            rw [List.length_cons]
            omega

end Lexeme

end LineShell
