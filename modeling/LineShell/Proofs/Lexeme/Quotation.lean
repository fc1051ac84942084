import LineShell.Proofs.Lexeme.Decoding
import LineShell.Proofs.Scan.Append
import Mathlib.Data.List.Chain

/-!
# Contents spelled piece by piece

A quoted literal is written by spelling one code point after the other. `Spelling` lists the ways to
spell one, `Spelling.Denotes` says which code point a spelling stands for, and `Spelling.absorbs` is
the one way in which a spelling spoils the next one: an octal escape takes an octal digit that was
meant to stand for itself.

Main statement: if no spelling absorbs the next one, the literal is read as the code points that
were spelled, wherever it stands, and scanning goes on right behind the closing quote
(`read_spellings`). The pieces are put together in `decodes_body`; what is read from the whole is
known from there on (`Lexeme.readContents_of_decodes`).
-/

namespace LineShell

open Text

/-- The ways to spell one code point between quotes. -/
inductive Spelling where
  /-- The code point itself. -/
  | raw (c : CodePoint)
  /-- A backslash and a letter or a mark. -/
  | letter (c : CodePoint)
  /-- A backslash and octal digits. -/
  | octal (digits : Text)
  /-- A backslash, the letter `u` a number of times, and hexadecimal digits. -/
  | unicode (marks : Nat) (digits : Text)

namespace Spelling

/-- What is written. -/
def text : Spelling → Text
  | raw c => [c]
  | letter c => [('\\' : CodePoint), c]
  | octal digits => ('\\' : CodePoint) :: digits
  | unicode marks digits => ('\\' : CodePoint) :: (List.replicate marks ('u' : CodePoint) ++ digits)

/-- What is written between the quotes. -/
def body (spellings : List Spelling) : Text :=
  spellings.flatMap text

/-- The spelling can be used between these quotes, and stands for the code point. -/
inductive Denotes (quote : CodePoint) : Spelling → CodePoint → Prop
  /-- Every code point but the backslash and the quote stands for itself. -/
  | raw {c : CodePoint} (hslash : c ≠ ('\\' : Char)) (hquote : c ≠ quote) : Denotes quote (raw c) c
  /-- A letter or a mark stands for what is listed. -/
  | letter {c target : CodePoint} (h : (c, target) ∈ Escape.letters) :
      Denotes quote (letter c) target
  /-- One to three octal digits stand for their number, which is at most 255. -/
  | octal {digits : Text} {target : CodePoint} (hne : digits ≠ []) (hlength : digits.length ≤ 3)
      (hdigits : ∀ d ∈ digits, d.isOctalDigit = true) (hvalue : natOfBase 8 digits = target.val)
      (hle : target.val ≤ 255) : Denotes quote (octal digits) target
  /-- Four hexadecimal digits behind some letters `u` stand for their number. -/
  | unicode {marks : Nat} {digits : Text} {target : CodePoint} (hmarks : 0 < marks)
      (hlength : digits.length = 4) (hdigits : ∀ d ∈ digits, d.isHexDigit = true)
      (hvalue : natOfBase 16 digits = target.val) : Denotes quote (unicode marks digits) target

/-- Whether the first spelling goes on in the second one: an octal escape with fewer digits than its
first digit admits, and an octal digit that stands for itself. -/
def absorbs : Spelling → Spelling → Bool
  | octal (first :: more), raw c =>
    (first :: more).length < Escape.octalLimit first && c.isOctalDigit
  | _, _ => false

/-! ## One spelling -/

lemma isOctalDigit_of_mem_letters {c target : CodePoint} (h : (c, target) ∈ Escape.letters) :
    c.isOctalDigit = false := by
  have hall : ∀ entry ∈ Escape.letters, entry.1.isOctalDigit = false := by decide
  exact hall _ h

/-- A number up to 255 has no more octal digits than its first one admits. -/
lemma length_le_octalLimit {c : CodePoint} {digits : Text} (hlength : (c :: digits).length ≤ 3)
    (hle : natOfBase 8 (c :: digits) ≤ 255) : (c :: digits).length ≤ Escape.octalLimit c := by
  unfold Escape.octalLimit
  split
  · exact hlength
  · next hfirst =>
    -- Three digits with a first one above `3` would make at least 256.
    by_contra hthree
    obtain ⟨a, b, rfl⟩ : ∃ a b, digits = [a, b] :=
      List.length_eq_two.mp (by rw [List.length_cons] at hlength hthree; omega)
    have hvalue : natOfBase 8 [c, a, b]
        = (c.digitValue * 8 + a.digitValue) * 8 + b.digitValue := by
      simp [natOfBase]
    omega

/-- What follows an octal escape does not go on with it, unless it is absorbed. -/
lemma endsRun_body {first : CodePoint} {more : Text} {spellings : List Spelling}
    (hchain : (octal (first :: more) :: spellings).IsChain fun a b => a.absorbs b = false)
    (hshort : (first :: more).length < Escape.octalLimit first) :
    EndsRun CodePoint.isOctalDigit (body spellings) := by
  cases spellings with
  | nil =>
      intro c hc
      cases hc
  | cons next spellings =>
      have hnext := (List.isChain_cons_cons.mp hchain).1
      cases next with
      | raw c =>
          apply endsRun_cons
          rwa [absorbs, decide_eq_true hshort, Bool.true_and] at hnext
      | letter c => exact endsRun_cons (by decide) _
      | octal digits => exact endsRun_cons (by decide) _
      | unicode marks digits => exact endsRun_cons (by decide) _

/-! ## All spellings -/

/-- Spellings that do not absorb each other are together a spelling of the contents. -/
lemma decodes_body {quote : CodePoint} {spellings : List Spelling} {contents : Text}
    (h : List.Forall₂ (Denotes quote) spellings contents)
    (hchain : spellings.IsChain fun a b => a.absorbs b = false) :
    Lexeme.Decodes quote (body spellings) contents := by
  induction h with
  | nil => exact .nil
  | @cons spelling target spellings contents hdenotes _ ih =>
      have hrest := ih hchain.tail
      cases hdenotes with
      | raw hslash hquote => exact .plain hslash hquote hrest
      | @letter c _ hmem =>
          have hspells := Escape.Spells.letter hmem
          exact .escape hspells (Escape.isClosed_cons (isOctalDigit_of_mem_letters hmem) _ _) hrest
      | @octal digits _ hne hlength hdigits hvalue hle =>
          obtain ⟨first, more, rfl⟩ := List.exists_cons_of_ne_nil hne
          rw [← hvalue] at hle
          have hspells := Escape.Spells.octal hdigits (length_le_octalLimit hlength hle) hvalue.symm
          refine .escape hspells ?_ hrest
          rintro _ ⟨⟩ - hshort
          exact endsRun_body hchain hshort
      | @unicode marks digits _ hmarks hlength hdigits hvalue =>
          obtain ⟨more, rfl⟩ := Nat.exists_eq_succ_of_ne_zero hmarks.ne'
          have hmark : ∀ d ∈ ('u' : CodePoint) :: List.replicate more ('u' : CodePoint),
              d = ('u' : Char) := fun d hd => List.eq_of_mem_replicate (n := more + 1) hd
          have hspells := Escape.Spells.unicode hmark hlength hdigits hvalue.symm
          exact .escape hspells (Escape.isClosed_cons (by decide) _ _) hrest

/-- Spellings between quotes are read up to right behind the closing one. -/
lemma readContents_body {quote : CodePoint} {spellings : List Spelling} {contents : Text}
    (hquote : quote = ('"' : Char) ∨ quote = ('\'' : Char))
    (h : List.Forall₂ (Denotes quote) spellings contents)
    (hchain : spellings.IsChain fun a b => a.absorbs b = false) (unfinished : LexicalIssue)
    (rest : Text) :
    Lexeme.readContents quote unfinished 1 (body spellings ++ quote :: rest)
      = .ok (contents, (body spellings).length + 2) := by
  have hslash : quote ≠ ('\\' : Char) := by
    rcases hquote with rfl | rfl
    · decide
    · decide
  have hoctal : quote.isOctalDigit = false := by
    rcases hquote with rfl | rfl
    · decide
    · decide
  rw [Lexeme.readContents_of_decodes (decodes_body h hchain) hslash hoctal unfinished 1 rest]
  congr 2
  omega

end Spelling

namespace Scan

/-- A literal at the start of a text, closed by a quote, is its first token, and scanning goes on
behind the quote. -/
lemma after_quoted {quote : CodePoint} {body rest : Text} {literal : Literal}
    (hquote : quote = ('"' : Char) ∨ quote = ('\'' : Char))
    (hread : Lexeme.read quote (body ++ quote :: rest) = .ok ⟨.literal literal, body.length + 2⟩)
    (pos : Nat) :
    after pos (quote :: (body ++ quote :: rest))
      = (after (pos + (body.length + 2)) rest).map (prepend [⟨.literal literal, pos⟩]) := by
  have hspacing : quote.isSpacing = false := by
    rcases hquote with rfl | rfl
    · decide
    · decide
  have hcomment : startsComment (quote :: (body ++ quote :: rest)) = false := by
    apply startsComment_of_ne
    rcases hquote with rfl | rfl
    · decide
    · decide
  have hrest : (body ++ quote :: rest).drop (body.length + 2 - 1) = rest := by
    rw [show body.length + 2 - 1 = body.length + 1 by omega, ← List.drop_drop, List.drop_left]
    rfl
  rw [(Reaches.lexeme hspacing hcomment hread (.here _ _)).after_eq, hrest]

end Scan

/-- **Every legal spelling is decoded.** Let each code point of the contents be spelled by itself or
by an escape, so that no octal escape takes the digit behind it. Wherever the spellings stand in a
source between two quotes, the contents are read, up to right behind the closing quote. So the next
token is the literal of these contents, with one code point if it is a character, and scanning goes
on there. -/
theorem read_spellings (quote : CodePoint)
    (hquote : quote = ('"' : Char) ∨ quote = ('\'' : Char)) (spellings : List Spelling)
    (contents : Text) (hspellings : List.Forall₂ (Spelling.Denotes quote) spellings contents)
    (hchain : spellings.IsChain fun a b => a.absorbs b = false) (source rest : Text) (start : Nat)
    (hsource : source.drop start = quote :: (Spelling.body spellings ++ quote :: rest)) :
    ∃ width, width = (Spelling.body spellings).length + 2 ∧ source.drop (start + width) = rest ∧
      (∀ unfinished, Lexeme.readContents quote unfinished 1 (source.drop (start + 1))
        = .ok (contents, width)) ∧
      (quote = ('"' : Char) → Scan.after start (source.drop start)
        = (Scan.after (start + width) rest).map
          (Scan.prepend [⟨.literal ⟨.string, contents⟩, start⟩])) ∧
      (quote = ('\'' : Char) → contents.length = 1 → Scan.after start (source.drop start)
        = (Scan.after (start + width) rest).map
          (Scan.prepend [⟨.literal ⟨.char, contents⟩, start⟩])) := by
  have hcontents := fun unfinished =>
    Spelling.readContents_body hquote hspellings hchain unfinished rest
  refine ⟨_, rfl, ?_, ?_, ?_, ?_⟩
  · rw [← List.drop_drop, hsource, List.drop_succ_cons, ← List.drop_drop, List.drop_left]
    rfl
  · intro unfinished
    rw [← List.drop_drop, hsource]
    exact hcontents unfinished
  · rintro rfl
    rw [hsource]
    apply Scan.after_quoted hquote
    exact Lexeme.readString_eq_ok_iff.mpr ⟨contents, hcontents _, rfl⟩
  · rintro rfl hone
    rw [hsource]
    apply Scan.after_quoted hquote
    exact Lexeme.readChar_eq_ok_iff.mpr ⟨contents, hcontents _, hone, rfl⟩

/-- A literal behind other text, with octal escapes in front of digits, escapes that stand for a
quote, for a backslash and for half of a surrogate pair, and a semicolon behind it. -/
theorem read_spellings_mixed :
    Lexeme.readContents ('"' : Char) .unfinishedString 1
        (("x = \"\\08\\3777\\uu0022\\\"\\134\\uD83D\";" : Text).drop (4 + 1))
      = .ok ([⟨0, by decide⟩, ('8' : Char), ('ÿ' : Char), ('7' : Char), ('"' : Char), ('"' : Char),
          ('\\' : Char), ⟨0xD83D, by decide⟩], 29) ∧
    ("x = \"\\08\\3777\\uu0022\\\"\\134\\uD83D\";" : Text).drop (4 + 29) = ";" := by
  have hspellings : List.Forall₂ (Spelling.Denotes ('"' : Char))
      [.octal "0", .raw ('8' : Char), .octal "377", .raw ('7' : Char), .unicode 2 "0022",
        .letter ('"' : Char), .octal "134", .unicode 1 "D83D"]
      [⟨0, by decide⟩, ('8' : Char), ('ÿ' : Char), ('7' : Char), ('"' : Char), ('"' : Char),
        ('\\' : Char), ⟨0xD83D, by decide⟩] :=
    .cons (.octal (by decide) (by decide) (by decide) (by decide) (by decide)) <|
    .cons (.raw (by decide) (by decide)) <|
    .cons (.octal (by decide) (by decide) (by decide) (by decide) (by decide)) <|
    .cons (.raw (by decide) (by decide)) <|
    .cons (.unicode (by decide) (by decide) (by decide) (by decide)) <|
    .cons (.letter (by decide)) <|
    .cons (.octal (by decide) (by decide) (by decide) (by decide) (by decide)) <|
    .cons (.unicode (by decide) (by decide) (by decide) (by decide)) .nil
  obtain ⟨width, hwidth, hrest, hread, -⟩ := read_spellings ('"' : Char) (.inl rfl) _ _ hspellings
    (by decide) "x = \"\\08\\3777\\uu0022\\\"\\134\\uD83D\";" ";" 4 (by decide)
  obtain rfl : width = 29 := hwidth
  exact ⟨hread _, hrest⟩

end LineShell
