import LineShell.Fault
import LineShell.Lexeme.Escape
import LineShell.Numeral
import LineShell.Text.DigitProperty

/-!
# Reading one lexeme

`Lexeme.read` reads the lexeme that starts with a given code point and tells how many code points
it takes. Positions in its errors count from that first code point. Main statement: a lexeme takes
at least one code point (`width_pos_of_read`).
-/

namespace LineShell

/-- A lexeme and the number of code points that spell it. -/
structure Reading where
  /-- The lexeme. -/
  lexeme : Lexeme
  /-- The length of its spelling. -/
  width : Nat

namespace Lexeme

/-! ## Quoted literals -/

/-- Reads the contents of a quoted literal up to the closing quote. `offset` is the distance of
the text from the opening quote, and the second result is the distance of what follows the closing
quote. Without a closing quote the literal fails with `unfinished`. -/
def readContents (quote : CodePoint) (unfinished : LexicalIssue) (offset : Nat) (t : Text) :
    Except LexicalError (Text × Nat) :=
  match t with
  | [] => .error ⟨unfinished, 0⟩
  | c :: rest =>
    if c = '\\' then
      match Escape.read rest with
      | .error issue => .error ⟨issue, offset⟩
      | .ok escape =>
        match readContents quote unfinished (offset + 1 + escape.width)
            (rest.drop escape.width) with
        | .error e => .error e
        | .ok (contents, width) => .ok (escape.target :: contents, width)
    else if c = quote then .ok ([], offset + 1)
    else
      match readContents quote unfinished (offset + 1) rest with
      | .error e => .error e
      | .ok (contents, width) => .ok (c :: contents, width)
termination_by t.length

/-- Reads a string literal, given the text behind its opening quote. -/
def readString (rest : Text) : Except (Failure LexicalError) Reading :=
  match readContents '"' .unfinishedString 1 rest with
  | .error e => .error (.error e)
  | .ok (contents, width) => .ok ⟨.literal ⟨.string, contents⟩, width⟩

/-- Reads a character literal, given the text behind its opening quote. -/
def readChar (rest : Text) : Except (Failure LexicalError) Reading :=
  match readContents '\'' .unfinishedChar 1 rest with
  | .error e => .error (.error e)
  | .ok (contents, width) =>
    if contents.length = 1 then .ok ⟨.literal ⟨.char, contents⟩, width⟩
    else .error (.error ⟨.charCount, 0⟩)

/-! ## Numbers -/

/-- Whether a number has to start with `c`: it is a digit, or a point in front of a digit. Digits
of all scripts count, although a number is written with ASCII digits only. -/
def startsNumber (c : CodePoint) (rest : Text) : Bool :=
  c.hasDigitProperty || (c = '.' && rest.head?.any CodePoint.hasDigitProperty)

/-- The kinds that a suffix gives a number. -/
def suffixKind? (c : CodePoint) : Option LiteralKind :=
  if c = 'l' ∨ c = 'L' then some .long
  else if c = 'f' ∨ c = 'F' then some .float
  else if c = 'd' ∨ c = 'D' then some .double
  else none

/-- The suffix at the start of a text and the kind it gives. -/
def scanSuffix : Text → Option (CodePoint × LiteralKind)
  | [] => none
  | c :: _ => (suffixKind? c).map fun kind => (c, kind)

/-- Reads a number. A suffix gives its kind and is not part of its text; an integer cannot have a
point or an exponent. -/
def readNumber (t : Text) : Except (Failure LexicalError) Reading :=
  match Numeral.scan t with
  | none => .error (.fault .strayDigit)
  | some (n, rest) =>
    match scanSuffix rest with
    | none =>
      let kind := if n.isInteger then .int else .double
      .ok ⟨.literal ⟨kind, n.text⟩, n.text.length⟩
    | some (suffix, kind) =>
      if kind = .long ∧ n.isInteger = false then
        .error (.error ⟨.malformedLong (n.text ++ [suffix]), 0⟩)
      else .ok ⟨.literal ⟨kind, n.text⟩, n.text.length + 1⟩

/-! ## Words and symbols -/

/-- Whether a word can start with the code point. -/
def startsWord (c : CodePoint) : Bool :=
  c.isLetter || c = '_' || c = '$'

/-- Whether a word can go on with the code point. -/
def continuesWord (c : CodePoint) : Bool :=
  startsWord c || c.isDigit

/-- Reads the lexeme that starts with `c` and goes on in `rest`. -/
def read (c : CodePoint) (rest : Text) : Except (Failure LexicalError) Reading :=
  if c = '"' then readString rest
  else if c = '\'' then readChar rest
  else if startsNumber c rest then readNumber (c :: rest)
  else if startsWord c then
    let word := c :: rest.takeWhile continuesWord
    .ok ⟨ofWord word, word.length⟩
  else
    match Symbol.startOf? (c :: rest) with
    | some s => .ok ⟨.symbol s, s.text.length⟩
    | none => .error (.error ⟨.unexpected c, 0⟩)

/-! ## Width -/

/-- The contents of a quoted literal end behind the place where they start. -/
theorem lt_of_readContents {quote : CodePoint} {unfinished : LexicalIssue} {offset width : Nat}
    {t contents : Text} (h : readContents quote unfinished offset t = .ok (contents, width)) :
    offset < width := by
  fun_induction readContents quote unfinished offset t generalizing contents with
  | case1 => contradiction
  | case2 => contradiction
  | case3 => contradiction
  | case4 offset rest escape _ inner _ hinner ih =>
    simp only [Except.ok.injEq, Prod.mk.injEq] at h
    obtain ⟨-, rfl⟩ := h
    have := ih hinner
    omega
  | case5 =>
    simp only [Except.ok.injEq, Prod.mk.injEq] at h
    omega
  | case6 => contradiction
  | case7 offset c rest _ _ inner _ hinner ih =>
    simp only [Except.ok.injEq, Prod.mk.injEq] at h
    obtain ⟨-, rfl⟩ := h
    have := ih hinner
    omega

theorem text_length_pos_of_scan {t rest : Text} {n : Numeral}
    (h : Numeral.scan t = some (n, rest)) : 0 < n.text.length := by
  simp only [Numeral.scan] at h
  split at h
  · contradiction
  · next hne =>
    simp only [Option.some.injEq, Prod.mk.injEq] at h
    obtain ⟨rfl, -⟩ := h
    simp only [Numeral.text, List.length_append]
    rcases Classical.not_and_iff_not_or_not.mp hne with hwhole | hfraction
    · have := List.length_pos_iff.mpr hwhole
      omega
    · cases hf : (Numeral.scanFraction (t.dropWhile CodePoint.isDigit)).1 with
      | none => simp [hf] at hfraction
      | some digits =>
        simp only [Numeral.fractionText, List.length_cons]
        omega

/-- Every lexeme takes at least one code point. -/
theorem width_pos_of_read {c : CodePoint} {rest : Text} {reading : Reading}
    (h : read c rest = .ok reading) : 0 < reading.width := by
  unfold read at h
  split at h
  · unfold readString at h
    cases hc : readContents '"' .unfinishedString 1 rest with
    | error e => simp [hc] at h
    | ok result =>
      have := lt_of_readContents hc
      simp only [hc, Except.ok.injEq] at h
      simp only [← h]
      omega
  split at h
  · unfold readChar at h
    cases hc : readContents '\'' .unfinishedChar 1 rest with
    | error e => simp [hc] at h
    | ok result =>
      have := lt_of_readContents hc
      simp only [hc] at h
      split at h
      · simp only [Except.ok.injEq] at h
        simp only [← h]
        omega
      · contradiction
  split at h
  · unfold readNumber at h
    split at h
    · contradiction
    · next n after hscan =>
      have := text_length_pos_of_scan hscan
      split at h
      · simp only [Except.ok.injEq] at h
        simp only [← h]
        omega
      · split at h
        · contradiction
        · simp only [Except.ok.injEq] at h
          simp only [← h]
          omega
  split at h
  · simp only [Except.ok.injEq] at h
    simp [← h]
  split at h
  · next s _ =>
    have := List.length_pos_iff.mpr s.text_ne_nil
    simp only [Except.ok.injEq] at h
    simp only [← h]
    omega
  · contradiction

end Lexeme

end LineShell
