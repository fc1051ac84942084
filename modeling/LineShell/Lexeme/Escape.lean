import LineShell.Lexeme.Error
import LineShell.Text.Digit

/-!
# Escape sequences

Behind a backslash in a quoted literal stands one of nine letters and marks, an octal number of at
most three digits and at most the value 255, or the letter `u`, any number of times, and four
hexadecimal digits. `Escape.read` looks at the text behind the backslash, in this order.
-/

namespace LineShell

/-- What an escape sequence stands for, and how many code points it takes behind the backslash. -/
structure Escape where
  /-- The code point it stands for. -/
  target : CodePoint
  /-- Its length without the backslash. -/
  width : Nat

namespace Escape

/-- The escapes of one letter or mark. -/
def letter? (c : CodePoint) : Option CodePoint :=
  if c = 'n' then some '\n'
  else if c = 't' then some '\t'
  else if c = 'b' then some '\x08'
  else if c = 'r' then some '\r'
  else if c = 'f' then some '\x0c'
  else if c = 's' then some ' '
  else if c = '\'' ∨ c = '"' ∨ c = '\\' then some c
  else none

/-- The digits of an octal escape: three at most, and only two if the first is above `3`. -/
def octalDigits : Text → Text
  | [] => []
  | c :: rest =>
    if c.isOctalDigit then
      c :: (rest.take (if c.digitValue ≤ 3 then 2 else 1)).takeWhile CodePoint.isOctalDigit
    else []

theorem isOctalDigit_of_mem {t : Text} {c : CodePoint} (h : c ∈ octalDigits t) :
    c.isOctalDigit = true := by
  cases t with
  | nil => simp [octalDigits] at h
  | cons d rest =>
    simp only [octalDigits] at h
    split at h
    · next hd =>
      rcases List.mem_cons.mp h with rfl | h
      · exact hd
      · exact List.all_eq_true.mp List.all_takeWhile c h
    · simp at h

theorem length_octalDigits_le (t : Text) : (octalDigits t).length ≤ 3 := by
  cases t with
  | nil => simp [octalDigits]
  | cons d rest =>
    simp only [octalDigits]
    split
    · have hlen := (List.takeWhile_sublist (l := rest.take (if d.digitValue ≤ 3 then 2 else 1))
        CodePoint.isOctalDigit).length_le
      have htake := List.length_take_le (if d.digitValue ≤ 3 then 2 else 1) rest
      have hlimit : (if d.digitValue ≤ 3 then 2 else 1) ≤ 2 := by split <;> omega
      simp only [List.length_cons]
      omega
    · simp

/-- The code point of an octal escape. -/
def octalTarget (t : Text) : CodePoint where
  val := Text.natOfBase 8 (octalDigits t)
  val_lt := by
    have hlt := Text.natOfBase_lt 8 (octalDigits t) fun c hc =>
      CodePoint.digitValue_lt_eight (isOctalDigit_of_mem hc)
    have hpow : Nat.pow 8 (octalDigits t).length ≤ Nat.pow 8 3 :=
      Nat.pow_le_pow_right (Nat.succ_pos 7) (length_octalDigits_le t)
    have hbound : Nat.pow 8 3 = 512 := rfl
    omega

/-- Whether the code point is the letter `u`. -/
def isMark (c : CodePoint) : Bool :=
  c = 'u'

/-- Whether the text is exactly four hexadecimal digits. -/
def IsCodeUnit (digits : Text) : Prop :=
  digits.length = 4 ∧ digits.all CodePoint.isHexDigit = true

instance (digits : Text) : Decidable (IsCodeUnit digits) :=
  inferInstanceAs (Decidable (_ ∧ _))

/-- The code point that four hexadecimal digits number. -/
def hexTarget (digits : Text) (h : IsCodeUnit digits) : CodePoint where
  val := Text.natOfBase 16 digits
  val_lt := by
    have hlt := Text.natOfBase_lt 16 digits fun c hc =>
      CodePoint.digitValue_lt_sixteen (List.all_eq_true.mp h.2 c hc)
    rw [h.1] at hlt
    have hbound : Nat.pow 16 4 = 65536 := rfl
    omega

/-- Reads an escape sequence, given the text behind its backslash. -/
def read : Text → Except LexicalIssue Escape
  | [] => .error .unfinishedEscape
  | c :: rest =>
    match letter? c with
    | some target => .ok ⟨target, 1⟩
    | none =>
      if c.isOctalDigit then
        .ok ⟨octalTarget (c :: rest), (octalDigits (c :: rest)).length⟩
      else if isMark c then
        let marks := rest.takeWhile isMark
        let digits := (rest.dropWhile isMark).take 4
        if h : IsCodeUnit digits then .ok ⟨hexTarget digits h, 1 + marks.length + 4⟩
        else .error .badUnicodeEscape
      else .error (.unknownEscape c)

end Escape

end LineShell
