import LineShell.Lexeme

/-!
# Lexical errors

What can be wrong with the spelling of a lexeme, where, and how the user is told.
-/

namespace LineShell

/-- A way in which source text fails to spell a lexeme. -/
inductive LexicalIssue where
  /-- The source ends behind a backslash. -/
  | unfinishedEscape
  /-- The letter `u` of an escape is not followed by four hexadecimal digits. -/
  | badUnicodeEscape
  /-- No escape starts with this code point. -/
  | unknownEscape (c : CodePoint)
  /-- A string literal is not closed. -/
  | unfinishedString
  /-- A character literal is not closed. -/
  | unfinishedChar
  /-- A character literal holds no or several characters. -/
  | charCount
  /-- A number with a point or an exponent has the suffix of an integer. -/
  | malformedLong (text : Text)
  /-- No lexeme starts with this code point. -/
  | unexpected (c : CodePoint)
deriving DecidableEq

/-- A lexical issue and the position it is reported at. -/
structure LexicalError where
  /-- What is wrong. -/
  issue : LexicalIssue
  /-- The number of code points before the place of the error. -/
  pos : Nat
deriving DecidableEq

/-- The text shown to the user. -/
def LexicalIssue.message : LexicalIssue → Text
  | .unfinishedEscape => "Unterminated escape sequence"
  | .badUnicodeEscape => "Illegal unicode escape"
  | .unknownEscape c => "Illegal escape character: \\" ++ [c]
  | .unfinishedString => "Unterminated string literal"
  | .unfinishedChar => "Unterminated char literal"
  | .charCount => "Char literal must hold exactly one character"
  | .malformedLong text => "Malformed long literal: " ++ text
  | .unexpected c => "Unexpected character: " ++ Text.cited [c]

/-- The error as it looks when `n` code points stand before the text it was found in. -/
def LexicalError.shift (n : Nat) (e : LexicalError) : LexicalError :=
  ⟨e.issue, n + e.pos⟩

end LineShell
