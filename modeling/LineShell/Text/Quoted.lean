import LineShell.Text.Digit
import LineShell.Text.Printable

/-!
# Quoted text in messages

Messages that cite a piece of source show it between quotes on one line. The quotes are single
unless the text holds a single quote and no double quote. The chosen quote and the backslash are
escaped, line ends and tabs have their letter escapes, and every other code point that is not
printable is shown by its number.
-/

namespace LineShell

namespace Text

/-- The quote around a cited text: double exactly when that avoids an escape. -/
def citationQuote (t : Text) : CodePoint :=
  if (('\'' : Char) : CodePoint) ∈ t ∧ (('"' : Char) : CodePoint) ∉ t then '"' else '\''

end Text

/-- A code point shown by its number, with two, four or eight digits as it needs. -/
def CodePoint.numbered (c : CodePoint) : Text :=
  if c.val < 0x100 then "\\x" ++ Text.ofNatHex 2 c.val
  else if c.val < 0x10000 then "\\u" ++ Text.ofNatHex 4 c.val
  else "\\U" ++ Text.ofNatHex 8 c.val

/-- A code point as it stands between the quotes `quote`. -/
def CodePoint.cited (quote c : CodePoint) : Text :=
  if c = quote ∨ c = '\\' then ['\\', c]
  else if c = '\n' then "\\n"
  else if c = '\r' then "\\r"
  else if c = '\t' then "\\t"
  else if c.isPrintable then [c]
  else c.numbered

/-- The text between quotes, on one line and with printable code points only. -/
def Text.cited (t : Text) : Text :=
  let quote := t.citationQuote
  quote :: t.flatMap (CodePoint.cited quote) ++ [quote]

example : Text.cited "a'b" = "\"a'b\"" := by decide +kernel
example : Text.cited "a'\"\\" = "'a\\'\"\\\\'" := by decide +kernel
example : Text.cited "\n\x07\u200b" = "'\\n\\x07\\u200b'" := by decide +kernel
example : Text.cited "" = "''" := by decide +kernel

end LineShell
