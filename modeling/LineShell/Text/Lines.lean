import LineShell.Text.CodePoint

/-!
# Lines of a text

A line ends at a line feed, at a carriage return, or at both in a row. What stands behind the last
line end is a line too, unless it is empty.
-/

namespace LineShell

namespace Text

/-- Splits a text into lines; `line` holds the code points of the current line, the last one
first. -/
def linesFrom (line : Text) : Text → List Text
  | [] => if line = [] then [] else [line.reverse]
  | c :: rest =>
    if c = '\n' then line.reverse :: linesFrom [] rest
    else if c = '\r' then
      line.reverse ::
        match rest with
        | d :: more => if d = '\n' then linesFrom [] more else linesFrom [] (d :: more)
        | [] => []
    else linesFrom (c :: line) rest

/-- The lines of a text, without their ends. -/
def lines (t : Text) : List Text :=
  linesFrom [] t

example : lines "a\r\n\nb\rc" = [("a" : Text), "", "b", "c"] := by decide +kernel
example : lines "a\n" = [("a" : Text)] := by decide +kernel

end Text

end LineShell
