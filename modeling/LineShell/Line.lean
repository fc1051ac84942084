import LineShell.Journal
import LineShell.Source
import LineShell.Text.Blank

/-!
# Lines of input

A line is tried as a statement first, with a semicolon added unless it ends in one or in a closing
brace, and then as an expression. A line of the single word `exit`, in any case, ends the session.
-/

namespace LineShell

/-- The lower case of an ASCII letter; every other code point is its own. No other code point has
a letter of `exit` for its lower case. -/
def CodePoint.lower (c : CodePoint) : CodePoint :=
  if h : 0x41 ≤ c.val ∧ c.val ≤ 0x5A then ⟨c.val + 0x20, by omega⟩ else c

/-- A parsed line: its node, or why there is none, and what was recorded on the way. -/
structure ParsedLine where
  /-- The node. -/
  result : Except (Failure SyntaxError) Node
  /-- What was done, in order. -/
  journal : List Record

namespace Line

/-- Whether the line asks to end the session. -/
def isExit (line : Text) : Bool :=
  line.trim.map CodePoint.lower = "exit"

/-- Whether the line holds nothing but blanks. -/
def isBlank (line : Text) : Bool :=
  line.trim = []

/-- Whether a statement can end where the text does. -/
def isClosed (t : Text) : Bool :=
  t.getLast? = some (';' : CodePoint) || t.getLast? = some ('\x7d' : CodePoint)

/-- The text with a semicolon at its end, unless it is closed. -/
def closed (t : Text) : Text :=
  if isClosed t then t else t ++ ";"

/-- Parses a line as a statement, or else as an expression. A fault in the first attempt prevents
the second. -/
def parse (line : Text) : ParsedLine :=
  match Stmt.ofSource (closed line.trim) with
  | .ok s => ⟨.ok (.stmt s), []⟩
  | .error (.fault f) => ⟨.error (.fault f), []⟩
  | .error (.error e) =>
    ⟨(Expr.ofSource line.trim).map fun e => .stmt (.expr e), [.notStatement e.message]⟩

/-- What the user is told about a line without a node. -/
def errorMessage (e : SyntaxError) : Text :=
  "Cannot parse input: " ++ e.message

end Line

end LineShell
