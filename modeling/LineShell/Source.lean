import LineShell.Scan
import LineShell.Tree.Parser

/-!
# Trees of a source text

`Stmt.ofSource` and `Expr.ofSource` scan a source and parse its lexemes. A lexical error anywhere
in the source comes before every grammatical one.
-/

namespace LineShell

/-- Why a source has no tree. -/
inductive SyntaxError where
  /-- The source cannot be split into lexemes. -/
  | lexical (e : LexicalError)
  /-- The lexemes do not form a tree; `pos` is the position of the offending one. -/
  | grammatical (issue : GrammarIssue) (pos : Nat)

namespace SyntaxError

/-- The text shown to the user. -/
def message : SyntaxError → Text
  | lexical e => e.issue.message
  | grammatical issue _ => issue.message

/-- The number of code points before the place of the error. -/
def pos : SyntaxError → Nat
  | lexical e => e.pos
  | grammatical _ pos => pos

end SyntaxError

namespace Scan

/-- The position of the token that has `left - 1` tokens behind it. The end of the source, which
stands for no token at all, is at `stop`. -/
def position (scan : Scan) (stop left : Nat) : Nat :=
  match scan.tokens[scan.tokens.length - left]? with
  | some token => token.pos
  | none => stop

/-- Scans a source and parses its lexemes. -/
def parse {α : Type} (parser : List Lexeme → Except GrammarError α) (source : Text) :
    Except (Failure SyntaxError) α :=
  match ofSource source with
  | .error failure => .error (failure.map .lexical)
  | .ok scan =>
    match parser scan.lexemes with
    | .error e => .error (.error (.grammatical e.issue (scan.position source.length e.left)))
    | .ok tree => .ok tree

end Scan

/-- The statement that a source spells. -/
def Stmt.ofSource (source : Text) : Except (Failure SyntaxError) Stmt :=
  Scan.parse Stmt.ofLexemes source

/-- The expression or declaration that a source spells. -/
def Expr.ofSource (source : Text) : Except (Failure SyntaxError) Expr :=
  Scan.parse Expr.ofLexemes source

end LineShell
