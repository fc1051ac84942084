import LineShell.Lexeme
import LineShell.Tree.Render

/-!
# Grammatical errors

What can be wrong with a sequence of lexemes, where, and how the user is told.
-/

namespace LineShell

/-- A way in which lexemes fail to form a tree. The lexeme found is `none` at the end of the
source. -/
inductive GrammarIssue where
  /-- The grammar wants one particular symbol. -/
  | expectedSymbol (wanted : Symbol) (found : Option Lexeme)
  /-- The grammar wants a name. -/
  | expectedName (found : Option Lexeme)
  /-- No expression starts with this. -/
  | unexpected (found : Option Lexeme)
  /-- The tree is complete, but the source goes on. -/
  | trailing (found : Lexeme)
  /-- Only a variable can stand before an assignment operator. -/
  | invalidTarget (target : Expr)
  /-- Only a variable can be qualified by a name that is not called. -/
  | memberAccess (name : Text)
  /-- A declaration introduces one variable. -/
  | severalVariables

/-- A grammatical issue and its place among the lexemes. -/
structure GrammarError where
  /-- What is wrong. -/
  issue : GrammarIssue
  /-- The number of lexemes from the offending one to the end, `0` for the end itself. -/
  left : Nat

/-- The text shown to the user. -/
def GrammarIssue.message : GrammarIssue → Text
  | .expectedSymbol wanted found =>
    "Expected " ++ wanted.name ++ ", got " ++ Lexeme.foundKind found ++ " ("
      ++ (Lexeme.foundValue found).cited ++ ")"
  | .expectedName found =>
    "Expected ident, got " ++ Lexeme.foundKind found ++ " ("
      ++ (Lexeme.foundValue found).cited ++ ")"
  | .unexpected found =>
    "Unexpected token: " ++ Lexeme.foundKind found ++ " ("
      ++ (Lexeme.foundValue found).cited ++ ")"
  | .trailing found => "Unexpected token after input: " ++ found.value.cited
  | .invalidTarget target => "Invalid assignment target: " ++ target.render
  | .memberAccess name => "Unexpected member access: ." ++ name
  | .severalVariables => "Only one variable per declaration is supported"

end LineShell
