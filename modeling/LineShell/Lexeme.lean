import LineShell.Literal
import LineShell.Symbol
import LineShell.Text.Quoted

/-!
# Lexemes and tokens

A lexeme is a word, number, quoted literal or symbol of the source, and a token is a lexeme with
the position of its first code point. The words `true`, `false` and `null` are literals.
-/

namespace LineShell

/-- Words with a grammatical role. -/
inductive Keyword where
  | ifWord | elseWord | whileWord | returnWord
deriving DecidableEq

/-- The spelling of a keyword. -/
def Keyword.text : Keyword → Text
  | .ifWord => "if"
  | .elseWord => "else"
  | .whileWord => "while"
  | .returnWord => "return"

/-- The smallest meaningful units of the source. -/
inductive Lexeme where
  | literal (l : Literal)
  | name (word : Text)
  | keyword (k : Keyword)
  | symbol (s : Symbol)
deriving DecidableEq

namespace Lexeme

/-- The lexeme that a word spells: a keyword, a keyword literal, or a name. -/
def ofWord (word : Text) : Lexeme :=
  if word = "true" ∨ word = "false" then .literal ⟨.boolean, word⟩
  else if word = "null" then .literal ⟨.null, word⟩
  else if word = "if" then .keyword .ifWord
  else if word = "else" then .keyword .elseWord
  else if word = "while" then .keyword .whileWord
  else if word = "return" then .keyword .returnWord
  else .name word

/-- The name of the kind of a lexeme in messages. Keywords and keyword literals are kinds of
their own. -/
def kindName : Lexeme → Text
  | literal ⟨.boolean, text⟩ => text
  | literal ⟨kind, _⟩ => kind.name
  | name _ => "ident"
  | keyword k => k.text
  | symbol s => s.name

/-- What the lexeme stands for: the text of a literal, and otherwise its spelling. -/
def value : Lexeme → Text
  | literal l => l.text
  | name word => word
  | keyword k => k.text
  | symbol s => s.text

/-- How messages name the kind of the next lexeme, or of the end of the source. -/
def foundKind : Option Lexeme → Text
  | some x => x.kindName
  | none => "eof"

/-- How messages cite the value of the next lexeme; there is none at the end of the source. -/
def foundValue : Option Lexeme → Text
  | some x => x.value
  | none => []

end Lexeme

/-- A lexeme and where it starts. -/
structure Token where
  /-- The lexeme. -/
  lexeme : Lexeme
  /-- The number of code points before it. -/
  pos : Nat
deriving DecidableEq

/-- One line that describes a token, or the end of the source when there is no lexeme. -/
def Lexeme.describe (found : Option Lexeme) (pos : Nat) : Text :=
  "Token(" ++ foundKind found ++ ", " ++ (foundValue found).cited ++ ", pos=" ++ Text.ofNat pos
    ++ ")"

end LineShell
