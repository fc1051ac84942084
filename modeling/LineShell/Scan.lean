import LineShell.Lexeme.Reader

/-!
# Scanning a source

`Scan.ofSource` splits a source into tokens. Spaces, tabs and line ends separate lexemes, and a
comment runs from `//` to the end of the source.
-/

namespace LineShell

/-- Whether the code point separates lexemes. -/
def CodePoint.isSpacing (c : CodePoint) : Bool :=
  c = ' ' || c = '\t' || c = '\n' || c = '\r' || c = '\x0c'

/-- The tokens of a source, and the comment at its end. -/
structure Scan where
  /-- The tokens in order. -/
  tokens : List Token
  /-- The comment with its slashes, empty if there is none. -/
  comment : Text
deriving DecidableEq

namespace Scan

/-- Whether a comment starts here. -/
def startsComment (t : Text) : Bool :=
  ("//" : Text).isPrefixOf t

/-- Scans a text that stands behind `pos` code points. -/
def after (pos : Nat) (t : Text) : Except (Failure LexicalError) Scan :=
  match t with
  | [] => .ok ⟨[], []⟩
  | c :: rest =>
    if c.isSpacing then after (pos + 1) rest
    else if startsComment (c :: rest) then .ok ⟨[], c :: rest⟩
    else
      match Lexeme.read c rest with
      | .error failure => .error (failure.map (LexicalError.shift pos))
      | .ok reading =>
        match after (pos + reading.width) (rest.drop (reading.width - 1)) with
        | .error failure => .error failure
        | .ok scan => .ok ⟨⟨reading.lexeme, pos⟩ :: scan.tokens, scan.comment⟩
termination_by t.length

/-- Scans a whole source. -/
def ofSource (source : Text) : Except (Failure LexicalError) Scan :=
  after 0 source

/-- The lexemes of the tokens. -/
def lexemes (scan : Scan) : List Lexeme :=
  scan.tokens.map Token.lexeme

end Scan

end LineShell
