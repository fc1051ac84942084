import LineShell.Error

/-!
# The journal

Every step worth knowing is recorded: each write to the store, a declaration that is passed over,
an evaluation that fails, and a line that is no statement. A record belongs to a channel, which
names the part of the shell that it comes from.
-/

namespace LineShell

/-- The part of the shell that a record comes from. -/
inductive Channel where
  | shell | evaluator | store
deriving DecidableEq

/-- The name of a channel in the log. -/
def Channel.name : Channel → Text
  | .shell => "dumbjshell.shell"
  | .evaluator => "dumbjshell.core.evaluator"
  | .store => "dumbjshell.core.store"

/-- A step of the shell. -/
inductive Record where
  /-- A variable was declared with a value of this display. -/
  | declared (typeName x display : Text)
  /-- A variable was given a value of this display. -/
  | assigned (x display : Text)
  /-- A declaration was passed over, because the variable exists. -/
  | redeclared (x : Text)
  /-- A node of this label could not be evaluated. -/
  | failed (label : Text) (kind : ErrorKind) (message : Text)
  /-- A line was no statement. -/
  | notStatement (message : Text)
deriving DecidableEq

namespace Record

/-- The channel of a record. -/
def channel : Record → Channel
  | declared .. => .store
  | assigned .. => .store
  | redeclared _ => .evaluator
  | failed .. => .evaluator
  | notStatement _ => .shell

/-- The text of a record. -/
def message : Record → Text
  | declared typeName x display => "declared " ++ typeName ++ " " ++ x ++ " = " ++ display
  | assigned x display => "assigned " ++ x ++ " = " ++ display
  | redeclared x => "ignoring re-declaration of " ++ x
  | failed label kind message =>
    "evaluation of " ++ label ++ " failed: " ++ kind.name ++ ": " ++ message
  | notStatement message => "not a statement (" ++ message ++ "), trying expression"

end Record

end LineShell
