/-!
# Failures

A piece of work either meets an error, which belongs to the domain and has a message for the user,
or a fault, which no part of the shell catches: it ends the line it happens in and the command
that runs the line.
-/

namespace LineShell

/-- What ends a line without a message for the user. -/
inductive Fault where
  /-- A digit of some other script stands where a number has to start. -/
  | strayDigit
  /-- An integer is written with more digits than conversion allows. -/
  | integerTooLong (digits : Nat)
deriving DecidableEq

/-- Why a piece of work has no result. -/
inductive Failure (ε : Type) where
  | error (e : ε)
  | fault (f : Fault)
deriving DecidableEq

/-- The failure with its error changed. -/
def Failure.map {ε ε' : Type} (f : ε → ε') : Failure ε → Failure ε'
  | .error e => .error (f e)
  | .fault x => .fault x

end LineShell
