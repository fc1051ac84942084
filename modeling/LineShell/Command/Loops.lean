import LineShell.Config
import LineShell.Session
import LineShell.Text.Lines

/-!
# The two commands

`eval` runs the lines that it is given in one session and fails if one of them does. `repl` runs the
lines of its input, each behind a prompt, until one asks to end the session. A fault ends either
command with exit code 1.
-/

namespace LineShell

/-- What a run of the program comes to. -/
structure Outcome where
  /-- The exit code. -/
  exitCode : Nat
  /-- What was printed. -/
  stdout : Text
  /-- The fault that ended the run, if one did. -/
  fault : Option Fault
deriving DecidableEq

/-- The outcome with a text printed before it. -/
def Outcome.after (text : Text) (outcome : Outcome) : Outcome :=
  { outcome with stdout := text ++ outcome.stdout }

namespace Command

/-- What is printed for an answer. -/
def printed (answer : Answer) : Text :=
  match answer.output with
  | some text => text ++ "\n"
  | none => []

/-- Runs lines until one asks to end the session. The exit code tells whether a line failed, here
or before. -/
def evalLines (session : Session) (failed : Bool) : List Text → Outcome
  | [] => ⟨if failed then 1 else 0, [], none⟩
  | line :: rest =>
    let report := session.run line
    match report.answer with
    | .error f => ⟨1, [], some f⟩
    | .ok answer =>
      let failed := failed || !answer.isOk
      (if report.session.finished then ⟨if failed then 1 else 0, [], none⟩
        else evalLines report.session failed rest).after (printed answer)

/-- What is recorded while `evalLines` runs. -/
def evalJournal (session : Session) : List Text → List Record
  | [] => []
  | line :: rest =>
    let report := session.run line
    report.journal ++
      match report.answer with
      | .error _ => []
      | .ok _ => if report.session.finished then [] else evalJournal report.session rest

/-- Runs lines of input behind a prompt until one asks to end the session. At the end of the input
the line of the prompt is ended. -/
def replLines (prompt : Text) (session : Session) : List Text → Outcome
  | [] => ⟨0, prompt ++ "\n", none⟩
  | line :: rest =>
    let report := session.run line
    match report.answer with
    | .error f => ⟨1, prompt, some f⟩
    | .ok answer =>
      (if report.session.finished then ⟨0, [], none⟩
        else replLines prompt report.session rest).after (prompt ++ printed answer)

/-- The prompt of an invocation. -/
def promptOf (env : Environment) (logLevel prompt : Option Text) : Text :=
  prompt.getD (Config.resolve env none logLevel).prompt

end Command

end LineShell
