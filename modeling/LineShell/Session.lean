import LineShell.Evaluation
import LineShell.Line

/-!
# Sessions

A session runs lines one after the other on one store. Running a line gives an answer for the
user, unless a fault ends it.
-/

namespace LineShell

/-- What the user is told after a line. -/
inductive Answer where
  /-- The session ends. -/
  | exit
  /-- The line was blank. -/
  | blank
  /-- The line has a value of this display. -/
  | value (display : Text)
  /-- The line has no value. -/
  | failed (kind : ErrorKind) (message : Text)
deriving DecidableEq

namespace Answer

/-- The text shown for an answer; a blank line is not answered. -/
def output : Answer → Option Text
  | exit => some "Exiting..."
  | blank => none
  | value display => some ("==> " ++ display)
  | failed _ message => some ("Error: " ++ message)

/-- Whether the line did not fail. -/
def isOk : Answer → Bool
  | failed .. => false
  | _ => true

/-- The kind of the error of a line that failed. -/
def errorKind? : Answer → Option ErrorKind
  | failed kind _ => some kind
  | _ => none

end Answer

/-- The variables of a session, and whether it was asked to end. -/
structure Session where
  /-- The variables. -/
  store : Store
  /-- Whether a line asked to end the session. -/
  finished : Bool
deriving DecidableEq

/-- What running a line comes to. -/
structure Report where
  /-- The answer, or the fault that prevents one. -/
  answer : Except Fault Answer
  /-- The session afterwards. -/
  session : Session
  /-- What was done, in order. -/
  journal : List Record

namespace Session

/-- A session without variables. -/
def new : Session := ⟨.empty, false⟩

/-- The answer for the result of an evaluation. -/
def answerOf : Except (Failure EvalError) Value → Except Fault Answer
  | .ok v => .ok (.value v.display)
  | .error (.error e) => .ok (.failed e.kind e.message)
  | .error (.fault f) => .error f

/-- Runs a line. A line that asks to end the session only marks it as finished, so later lines
can be run all the same. -/
def run (session : Session) (line : Text) : Report :=
  if Line.isExit line then ⟨.ok .exit, { session with finished := true }, []⟩
  else if Line.isBlank line then ⟨.ok .blank, session, []⟩
  else
    let parsed := Line.parse line
    match parsed.result with
    | .error (.fault f) => ⟨.error f, session, parsed.journal⟩
    | .error (.error e) =>
      ⟨.ok (.failed .syntactic (Line.errorMessage e)), session, parsed.journal⟩
    | .ok node =>
      let evaluation := node.evalRecorded session.store
      ⟨answerOf evaluation.result, { session with store := evaluation.store },
        parsed.journal ++ evaluation.journal⟩

/-- Runs lines one after the other, also after one that asks to end the session. -/
def runAll (session : Session) : List Text → List Report
  | [] => []
  | line :: rest =>
    let report := session.run line
    report :: runAll report.session rest

end Session

end LineShell
