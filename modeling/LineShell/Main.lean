import LineShell.Command

/-!
# The program

Reads arguments, environment and standard input, and prints what the command comes to. Input is
read line by line, so that a session at a terminal is answered as it goes.
-/

namespace LineShell

/-- Prints a text without a line end. -/
def put (t : Text) : IO Unit := do
  let out ← IO.getStdout
  out.putStr t.toString
  out.flush

/-- Shows the records of a line, if they are asked for. -/
def showRecords (config : Config) (records : List Record) : IO Unit :=
  if config.threshold ≤ 10 then
    for record in records do
      IO.eprintln (record.channel.name ++ " - DEBUG - " ++ record.message : Text).toString
  else
    return

/-- The next lines of the input, none at its end. -/
def readLines : IO (List Text) := do
  let chunk ← (← IO.getStdin).getLine
  return Text.lines (Text.ofString chunk)

/-- Runs lines of input, first those that are already read, until one asks to end the session. -/
partial def replLoop (config : Config) (prompt : Text) (session : Session)
    (pending : List Text) : IO UInt32 := do
  put prompt
  let lines ← if pending.isEmpty then readLines else pure pending
  match lines with
  | [] =>
    put "\n"
    return 0
  | line :: rest =>
    let report := session.run line
    showRecords config report.journal
    match report.answer with
    | .error _ => return 1
    | .ok answer =>
      put (Command.printed answer)
      if report.session.finished then return 0
      else replLoop config prompt report.session rest

/-- Prints an outcome and gives its exit code. -/
def finish (outcome : Outcome) : IO UInt32 := do
  put outcome.stdout
  return outcome.exitCode.toUInt32

end LineShell

open LineShell in
/-- Runs the program on its arguments. -/
def main (args : List String) : IO UInt32 := do
  let prompt ← IO.getEnv Config.promptVariable.toString
  let logLevel ← IO.getEnv Config.logLevelVariable.toString
  let env : Environment := fun x =>
    if x = Config.promptVariable then prompt.map Text.ofString
    else if x = Config.logLevelVariable then logLevel.map Text.ofString
    else none
  match Command.ofArguments (args.map Text.ofString) with
  | .error _ => return 2
  | .ok invocation =>
    let config := Config.resolve env none invocation.logLevel
    match invocation.command with
    | .repl chosen =>
      replLoop config (Command.promptOf env invocation.logLevel chosen) .new []
    | .eval lines =>
      showRecords config (Command.evalJournal .new lines)
      finish (Command.runInvocation env [] invocation)
    | _ => finish (Command.runInvocation env [] invocation)
