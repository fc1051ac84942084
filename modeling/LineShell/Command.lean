import LineShell.Command.Arguments
import LineShell.Command.Loops

/-!
# The command line

How arguments spell an invocation of one of the two commands, and what it comes to. The commands
themselves are in `Command/Loops`; they get their lines and their prompt from here and do not depend
on the conventions of command lines. A request for the version or for help is answered in place of a
command. Help screens and messages about wrong arguments are not composed here, and neither is the
description of the platform that can follow the version.
-/

namespace LineShell

/-- The version of the program. -/
def version : Text := "0.1.0"

/-- What the program is asked to do. -/
inductive Command where
  /-- Tell the version. -/
  | version
  /-- Tell how the program is used. -/
  | help
  /-- Run these lines. -/
  | eval (lines : List Text)
  /-- Run the lines of the input behind a prompt, if one is chosen. -/
  | repl (prompt : Option Text)
deriving DecidableEq

/-- A command and the settings it was given. -/
structure Invocation where
  /-- The chosen log level. -/
  logLevel : Option Text
  /-- The command. -/
  command : Command
deriving DecidableEq

namespace Command

/-! ## Reading the command line -/

/-- The option for the log level. -/
def logLevelSwitch : Switch := ⟨"--log-level", some 'l', true⟩

/-- The option that asks for the version. -/
def versionSwitch : Switch := ⟨"--version", some 'v', false⟩

/-- The option for the prompt. -/
def promptSwitch : Switch := ⟨"--prompt", some 'p', true⟩

/-- The option that asks for help. -/
def helpSwitch : Switch := ⟨"--help", none, false⟩

/-- The options before the command. -/
def programSwitches : List Switch := [logLevelSwitch, versionSwitch, helpSwitch]

/-- The first request among options. A request is answered in place of everything else. -/
def request? (arguments : Arguments) : Option Command :=
  arguments.options.findSome? fun given =>
    if given.1 = versionSwitch then some .version
    else if given.1 = helpSwitch then some .help
    else none

/-- What operands ask for whose first one names no command. They are read once more, as options:
behind two dashes a request is an operand and is answered all the same. -/
def ofUnknown (operands : List Text) : Except UsageError Command :=
  match Arguments.read programSwitches false operands with
  | .error e => .error e
  | .ok arguments =>
    match request? arguments with
    | some request => .ok request
    | none => .error .unknownCommand

/-- The command `eval` with its arguments. -/
def ofEval (args : List Text) : Except UsageError Command :=
  match Arguments.read [helpSwitch] true args with
  | .error e => .error e
  | .ok arguments =>
    match request? arguments with
    | some request => .ok request
    | none =>
      if arguments.operands = [] then .error .missingOperand else .ok (.eval arguments.operands)

/-- The command `repl` with its arguments. -/
def ofRepl (args : List Text) : Except UsageError Command :=
  match Arguments.read [promptSwitch, helpSwitch] true args with
  | .error e => .error e
  | .ok arguments =>
    match request? arguments with
    | some request => .ok request
    | none =>
      if arguments.operands = [] then .ok (.repl (arguments.value? promptSwitch))
      else .error .extraOperand

/-- The command that operands name. -/
def ofOperands : List Text → Except UsageError Command
  | [] => .error .missingCommand
  | name :: args =>
    if name = "eval" then ofEval args
    else if name = "repl" then ofRepl args
    else ofUnknown (name :: args)

/-- The invocation that arguments spell. A request comes before everything else but a bad
option. -/
def ofArguments (args : List Text) : Except UsageError Invocation :=
  match Arguments.read programSwitches false args with
  | .error e => .error e
  | .ok arguments =>
    let logLevel := arguments.value? logLevelSwitch
    match request? arguments with
    | some request => .ok ⟨logLevel, request⟩
    | none => (ofOperands arguments.operands).map fun command => ⟨logLevel, command⟩

/-! ## Running -/

/-- Runs an invocation on an environment and an input. A request for help comes to no text. -/
def runInvocation (env : Environment) (stdin : Text) (invocation : Invocation) : Outcome :=
  match invocation.command with
  | .version => ⟨0, "dumbjshell version " ++ LineShell.version ++ "\n", none⟩
  | .help => ⟨0, [], none⟩
  | .eval lines => evalLines .new false lines
  | .repl prompt => replLines (promptOf env invocation.logLevel prompt) .new stdin.lines

/-- Runs the program. A command line that cannot be read gives the exit code 2. -/
def run (env : Environment) (stdin : Text) (args : List Text) : Outcome :=
  match ofArguments args with
  | .error _ => ⟨2, [], none⟩
  | .ok invocation => runInvocation env stdin invocation

end Command

end LineShell
