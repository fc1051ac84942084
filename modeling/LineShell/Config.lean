import LineShell.Text.UpperCase

/-!
# Settings

The prompt and the log level are taken from the command line, else from the environment, else from
the defaults. The name of a log level counts in upper case; a name that is not known stands for
the default level.
-/

namespace LineShell

/-- The variables of the environment by name. -/
abbrev Environment := Text → Option Text

/-- The settings of a run. -/
structure Config where
  /-- What is shown before each line of input. -/
  prompt : Text
  /-- The name of the least level that is logged. -/
  logLevel : Text
deriving DecidableEq

namespace Config

/-- The environment variable for the prompt. -/
def promptVariable : Text := "DUMBJSHELL_PROMPT"

/-- The environment variable for the log level. -/
def logLevelVariable : Text := "DUMBJSHELL_LOG_LEVEL"

/-- The prompt that is shown when none is chosen. -/
def defaultPrompt : Text := "dumbjshell> "

/-- The log level when none is chosen. -/
def defaultLogLevel : Text := "WARNING"

/-- The settings for choices on the command line and an environment. -/
def resolve (env : Environment) (prompt logLevel : Option Text) : Config where
  prompt := (prompt <|> env promptVariable).getD defaultPrompt
  logLevel := ((logLevel <|> env logLevelVariable).getD defaultLogLevel).upper

/-- The known log levels and their ranks. -/
def levels : List (Text × Nat) :=
  [("CRITICAL", 50), ("FATAL", 50), ("ERROR", 40), ("WARNING", 30), ("WARN", 30), ("INFO", 20),
   ("DEBUG", 10), ("NOTSET", 0)]

/-- The rank from which on records are logged. -/
def threshold (config : Config) : Nat :=
  (levels.lookup config.logLevel).getD 30

end Config

end LineShell
