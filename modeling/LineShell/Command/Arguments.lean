import LineShell.Text.CodePoint

/-!
# Options and operands

Arguments of a command are options, which start with a dash and have more behind it, and operands.
A long option may carry its value behind an equals sign. Short options may be written together,
and the rest of such a word is the value of the first one that takes a value. A value that is not
part of the word is the next argument, whatever it looks like. Two dashes alone end the options.
-/

namespace LineShell

/-- An option that a command knows. -/
structure Switch where
  /-- The long spelling, with its dashes. -/
  long : Text
  /-- The letter of the short spelling, if there is one. -/
  short : Option CodePoint
  /-- Whether a value belongs to the option. -/
  takesValue : Bool
deriving DecidableEq

/-- Why a command line cannot be run. -/
inductive UsageError where
  | unknownOption
  | missingValue
  | unexpectedValue
  | missingCommand
  | unknownCommand
  | missingOperand
  | extraOperand
deriving DecidableEq

/-- The options of one argument, with their values, and one that waits for its value. -/
structure Given where
  /-- Options whose values are known; a plain option has the empty value. -/
  options : List (Switch × Text)
  /-- An option whose value is the next argument. -/
  pending : Option Switch

/-- Options with their values, and operands. -/
structure Arguments where
  /-- The options in the order given. -/
  options : List (Switch × Text)
  /-- The operands in the order given. -/
  operands : List Text

namespace Arguments

/-- Whether an argument is an option. -/
def isOption (arg : Text) : Bool :=
  arg.head? = some ('-' : CodePoint) && 1 < arg.length

/-- The options of a word of short options, without its dash. -/
def readShort (switches : List Switch) : Text → Except UsageError Given
  | [] => .ok ⟨[], none⟩
  | c :: rest =>
    match switches.find? fun s => s.short = some c with
    | none => .error .unknownOption
    | some s =>
      if s.takesValue then
        if rest = [] then .ok ⟨[], some s⟩ else .ok ⟨[(s, rest)], none⟩
      else
        match readShort switches rest with
        | .error e => .error e
        | .ok more => .ok ⟨(s, []) :: more.options, more.pending⟩

/-- The long option `s`, with the value behind the equals sign if there is one. -/
def readLong (s : Switch) (value : Option Text) : Except UsageError Given :=
  match s.takesValue, value with
  | true, some v => .ok ⟨[(s, v)], none⟩
  | true, none => .ok ⟨[], some s⟩
  | false, some _ => .error .unexpectedValue
  | false, none => .ok ⟨[(s, [])], none⟩

/-- The name of a long option. -/
def longName (arg : Text) : Text :=
  arg.takeWhile fun c => c ≠ ('=' : CodePoint)

/-- The value behind the equals sign, if there is one. -/
def longValue? (arg : Text) : Option Text :=
  (arg.dropWhile fun c => c ≠ ('=' : CodePoint)).tail?

/-- The options of one argument. -/
def readOption (switches : List Switch) (arg : Text) : Except UsageError Given :=
  match switches.find? fun s => s.long = longName arg with
  | some s => readLong s (longValue? arg)
  | none =>
    if ("--" : Text).isPrefixOf arg then .error .unknownOption
    else readShort switches arg.tail

/-- Splits arguments into options and operands. With `interspersed`, options may stand behind
operands; without, everything from the first operand on is an operand. -/
def read (switches : List Switch) (interspersed : Bool) (args : List Text) :
    Except UsageError Arguments :=
  match args with
  | [] => .ok ⟨[], []⟩
  | arg :: rest =>
    if arg = "--" then .ok ⟨[], rest⟩
    else if isOption arg then
      match readOption switches arg with
      | .error e => .error e
      | .ok given =>
        match given.pending with
        | none => (read switches interspersed rest).map fun more =>
            ⟨given.options ++ more.options, more.operands⟩
        | some s =>
          match rest with
          | [] => .error .missingValue
          | value :: others => (read switches interspersed others).map fun more =>
              ⟨given.options ++ (s, value) :: more.options, more.operands⟩
    else if interspersed then
      (read switches interspersed rest).map fun more => ⟨more.options, arg :: more.operands⟩
    else .ok ⟨[], arg :: rest⟩
termination_by args.length

/-- The last value given for an option. -/
def value? (arguments : Arguments) (s : Switch) : Option Text :=
  arguments.options.reverse.lookup s

end Arguments

end LineShell
