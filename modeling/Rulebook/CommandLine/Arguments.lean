import Rulebook.CommandLine.Usage

/-!
# Reading arguments

Arguments are read from left to right. The value of a flag, and the file, are held back until
the next argument is understood; an argument that is not understood at all is reported before
what is wrong with a value held back.
-/

namespace Rulebook.CommandLine

/-- Why there is no command to run. -/
inductive Stop where
  | help (topic : Topic)
  | version
  /-- No argument says anything. -/
  | nothing
  | refused (error : UsageError)
deriving DecidableEq, Repr

/-- What is held back. -/
inductive Pending where
  | nothing
  /-- A flag whose value has not come. -/
  | awaiting (flag : Flag)
  | value (flag : Flag) (text : String)
  | file (path : String)

/-- What the arguments read so far say. -/
structure Reading where
  settings : Settings := {}
  /-- The flags that have been seen and may not be seen again. -/
  used : List String := []
  pending : Pending := .nothing
  /-- Whether any flag or file has been seen. -/
  hasSpoken : Bool := false
  /-- Whether a file has been seen. -/
  hasFile : Bool := false
  /-- Whether a double dash has ended the flags. -/
  flagsEnded : Bool := false

namespace Reading

def markUsed (reading : Reading) (flag : Flag) : Except Stop Reading :=
  if reading.used.contains flag.long then .error (.refused (.repeated flag.display))
  else .ok { reading with used := flag.long :: reading.used }

def assign (reading : Reading) (display value : String)
    (settings : Except ValueFault Settings) : Except Stop Reading :=
  match settings with
  | .ok settings => .ok { reading with settings := settings }
  | .error fault => .error (.refused (fault.usageError value display))

/-- Gives a flag its value. -/
def giveValue (reading : Reading) (flag : Flag) (value : String) : Except Stop Reading :=
  match flag.action with
  | .set assignment => do
      let reading ← reading.markUsed flag
      reading.assign flag.display value (assignment reading.settings value)
  | .collect assignment =>
      reading.assign flag.display value (assignment reading.settings value)
  | _ => .error (.refused (.unexpectedValue value flag.display))

/-- Takes in what was held back. -/
def settle (reading : Reading) : Except Stop Reading :=
  let settled := { reading with pending := .nothing }
  match reading.pending with
  | .nothing => .ok settled
  | .awaiting flag => .error (.refused (.missingValue flag.display))
  | .value flag text => settled.giveValue flag text
  | .file path =>
      settled.assign fileDisplay path
        ((readPath path).map fun path => { settled.settings with file := some path })

/-- Takes in a flag that has no value of its own; one that needs a value then waits for it. -/
def takeFlag (topic : Topic) (reading : Reading) (flag : Flag) :
    Except Stop Reading := do
  let reading ← reading.settle
  let reading := { reading with hasSpoken := true }
  match flag.action with
  | .set _ | .collect _ => return { reading with pending := .awaiting flag }
  | .switch assignment =>
      let reading ← reading.markUsed flag
      return { reading with settings := assignment reading.settings }
  | .count => return reading
  | .help => throw (.help topic)
  | .version => throw .version

/-- Takes in a flag with the value that is attached to it. -/
def takeFlagWith (reading : Reading) (flag : Flag) (value : String) : Except Stop Reading := do
  if flag.action.takesValue then
    let reading ← reading.settle
    ({ reading with hasSpoken := true }).giveValue flag value
  else throw (.refused (.unexpectedValue value flag.display))

/-- Takes in a flag that is spelt out, without its two dashes. -/
def takeLong (topic : Topic) (flags : List Flag) (reading : Reading)
    (argument : List Char) : Except Stop Reading :=
  let (name, value) := match Text.splitFirst? ['='] argument with
    | some (name, value) => (String.ofList name, some (String.ofList value))
    | none => (String.ofList argument, none)
  match flags.find? fun flag => flag.long = name with
  | none => .error (.refused (.unexpectedArgument ("--" ++ name)))
  | some flag =>
      match value with
      | none => reading.takeFlag topic flag
      | some value => reading.takeFlagWith flag value

/-- Takes in flags of one letter each, without their dash. What follows a flag that takes a value
is that value. -/
def takeShort (topic : Topic) (flags : List Flag) (reading : Reading) :
    List Char → Except Stop Reading
  | [] => .ok reading
  | letter :: rest =>
      match flags.find? fun flag => flag.short = some letter with
      | none =>
          .error (.refused (.unexpectedArgument (String.ofList ['-', letter])))
      | some flag =>
          if flag.action.takesValue ∧ ¬ rest.isEmpty then
            let value := if rest.head? = some '=' then rest.tail else rest
            reading.takeFlagWith flag (String.ofList value)
          else
            match reading.takeFlag topic flag with
            | .error stop => .error stop
            | .ok reading => takeShort topic flags reading rest

def takeFile (reading : Reading) (path : String) : Except Stop Reading := do
  if reading.hasFile then throw (.refused (.unexpectedArgument path))
  else
    let reading ← reading.settle
    return { reading with pending := .file path, hasFile := true, hasSpoken := true }

end Reading

/-- The four forms of an argument. -/
inductive Form where
  /-- The double dash, after which there are no more flags. -/
  | separator
  | long (chars : List Char)
  | short (chars : List Char)
  | word

def Form.of (argument : String) : Form :=
  match argument.toList with
  | ['-', '-'] => .separator
  | '-' :: '-' :: chars => .long chars
  | '-' :: c :: chars => .short (c :: chars)
  | _ => .word

namespace Command

/-- Reads the arguments that follow a command. -/
def readArguments (command : Command) (reading : Reading) : List String → Except Stop Reading
  | [] => reading.settle
  | argument :: rest =>
      let next : Except Stop Reading :=
        if reading.flagsEnded then reading.takeFile argument
        else
          match Form.of argument, reading.pending with
          | .separator, _ => .ok { reading with flagsEnded := true }
          | .long chars, _ => reading.takeLong (.command command) command.flags chars
          | .short chars, _ => reading.takeShort (.command command) command.flags chars
          | .word, .awaiting flag => .ok { reading with pending := .value flag argument }
          | .word, _ => reading.takeFile argument
      match next with
      | .error stop => .error stop
      | .ok reading => command.readArguments reading rest

/-- What a command must be given and is not. -/
def missing (command : Command) (settings : Settings) : List String :=
  (if command.needsOutputs ∧ settings.valid.isEmpty then [validFlag.display] else []) ++
    (if settings.file.isNone then [fileDisplay] else [])

/-- The settings that the arguments after a command give. -/
def read (command : Command) (arguments : List String) : Except Stop Settings := do
  let reading ← command.readArguments {} arguments
  let missing := command.missing reading.settings
  if missing.isEmpty then return reading.settings
  else throw (.refused (.missingArguments missing))

end Command

/-- A command with its settings. -/
structure Invocation where
  command : Command
  settings : Settings
deriving DecidableEq, Repr

/-- The help that is asked for by name. -/
def readHelp : List String → Stop
  | [] => .help .program
  | "help" :: [] => .help .help
  | "help" :: name :: _ => .refused (.unknownCommand name)
  | name :: rest =>
      match Command.ofName? name, rest with
      | none, _ => .refused (.unknownCommand name)
      | some command, [] => .help (.command command)
      | some _, extra :: _ => .refused (.unknownCommand extra)

/-- A command and the arguments after it. What is held back before the command is taken in after
everything that follows it. A configuration named after the command is preferred. -/
def readCommand (reading : Reading) (command : Command) (arguments : List String) :
    Except Stop Invocation := do
  let settings ← command.read arguments
  let before ← reading.settle
  return ⟨command, { settings with config := settings.config.or before.settings.config }⟩

/-- Reads the arguments up to a command, and those after it. -/
def readProgram (reading : Reading) : List String → Except Stop Invocation
  | [] => do
      let reading ← reading.settle
      throw (if reading.hasSpoken then .refused .missingCommand else .nothing)
  | argument :: rest =>
      if reading.flagsEnded then
        if argument = "help" ∨ (Command.ofName? argument).isSome then
          .error (.refused (.unexpectedArgument argument))
        else .error (.refused (.unknownCommand argument))
      else
        let next (reading : Except Stop Reading) : Except Stop Invocation :=
          match reading with
          | .error stop => .error stop
          | .ok reading => readProgram reading rest
        match Form.of argument, reading.pending with
        | .separator, _ => readProgram { reading with flagsEnded := true } rest
        | .long chars, _ => next (reading.takeLong .program programFlags chars)
        | .short chars, _ => next (reading.takeShort .program programFlags chars)
        | .word, .awaiting flag =>
            readProgram { reading with pending := .value flag argument } rest
        | .word, _ =>
            if argument = "help" then .error (readHelp rest)
            else
              match Command.ofName? argument with
              | some command => readCommand reading command rest
              | none => .error (.refused (.unknownCommand argument))

/-- What a list of arguments asks for. -/
def Invocation.ofArguments (arguments : List String) : Except Stop Invocation :=
  readProgram {} arguments

end Rulebook.CommandLine
