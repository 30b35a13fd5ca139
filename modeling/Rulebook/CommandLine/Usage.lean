import Rulebook.CommandLine.Flag

/-!
# Help and usage errors
-/

namespace Rulebook.CommandLine

/-- Why arguments are refused. -/
inductive UsageError where
  | unexpectedArgument (argument : String)
  | unknownCommand (name : String)
  | missingCommand
  | missingArguments (names : List String)
  /-- A flag, or the file, stands without its value. -/
  | missingValue (display : String)
  | unexpectedValue (value display : String)
  | repeated (display : String)
  | invalidValue (value display : String) (reason : Option String)
deriving DecidableEq, Repr

def programName : String := "declogic"

def versionText : String := programName ++ " 0.1.0"

def fileDisplay : String := "<FILE>"

def UsageError.message : UsageError → String
  | .unexpectedArgument argument => "unexpected argument '" ++ argument ++ "' found"
  | .unknownCommand name => "unrecognized subcommand '" ++ name ++ "'"
  | .missingCommand =>
      "'" ++ programName ++ "' requires a subcommand but one was not provided"
  | .missingArguments names =>
      "the following required arguments were not provided:" ++
        String.join (names.map fun name => "\n  " ++ name)
  | .missingValue display =>
      "a value is required for '" ++ display ++ "' but none was supplied"
  | .unexpectedValue value display =>
      "unexpected value '" ++ value ++ "' for '" ++ display ++
        "' found; no more were expected"
  | .repeated display => "the argument '" ++ display ++ "' cannot be used multiple times"
  | .invalidValue value display reason =>
      "invalid value '" ++ value ++ "' for '" ++ display ++ "'" ++
        (match reason with
         | some reason => ": " ++ reason
         | none => "")

/-- The error for a value that is refused. -/
def ValueFault.usageError (value display : String) : ValueFault → UsageError
  | .empty => .missingValue display
  | .notListed => .invalidValue value display none
  | .malformed reason => .invalidValue value display (some reason)

/-- Lines of two columns, the second of which starts at one place. -/
def columns (rows : List (String × String)) : String :=
  let width := rows.foldl (fun width row => max width row.1.length) 0
  String.join (rows.map fun (left, right) =>
    if right.isEmpty then "  " ++ left ++ "\n"
    else "  " ++ left ++ String.ofList (List.replicate (width - left.length) ' ') ++ "  " ++
      right ++ "\n")

def Flag.helpRow (flag : Flag) : String × String :=
  let short := match flag.short with
    | some c => String.ofList ['-', c, ',', ' ']
    | none => "    "
  (short ++ flag.display, flag.about)

/-- What the command that prints help says of itself. -/
def helpAbout : String := "Print this message or the help of the given subcommand(s)"

def programHelp : String :=
  "Extract, optimize and verify decision logic\n\n" ++
    "Usage: " ++ programName ++ " [OPTIONS] <COMMAND>\n\nCommands:\n" ++
    columns (Command.all.map (fun command => (command.name, command.about)) ++
      [("help", helpAbout)]) ++
    "\nOptions:\n" ++ columns (programFlags.map Flag.helpRow)

def Command.help (command : Command) : String :=
  command.about ++ "\n\nUsage: " ++ programName ++ " " ++ command.name ++ " [OPTIONS] " ++
    (if command.needsOutputs then validFlag.display ++ " " else "") ++ fileDisplay ++
    "\n\nArguments:\n" ++ columns [(fileDisplay, "Source file")] ++
    "\nOptions:\n" ++ columns (command.flags.map Flag.helpRow)

def helpHelp : String :=
  let topics := "[COMMAND]..."
  helpAbout ++ "\n\nUsage: " ++ programName ++ " help " ++ topics ++ "\n\nArguments:\n" ++
    columns [(topics, "Print help for the subcommand(s)")]

/-- What help can be asked about. -/
inductive Topic where
  | program
  | command (about : Command)
  | help
deriving DecidableEq, Repr

def Topic.text : Topic → String
  | .program => programHelp
  | .command about => about.help
  | .help => helpHelp

end Rulebook.CommandLine
