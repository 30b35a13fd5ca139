import Rulebook.Analysis
import Rulebook.CommandLine.Arguments
import Rulebook.Json.Pretty
import Rulebook.Model.Build
import Rulebook.Verifier

/-!
# Running a command

A run is a function of the arguments and of what the files hold. It gives what is printed and the
exit code.
-/

namespace Rulebook.CommandLine

/-- Why a file cannot be read. -/
inductive FileFault where
  | missing
  | directory
  | notDirectory
  | nameTooLong
  | notText
deriving DecidableEq, Repr

def FileFault.message : FileFault → String
  | .missing => "No such file or directory (os error 2)"
  | .directory => "Is a directory (os error 21)"
  | .notDirectory => "Not a directory (os error 20)"
  | .nameTooLong => "File name too long (os error 36)"
  | .notText => "stream did not contain valid UTF-8"

/-- What the files hold, by their paths. -/
abbrev Files := String → Except FileFault String

structure Outcome where
  code : Nat
  /-- What is printed on the standard output. -/
  output : String := ""
  /-- What is printed on the standard error stream. -/
  errors : String := ""
deriving DecidableEq, Repr

/-- Why a command that was understood cannot be carried out. -/
inductive RunError where
  | file (cause : FileFault)
  | config (cause : ConfigError)
  | build (cause : BuildError)
  | script (cause : ScriptError)

def RunError.message : RunError → String
  | .file cause => cause.message
  | .config cause =>
      "invalid configuration" ++
        (match cause.detail? with
         | some detail => ": " ++ detail
         | none => "")
  | .build cause => cause.title ++ "\n" ++ cause.message
  | .script cause => cause.message

namespace Invocation

def readConfig (files : Files) (settings : Settings) : Except RunError Config :=
  match settings.config with
  | none => .ok {}
  | some path =>
      match files path with
      | .error cause => .error (.file cause)
      | .ok document =>
          match Config.ofToml document with
          | .error cause => .error (.config cause)
          | .ok config => .ok config

/-- The configuration with what the flags change in it. -/
def configure (settings : Settings) (config : Config) : Config :=
  { config with
    strict := config.strict || settings.strict
    sizeCutoff := settings.sizeCutoff.getD config.sizeCutoff
    backend := settings.backend.getD config.backend
    timeoutSeconds := settings.timeoutSeconds.getD config.timeoutSeconds }

def readModel (files : Files) (settings : Settings) (config : Config) : Except RunError Model :=
  match files (settings.file.getD "") with
  | .error cause => .error (.file cause)
  | .ok source =>
      match Model.ofSource source settings.function config.strict with
      | .error cause => .error (.build cause)
      | .ok model => .ok model

def resultCode : ProofResult → Nat
  | .proved => 0
  | .disproved _ => 1
  | .unknown _ => 2

/-- The code of a run that breaks down. -/
def breakdownCode : Nat := 101

/-- What is printed of a proof result. A time limit beyond the clock breaks the run down. -/
def report (model : Model) (asJson : Bool) (result : ProofResult) : Outcome :=
  match result with
  | .unknown (.solver (.interrupted .beyondClock)) =>
      ⟨breakdownCode, "", Interruption.beyondClock.message ++ "\n"⟩
  | _ =>
      let text :=
        if asJson then result.toJson.text else model.functionName ++ ": " ++ result.text
      ⟨resultCode result, text ++ "\n", ""⟩

/-- Carries out a command on the model that its file describes. -/
def act (command : Command) (settings : Settings) (config : Config) (model : Model) :
    Except RunError Outcome :=
  match command with
  | .extract => .ok ⟨0, model.toJson.text ++ "\n", ""⟩
  | .optimize => .ok ⟨0, (model.analyze config.sizeCutoff).toJson.text ++ "\n", ""⟩
  | .table => .ok ⟨0, (model.analyze config.sizeCutoff).table.text, ""⟩
  | .verify =>
      .ok (report model settings.json
        ((Verifier.ofConfig config).verify model settings.constraints settings.valid false))
  | .smt =>
      match model.smtScript settings.constraints settings.valid config.timeout? with
      | .error cause => .error (.script cause)
      | .ok script => .ok ⟨0, script, ""⟩

/-- The configuration is read first, then the source. -/
def run? (files : Files) (invocation : Invocation) : Except RunError Outcome := do
  let config ← readConfig files invocation.settings
  let config := configure invocation.settings config
  let model ← readModel files invocation.settings config
  act invocation.command invocation.settings config model

def run (files : Files) (invocation : Invocation) : Outcome :=
  match invocation.run? files with
  | .ok outcome => outcome
  | .error error => ⟨1, "", "Error: " ++ error.message ++ "\n"⟩

/-- The files that a command reads. -/
def paths (invocation : Invocation) : List String :=
  invocation.settings.config.toList ++ invocation.settings.file.toList

end Invocation

/-- What is printed where there is no command to run. -/
def Stop.outcome : Stop → Outcome
  | .help topic => ⟨0, topic.text, ""⟩
  | .version => ⟨0, versionText ++ "\n", ""⟩
  | .nothing => ⟨2, "", programHelp⟩
  | .refused error =>
      ⟨2, "", "error: " ++ error.message ++ "\n\nFor more information, try '--help'.\n"⟩

/-- Runs what the arguments ask for. -/
def run (files : Files) (arguments : List String) : Outcome :=
  match Invocation.ofArguments arguments with
  | .error stop => stop.outcome
  | .ok invocation => invocation.run files

end Rulebook.CommandLine
