import Rulebook.LookupTable
import Rulebook.Obligation.Enumeration
import Rulebook.Toml.Read

/-!
# Configuration

What a configuration document can set. Every setting has a default, and a document may not mention
anything else.
-/

namespace Rulebook

/-- The way in which obligations are checked. -/
inductive Backend where
  | z3
  | enumerate
deriving DecidableEq, Repr

def Backend.name : Backend → String
  | .z3 => "z3"
  | .enumerate => "enumerate"

def Backend.ofName? (name : String) : Option Backend :=
  [Backend.z3, Backend.enumerate].find? fun backend => backend.name = name

structure Config where
  /-- Refuse functions with a path that does not return. -/
  strict : Bool := false
  sizeCutoff : Nat := defaultCutoff
  backend : Backend := .z3
  /-- Where the solver is found. -/
  solverPath : String := "z3"
  /-- The time limit of a check in seconds; zero for none. -/
  timeoutSeconds : Nat := 10
  enumerationLimit : Nat := defaultEnumerationLimit
deriving DecidableEq, Repr

/-- The time limit of a check in milliseconds. -/
def Config.timeout? (config : Config) : Option Nat :=
  if config.timeoutSeconds = 0 then none else some (config.timeoutSeconds * 1000)

inductive ConfigError where
  /-- The document cannot be read, or a value is not of its kind. -/
  | malformed
  | unknownField (name : String) (known : List String)
  | unknownBackend (name : String)
deriving DecidableEq, Repr

namespace ConfigError

/-- Alternatives as a message lists them. -/
def alternatives (names : List String) : String :=
  let ticked := names.map fun name => "`" ++ name ++ "`"
  match ticked with
  | [first, second] => first ++ " or " ++ second
  | [only] => only
  | all => "one of " ++ ", ".intercalate all

/-- What is wrong, where it is a name that is not known. -/
def detail? : ConfigError → Option String
  | .malformed => none
  | .unknownField name known =>
      some ("unknown field `" ++ name ++ "`, expected " ++ alternatives known)
  | .unknownBackend name =>
      some ("unknown variant `" ++ name ++ "`, expected " ++ alternatives ["z3", "enumerate"])

end ConfigError

namespace Config

def boolean : Toml → Except ConfigError Bool
  | .boolean value => .ok value
  | _ => .error .malformed

def natural : Toml → Except ConfigError Nat
  | .integer value => if value.toInt < 0 then .error .malformed else .ok value.toInt.toNat
  | _ => .error .malformed

def text : Toml → Except ConfigError String
  | .string value => .ok value
  | _ => .error .malformed

def backendNamed (name : String) : Except ConfigError Backend :=
  match Backend.ofName? name with
  | some backend => .ok backend
  | none => .error (.unknownBackend name)

/-- A backend by its name. The name may also be the only key of a table, if nothing is said
under it. -/
def backendOf : Toml → Except ConfigError Backend
  | .string name => backendNamed name
  | .table _ [(name, content)] => do
      let backend ← backendNamed name
      if content.isEmpty then return backend else throw .malformed
  | _ => .error .malformed

/-- A setting: how its value changes the configuration. -/
abbrev Setting := Config → Toml → Except ConfigError Config

/-- Applies the settings of a table one after the other. -/
def applyTable (settings : List (String × Setting)) (config : Config) :
    List (String × Toml) → Except ConfigError Config
  | [] => .ok config
  | (key, value) :: rest =>
      match settings.lookup key with
      | none => .error (.unknownField key (settings.map (·.1)))
      | some setting =>
          match setting config value with
          | .error error => .error error
          | .ok config => applyTable settings config rest

/-- Applies settings whose values are listed in their order. Settings without a value stay as they
are, values without a setting are passed over. -/
def applyList : List (String × Setting) → Config → List Toml → Except ConfigError Config
  | (_, setting) :: settings, config, value :: values => do
      applyList settings (← setting config value) values
  | _, config, _ => .ok config

/-- A setting whose value is a table of settings, or a list of their values. -/
def group (settings : List (String × Setting)) : Setting := fun config value =>
  match value.entries?, value.items? with
  | some entries, _ => applyTable settings config entries
  | none, some values => applyList settings config values
  | none, none => .error .malformed

def builderSettings : List (String × Setting) :=
  [("strict", fun config value => (boolean value).map ({ config with strict := · }))]

def optimizerSettings : List (String × Setting) :=
  [("size_cutoff", fun config value => (natural value).map ({ config with sizeCutoff := · }))]

def verifierSettings : List (String × Setting) :=
  [("backend", fun config value => (backendOf value).map ({ config with backend := · })),
   ("z3_path", fun config value => (text value).map ({ config with solverPath := · })),
   ("timeout_secs", fun config value =>
     (natural value).map ({ config with timeoutSeconds := · })),
   ("enumeration_limit", fun config value =>
     (natural value).map ({ config with enumerationLimit := · }))]

def settings : List (String × Setting) :=
  [("builder", group builderSettings), ("optimizer", group optimizerSettings),
   ("verifier", group verifierSettings)]

/-- The configuration that a document describes. -/
def ofToml (document : String) : Except ConfigError Config :=
  match Toml.read? document with
  | none => .error .malformed
  | some entries => applyTable settings {} entries

end Config

end Rulebook
