import Rulebook.Cartesian
import Rulebook.Model.Domain

/-!
# Lookup tables

The table of a model lists its outcome for every combination of sampled parameter values. The
entries are in lexicographic order, so that the entry of a combination is found by counting.
-/

namespace Rulebook

/-- The sampled values of a parameter. -/
structure Samples where
  parameter : String
  values : List Value
deriving DecidableEq, Repr

/-- Why a combination has no outcome. -/
inductive CellGap where
  | noMatch
  | failure (cause : EvalError)
deriving DecidableEq, Repr

def CellGap.message : CellGap → String
  | .noMatch => "no rule matches"
  | .failure cause => cause.message

inductive Cell where
  /-- The rule that matches first, and its result. -/
  | hit (rule : Nat) (result : Literal)
  | unknown (gap : CellGap)
deriving DecidableEq, Repr

def Cell.text : Cell → String
  | .hit _ result => result.text
  | .unknown gap => "? (" ++ gap.message ++ ")"

def Cell.rule? : Cell → Option Nat
  | .hit rule _ => some rule
  | .unknown _ => none

structure TableEntry where
  inputs : List Value
  cell : Cell
deriving DecidableEq, Repr

structure LookupTable where
  samples : List Samples
  entries : List TableEntry
deriving DecidableEq, Repr

namespace LookupTable

/-- The number of combinations before the one with the given inputs, when there are `count` of
them before the combinations that agree with the inputs so far. -/
def index? (count : Nat) : List Samples → List Value → Option Nat
  | [], [] => some count
  | samples :: rest, input :: inputs =>
      match samples.values.idxOf? input with
      | some place => index? (count * samples.values.length + place) rest inputs
      | none => none
  | _, _ => none

/-- The cell for one input to each parameter, if all of them were sampled. -/
def get? (table : LookupTable) (inputs : List Value) : Option Cell :=
  (index? 0 table.samples inputs).bind fun index => table.entries[index]?.map TableEntry.cell

/-- The cell for inputs given by name, each parameter taking the first input of its name. -/
def lookup? (table : LookupTable) (inputs : List (String × Value)) : Option Cell :=
  (table.samples.mapM fun samples => inputs.lookup samples.parameter).bind table.get?

def unknownCount (table : LookupTable) : Nat :=
  table.entries.countP fun entry => entry.cell.rule?.isNone

def text (table : LookupTable) : String :=
  let line (inputs : List String) (outcome : String) : String :=
    " | ".intercalate inputs ++ " => " ++ outcome ++ "\n"
  String.join
    (line (table.samples.map Samples.parameter) "result" ::
      table.entries.map fun entry => line (entry.inputs.map Value.text) entry.cell.text)

end LookupTable

namespace Model

/-- The outcome of a model in an environment. -/
def outcome (model : Model) (env : Env) : Cell :=
  match firstMatch env model.rules with
  | .ok (some index) =>
      match model.rules[index]? with
      | some rule => .hit index rule.result
      | none => .unknown .noMatch
  | .ok none => .unknown .noMatch
  | .error cause => .unknown (.failure cause)

/-- The sampled values of every parameter. -/
def samples (model : Model) (cutoff : Nat) : List Samples :=
  model.parameters.map fun parameter =>
    ⟨parameter.name, parameter.domain.sample parameter.name model.conditions cutoff⟩

/-- The lookup table of a model. Ranges of at most `cutoff` steps are listed in full. -/
def table (model : Model) (cutoff : Nat) : LookupTable :=
  let samples := model.samples cutoff
  let names := samples.map Samples.parameter
  ⟨samples, (combinations (samples.map Samples.values)).map fun inputs =>
    ⟨inputs, model.outcome (.ofList (names.zip inputs))⟩⟩

end Model

/-- The cutoff where none is given. -/
def defaultCutoff : Nat := 100

end Rulebook
