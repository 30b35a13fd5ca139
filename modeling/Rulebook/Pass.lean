import Rulebook.Pass.Merge
import Rulebook.Pass.Redundancy
import Rulebook.Pass.Simplify

/-!
# Passes over a model

A pass turns a model into another and reports findings about its input. Passes run one after the
other, each on the model of the one before.
-/

namespace Rulebook

inductive Pass where
  | simplify
  | merge
  | redundancy
deriving DecidableEq, Repr

/-- A model and what was found on the way to it. -/
structure PassOutput where
  model : Model
  findings : List Finding

namespace Pass

def all : List Pass := [.simplify, .merge, .redundancy]

def name : Pass → String
  | .simplify => "simplify"
  | .merge => "merge"
  | .redundancy => "redundancy"

def ofName? (name : String) : Option Pass := all.find? fun pass => pass.name = name

/-- Looking for redundant rules leaves the model as it is. -/
def run (model : Model) : Pass → PassOutput
  | .simplify => ⟨model.simplify, simplifyFindings 0 false model.rules⟩
  | .merge => ⟨model.merge, mergeFindings model.rules⟩
  | .redundancy => ⟨model, model.redundancies.map .redundant⟩

/-- The outputs of the passes, one after the other. -/
def steps (model : Model) : List Pass → List PassOutput
  | [] => []
  | pass :: rest =>
      let output := pass.run model
      output :: steps output.model rest

/-- The last model, with the findings of all passes. -/
def runAll (model : Model) : List Pass → PassOutput
  | [] => ⟨model, []⟩
  | pass :: rest =>
      let output := pass.run model
      let last := runAll output.model rest
      ⟨last.model, output.findings ++ last.findings⟩

end Pass

end Rulebook
