import Rulebook.LookupTable
import Rulebook.Model.Json
import Rulebook.Pass

/-!
# Analysis of a model

All that the passes derive from one model, and its form as JSON.
-/

namespace Rulebook

structure Analysis where
  given : Model
  simplified : Model
  merged : Model
  table : LookupTable
  redundancies : List Redundancy
  findings : List Finding

/-- Simplifies a model; merges, tabulates and checks for redundancy what comes out. -/
def Model.analyze (model : Model) (cutoff : Nat) : Analysis :=
  let simplified := Pass.simplify.run model
  let merged := Pass.merge.run simplified.model
  let redundancies := simplified.model.redundancies
  { given := model
    simplified := simplified.model
    merged := merged.model
    table := simplified.model.table cutoff
    redundancies
    findings := simplified.findings ++ merged.findings ++ redundancies.map .redundant }

def Samples.toJson (samples : Samples) : Json :=
  .object [("parameter", .string samples.parameter),
    ("values", .array (samples.values.map Value.toJson))]

def Cell.toJson : Cell → Json
  | .hit rule result =>
      .object [("kind", .string "hit"), ("rule", .nat rule), ("value", result.toJson)]
  | .unknown gap => .object [("kind", .string "unknown"), ("reason", .string gap.message)]

def TableEntry.toJson (entry : TableEntry) : Json :=
  .object [("inputs", .array (entry.inputs.map Value.toJson)), ("cell", entry.cell.toJson)]

def LookupTable.toJson (table : LookupTable) : Json :=
  .object [("samples", .array (table.samples.map Samples.toJson)),
    ("entries", .array (table.entries.map TableEntry.toJson))]

def Redundancy.toJson (redundancy : Redundancy) : Json :=
  .object [("rule_index", .nat redundancy.rule), ("covered_by", .nat redundancy.coveredBy),
    ("justification", .string redundancy.justification)]

def Finding.toJson (finding : Finding) : Json :=
  .object [("pass", .string finding.pass), ("rule_index", .nat finding.rule),
    ("message", .string finding.message)]

def Analysis.toJson (analysis : Analysis) : Json :=
  .object [("original", analysis.given.toJson), ("simplified", analysis.simplified.toJson),
    ("merged", analysis.merged.toJson), ("lookup_table", analysis.table.toJson),
    ("redundant_rules", .array (analysis.redundancies.map Redundancy.toJson)),
    ("diagnostics", .array (analysis.findings.map Finding.toJson))]

end Rulebook
