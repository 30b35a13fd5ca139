import Rulebook.Model.Json
import Rulebook.Obligation.Verdict

/-!
# Obligations as JSON

Constraints name their kind in a field; an open bound is written as null and may be left out.
-/

namespace Rulebook

def TextMap.toJson {α : Type} (encode : α → Json) (map : TextMap α) : Json :=
  .object (map.entries.map fun (key, value) => (key, encode value))

def Counterexample.toJson (counterexample : Counterexample) : Json :=
  counterexample.values.toJson Value.toJson

def Constraint.toJson : Constraint → Json
  | .boolean => .object [("kind", .string "boolean")]
  | .range min max =>
      let bound : Option Int64 → Json := Json.option fun value => .int value.toInt
      .object [("kind", .string "range"), ("min", bound min), ("max", bound max)]
  | .oneOf values =>
      .object [("kind", .string "one_of"),
        ("values", .array (values.map fun value => .int value.toInt))]

/-- A bound, where null stands for none. -/
def boundOfJson? : Json → Option (Option Int64)
  | .null => some none
  | bound => bound.int64?.map some

def Constraint.ofJson? (json : Json) : Option Constraint :=
  match json.kind? with
  | some ("boolean", content) => (content.record? []).map fun _ => .boolean
  | some ("range", content) =>
      match content.paddedRecord? ["min", "max"] with
      | some [min, max] =>
          match boundOfJson? min, boundOfJson? max with
          | some min, some max => some (.range min max)
          | _, _ => none
      | _ => none
  | some ("one_of", content) =>
      match content.record? ["values"] with
      | some [values] => (values.list? Json.int64?).map .oneOf
      | _ => none
  | _ => none

def ValueSort.tag : ValueSort → String
  | .bool => "bool"
  | .int => "int"

def Decision.toJson : Decision → Json
  | .leaf result => .tagged "leaf" result.toJson
  | .branch condition result otherwise =>
      .tagged "branch" (.object
        [("condition", condition.toJson), ("then", result.toJson),
         ("otherwise", otherwise.toJson)])

def Variable.toJson (var : Variable) : Json :=
  .object [("name", .string var.name), ("sort", .string var.sort.tag),
    ("parameter", .bool var.isParameter)]

def Obligation.toJson (obligation : Obligation) : Json :=
  .object [("function_name", .string obligation.functionName),
    ("variables", .array (obligation.unknowns.map Variable.toJson)),
    ("decision", obligation.decision.toJson),
    ("constraints", obligation.constraints.toJson Constraint.toJson),
    ("valid_outputs", .array (obligation.validOutputs.map Literal.toJson))]

end Rulebook
