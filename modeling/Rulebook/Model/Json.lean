import Rulebook.Json.Basic
import Rulebook.Model.Basic

/-!
# Models as JSON

Values are written as the JSON values they resemble. Alternatives of conditions and literals are
objects with one field; a domain names its kind in a field. Reading undoes writing.
-/

namespace Rulebook

open Json (tagged)

def Value.toJson : Value → Json
  | .none => .null
  | .bool value => .bool value
  | .int value => .int value.toInt
  | .string value => .string value

def Value.ofJson? : Json → Option Value
  | .null => some .none
  | .bool value => some (.bool value)
  | .int value => (Text.int64? value).map .int
  | .string value => some (.string value)
  | _ => Option.none

def Literal.toJson : Literal → Json
  | .value content => tagged "value" content.toJson
  | .verbatim text => tagged "opaque" (.string text)

def Literal.ofJson? (json : Json) : Option Literal :=
  match json.alternative? with
  | some ("value", content) => (Value.ofJson? content).map .value
  | some ("opaque", content) => content.string?.map .verbatim
  | _ => none

def Comparator.tag : Comparator → String
  | .lt => "Lt"
  | .le => "Le"
  | .gt => "Gt"
  | .ge => "Ge"
  | .eq => "Eq"
  | .ne => "Ne"

def Comparator.ofJson? (json : Json) : Option Comparator :=
  json.name?.bind fun tag => Comparator.all.find? fun op => op.tag = tag

def Junction.tag : Junction → String
  | .and => "and"
  | .or => "or"

namespace Condition

mutual

def toJson : Condition → Json
  | .literal value => tagged "literal" (.bool value)
  | .var name => tagged "var" (.string name)
  | .comparison name op constant =>
      tagged "comparison" (.object
        [("variable", .string name), ("op", .string op.tag), ("constant", constant.toJson)])
  | .junction kind parts => tagged kind.tag (.array (partsToJson parts))
  | .not operand => tagged "not" operand.toJson
  | .verbatim text => tagged "opaque" (.string text)

def partsToJson : List Condition → List Json
  | [] => []
  | part :: rest => part.toJson :: partsToJson rest

end

/-- The three parts of a comparison, all of which must be there. -/
def comparisonOfJson? (json : Json) : Option Condition :=
  match json.field? "variable", json.field? "op", json.field? "constant" with
  | some name, some op, some constant =>
      match name.string?, Comparator.ofJson? op, Value.ofJson? constant with
      | some name, some op, some constant => some (.comparison name op constant)
      | _, _, _ => none
  | _, _, _ => none

mutual

def ofJson? : Json → Option Condition
  | .object [("literal", .bool value)] => some (.literal value)
  | .object [("var", .string name)] => some (.var name)
  | .object [("comparison", content)] => comparisonOfJson? content
  | .object [("and", .array parts)] => (partsOfJson? parts).map (.junction .and)
  | .object [("or", .array parts)] => (partsOfJson? parts).map (.junction .or)
  | .object [("not", operand)] => (ofJson? operand).map .not
  | .object [("opaque", .string text)] => some (.verbatim text)
  | _ => none

def partsOfJson? : List Json → Option (List Condition)
  | [] => some []
  | part :: rest =>
      match ofJson? part, partsOfJson? rest with
      | some part, some rest => some (part :: rest)
      | _, _ => none

end

end Condition

def Domain.toJson : Domain → Json
  | .boolean => .object [("kind", .string "boolean")]
  | .range min max =>
      .object [("kind", .string "integer_range"), ("min", .int min.toInt),
        ("max", .int max.toInt)]
  | .untyped => .object [("kind", .string "opaque")]

def Domain.ofJson? (json : Json) : Option Domain :=
  match json.kind? with
  | some ("boolean", content) => (content.record? []).map fun _ => .boolean
  | some ("integer_range", content) =>
      match content.record? ["min", "max"] with
      | some [min, max] =>
          match min.int64?, max.int64? with
          | some min, some max => some (.range min max)
          | _, _ => none
      | _ => none
  | some ("opaque", content) => (content.record? []).map fun _ => .untyped
  | _ => none

def Parameter.toJson (parameter : Parameter) : Json :=
  .object [("name", .string parameter.name), ("inferred_domain", parameter.domain.toJson)]

def Parameter.ofJson? (json : Json) : Option Parameter :=
  match json.record? ["name", "inferred_domain"] with
  | some [name, domain] =>
      match name.string?, Domain.ofJson? domain with
      | some name, some domain => some ⟨name, domain⟩
      | _, _ => none
  | _ => none

def Rule.toJson (rule : Rule) : Json :=
  .object [("condition", rule.condition.toJson), ("return_value", rule.result.toJson)]

def Rule.ofJson? (json : Json) : Option Rule :=
  match json.record? ["condition", "return_value"] with
  | some [condition, result] =>
      match Condition.ofJson? condition, Literal.ofJson? result with
      | some condition, some result => some ⟨condition, result⟩
      | _, _ => none
  | _ => none

def Model.toJson (model : Model) : Json :=
  .object [("function_name", .string model.functionName),
    ("parameters", .array (model.parameters.map Parameter.toJson)),
    ("rules", .array (model.rules.map Rule.toJson))]

def Model.ofJson? (json : Json) : Option Model :=
  match json.record? ["function_name", "parameters", "rules"] with
  | some [functionName, parameters, rules] =>
      match functionName.string?, parameters.list? Parameter.ofJson?, rules.list? Rule.ofJson? with
      | some functionName, some parameters, some rules => some ⟨functionName, parameters, rules⟩
      | _, _, _ => none
  | _ => none

end Rulebook
