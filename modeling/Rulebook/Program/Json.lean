import Rulebook.Json.Basic
import Rulebook.Program.Stmt

/-!
# Programs as JSON

A node is written with its span beside it. Alternatives with content are objects with one field
named for the alternative, those without content are strings.
-/

namespace Rulebook

open Json (tagged)

def Span.toJson (span : Span) : Json :=
  .object [("start", .nat span.start), ("end", .nat span.stop)]

/-- A node beside its span. -/
def spanned (node : Json) (span : Span) : Json :=
  .object [("node", node), ("span", span.toJson)]

def Connective.tag : Connective → String
  | .and => "And"
  | .or => "Or"

def Relation.tag : Relation → String
  | .lt => "Lt"
  | .gt => "Gt"
  | .le => "Le"
  | .ge => "Ge"
  | .eq => "Eq"
  | .ne => "Ne"
  | .isIn => "In"
  | .notIn => "NotIn"
  | .same => "Is"
  | .notSame => "IsNot"

def Relation.all : List Relation :=
  [.lt, .gt, .le, .ge, .eq, .ne, .isIn, .notIn, .same, .notSame]

def Relation.ofTag? (tag : String) : Option Relation :=
  Relation.all.find? fun relation => relation.tag = tag

def Arithmetic.tag : Arithmetic → String
  | .add => "Add"
  | .sub => "Sub"
  | .mul => "Mul"
  | .div => "Div"
  | .floorDiv => "FloorDiv"
  | .mod => "Mod"
  | .pow => "Pow"

def Sign.tag : Sign → String
  | .negative => "Neg"
  | .positive => "Pos"

def Assignment.tag : Assignment → String
  | .set => "Assign"
  | .add => "AddAssign"
  | .sub => "SubAssign"
  | .mul => "MulAssign"
  | .div => "DivAssign"

mutual

def Expr.toJson : Expr → Json
  | .name span text => spanned (tagged "Name" (.string text)) span
  | .int span value => spanned (tagged "Int" (.int value.toInt)) span
  | .float span value => spanned (tagged "Float" (.string value.hex)) span
  | .string span content => spanned (tagged "Str" (.string content)) span
  | .markedString span written => spanned (tagged "PrefixedStr" (.string written)) span
  | .bool span value => spanned (tagged "Bool" (.bool value)) span
  | .none span => spanned (.string "None") span
  | .connective span op left right =>
      spanned (tagged "BoolOp" (.object
        [("op", .string op.tag), ("left", left.toJson), ("right", right.toJson)])) span
  | .not span operand => spanned (tagged "Not" operand.toJson) span
  | .compare span left links =>
      spanned (tagged "Compare" (.object
        [("left", left.toJson), ("ops", .array (linksToJson links))])) span
  | .arithmetic span op left right =>
      spanned (tagged "Binary" (.object
        [("left", left.toJson), ("op", .string op.tag), ("right", right.toJson)])) span
  | .signed span sign operand =>
      spanned (tagged "Unary" (.object
        [("op", .string sign.tag), ("operand", operand.toJson)])) span
  | .call span function arguments =>
      spanned (tagged "Call" (.object
        [("func", function.toJson), ("args", .array (argumentsToJson arguments))])) span
  | .attribute span value field =>
      spanned (tagged "Attribute" (.object
        [("value", value.toJson), ("attr", .string field)])) span
  | .subscript span value index =>
      spanned (tagged "Subscript" (.object
        [("value", value.toJson), ("index", index.toJson)])) span
  | .tuple span items => spanned (tagged "Tuple" (.array (exprsToJson items))) span
  | .list span items => spanned (tagged "List" (.array (exprsToJson items))) span
  | .conditional span body test otherwise =>
      spanned (tagged "IfExp" (.object
        [("body", body.toJson), ("test", test.toJson), ("orelse", otherwise.toJson)])) span

def exprsToJson : List Expr → List Json
  | [] => []
  | expr :: rest => expr.toJson :: exprsToJson rest

def linksToJson : List (Relation × Expr) → List Json
  | [] => []
  | (relation, expr) :: rest =>
      .array [.string relation.tag, expr.toJson] :: linksToJson rest

def argumentToJson : Argument → Json
  | .positional value => tagged "Positional" value.toJson
  | .keyword name value =>
      tagged "Keyword" (.object [("name", .string name), ("value", value.toJson)])

def argumentsToJson : List Argument → List Json
  | [] => []
  | argument :: rest => argumentToJson argument :: argumentsToJson rest

end

def nameToJson (name : Located String) : Json := spanned (.string name.node) name.span

def Param.toJson (param : Param) : Json :=
  .object [("name", nameToJson param.name),
    ("annotation", Json.option Expr.toJson param.typeHint),
    ("default", Json.option Expr.toJson param.default)]

mutual

def Stmt.toJson : Stmt → Json
  | .function span name params returns body =>
      spanned (tagged "FunctionDef" (.object
        [("name", nameToJson name), ("params", .array (params.map Param.toJson)),
         ("returns", Json.option Expr.toJson returns), ("body", .array (stmtsToJson body)),
         ("span", span.toJson)])) span
  | .classDef span name bases body =>
      spanned (tagged "ClassDef" (.object
        [("name", nameToJson name), ("bases", .array (exprsToJson bases)),
         ("body", .array (stmtsToJson body))])) span
  | .choice span chain =>
      spanned (tagged "If" (.object
        [("branches", .array (branchesToJson chain)), ("orelse", otherwiseToJson chain)])) span
  | .returning span value => spanned (tagged "Return" (Json.option Expr.toJson value)) span
  | .pass span => spanned (.string "Pass") span
  | .breaking span => spanned (.string "Break") span
  | .continuing span => spanned (.string "Continue") span
  | .expr span value => spanned (tagged "Expr" value.toJson) span
  | .assign span target op value =>
      spanned (tagged "Assign" (.object
        [("target", target.toJson), ("op", .string op.tag), ("value", value.toJson)])) span
  | .forEach span targets iterable body =>
      spanned (tagged "For" (.object
        [("targets", .array (targets.map nameToJson)), ("iter", iterable.toJson),
         ("body", .array (stmtsToJson body))])) span
  | .whileLoop span condition body =>
      spanned (tagged "While" (.object
        [("cond", condition.toJson), ("body", .array (stmtsToJson body))])) span

def stmtsToJson : List Stmt → List Json
  | [] => []
  | stmt :: rest => stmt.toJson :: stmtsToJson rest

def branchesToJson : Chain → List Json
  | .branch condition body rest =>
      .object [("cond", condition.toJson), ("body", .array (stmtsToJson body))] ::
        branchesToJson rest
  | _ => []

def otherwiseToJson : Chain → Json
  | .done => .null
  | .otherwise body => .array (stmtsToJson body)
  | .branch _ _ rest => otherwiseToJson rest

end

end Rulebook
