import Rulebook.Text.Integer

/-!
# JSON values

JSON as the library reads and writes it. Numbers are integers or have a fixed number of decimal
places, and the fields of an object keep the order in which they were given.
-/

namespace Rulebook

inductive Json where
  | null
  | bool (value : Bool)
  | int (value : Int)
  /-- A number that is written with decimal places: the digits as an integer, and how many of them
  stand after the point. -/
  | decimal (digits : Int) (places : Nat)
  | string (value : String)
  | array (items : List Json)
  | object (fields : List (String × Json))
deriving Inhabited

namespace Json

def nat (value : Nat) : Json := .int value

def strings (values : List String) : Json := .array (values.map .string)

def option {α : Type} (encode : α → Json) : Option α → Json
  | none => .null
  | some value => encode value

/-- An object with one field, as tagged alternatives are written. -/
def tagged (tag : String) (content : Json) : Json := .object [(tag, content)]

/-- The field of an object; the last one counts if there are several. -/
def field? (name : String) : Json → Option Json
  | .object fields => (fields.reverse.find? fun field => field.1 = name).map (·.2)
  | _ => none

/-- A field that may be missing; null counts as missing. -/
def present? (name : String) (json : Json) : Option Json :=
  match json.field? name with
  | some .null => none
  | found => found

/-- The tag and content of an alternative: an object with exactly one field. -/
def alternative? : Json → Option (String × Json)
  | .object [field] => some field
  | _ => none

/-- The fields of a record in the order of their names. A record is written as an object, or as
the list of all its fields. -/
def record? (names : List String) : Json → Option (List Json)
  | .array items => if items.length = names.length then some items else none
  | .object fields => names.mapM fun name => (Json.object fields).field? name
  | _ => none

/-- The fields of a record that may leave out some of them when it is an object. -/
def paddedRecord? (names : List String) : Json → Option (List Json)
  | .array items => if items.length = names.length then some items else none
  | .object fields => some (names.map fun name => ((Json.object fields).field? name).getD .null)
  | _ => none

/-- The kind of a value and the record of its other fields. The kind is named in a field of an
object, or first in a list. -/
def kind? : Json → Option (String × Json)
  | .array (.string kind :: rest) => some (kind, .array rest)
  | .object fields =>
      match (Json.object fields).field? "kind" with
      | some (.string kind) => some (kind, .object fields)
      | _ => none
  | _ => none

/-- A name that stands for itself. It may also be the only field of an object, over null. -/
def name? : Json → Option String
  | .string name => some name
  | .object [(name, .null)] => some name
  | _ => none

def bool? : Json → Option Bool
  | .bool value => some value
  | _ => none

def string? : Json → Option String
  | .string value => some value
  | _ => none

def int64? : Json → Option Int64
  | .int value => Text.int64? value
  | _ => none

/-- An unsigned 64-bit number. -/
def word64? : Json → Option Nat
  | .int (.ofNat value) => if value ≤ Text.word64Max then some value else none
  | _ => none

def array? : Json → Option (List Json)
  | .array items => some items
  | _ => none

/-- A list all of whose items can be read. -/
def list? {α : Type} (decode : Json → Option α) (json : Json) : Option (List α) :=
  json.array?.bind fun items => items.mapM decode

end Json

end Rulebook
