import Rulebook.Condition.OfExpr
import Rulebook.Model.Domain
import Rulebook.Program.Parser

/-!
# Models of functions

The rules of a function follow its returns. Each is guarded by the conditions of the branches that
lead to it and by the negations of those before them, so that the first matching rule is the
return that the function reaches.
-/

namespace Rulebook

/-- Why a source text has no model. -/
inductive BuildError where
  | source (fault : Located SourceFault)
  /-- No function of the wanted name, or none at all. -/
  | notFound (name : Option String)
  | ambiguous (candidates : List String)
  /-- A path through the function ends without a return. -/
  | fallThrough (function : String) (span : Span)

namespace BuildError

def message : BuildError → String
  | .source fault => "parse error at " ++ fault.span.text ++ ": " ++ fault.node.message
  | .notFound (some name) => "function `" ++ name ++ "` not found"
  | .notFound none => "no function definition found"
  | .ambiguous candidates =>
      "ambiguous target: " ++ toString candidates.length ++ " functions found (" ++
        ", ".intercalate candidates ++ "); pass a function name"
  | .fallThrough function span =>
      "function `" ++ function ++ "` has a path at " ++ span.text ++
        " that falls through without returning"

/-- The kind of error as a headline names it. -/
def title : BuildError → String
  | .source _ => "Parse error"
  | .notFound _ => "Not found error"
  | .ambiguous _ => "Ambiguous target error"
  | .fallThrough _ _ => "Fall-through error"

end BuildError

/-- The rules of a block, and whether every path through it returns. -/
structure Walk where
  rules : List Rule
  returns : Bool

/-- What a return gives back; without a value it is `None`. -/
def returnedLiteral (source : String) : Option Expr → Literal
  | none => .value .none
  | some expr => expr.literal source

mutual

def walkBlock (source : String) (guards : List Condition) : List Stmt → Walk
  | [] => ⟨[], false⟩
  | stmt :: rest =>
      let first := walkStmt source guards stmt
      if first.returns then first
      else
        let others := walkBlock source guards rest
        ⟨first.rules ++ others.rules, others.returns⟩

def walkStmt (source : String) (guards : List Condition) : Stmt → Walk
  | .returning _ value => ⟨[⟨.join .and guards, returnedLiteral source value⟩], true⟩
  | .choice _ chain => walkChain source guards chain
  | _ => ⟨[], false⟩

/-- The branches of a choice; the guards grow by the negation of each condition passed. -/
def walkChain (source : String) (guards : List Condition) : Chain → Walk
  | .done => ⟨[], false⟩
  | .otherwise body => walkBlock source guards body
  | .branch test body rest =>
      let condition := Condition.ofExpr source test
      let taken := walkBlock source (guards ++ [condition]) body
      let others := walkChain source (guards ++ [.not condition]) rest
      ⟨taken.rules ++ others.rules, taken.returns && others.returns⟩

end

/-- The function of the given name, or the only one. -/
def Program.locate (program : Program) (target : Option String) : Except BuildError Function :=
  match target with
  | some name =>
      match program.functions.find? fun function => function.name.node = name with
      | some function => .ok function
      | none => .error (.notFound name)
  | none =>
      match program.functions with
      | [] => .error (.notFound none)
      | [function] => .ok function
      | functions => .error (.ambiguous (functions.map fun function => function.name.node))

/-- The parameters of a function without a leading receiver. -/
def Function.signature (function : Function) : List Param :=
  match function.params with
  | [] => []
  | first :: rest =>
      if first.name.node = "self" ∨ first.name.node = "cls" then rest else first :: rest

/-- A type that is given by a single name. -/
def Param.typeName? (param : Param) : Option String :=
  match param.typeHint with
  | some (.name _ text) => some text
  | _ => none

def Param.parameter (conditions : List Condition) (param : Param) : Parameter :=
  ⟨param.name.node,
    .infer param.name.node param.typeName? (param.default.bind Expr.constant?) conditions⟩

namespace Model

/-- The model of a function. A strict build refuses a function with a path that does not
return. -/
def ofFunction (source : String) (strict : Bool) (function : Function) :
    Except BuildError Model :=
  let walk := walkBlock source [] function.body
  if strict ∧ ¬ walk.returns then .error (.fallThrough function.name.node function.span)
  else
    let conditions := walk.rules.map Rule.condition
    .ok ⟨function.name.node, function.signature.map (Param.parameter conditions), walk.rules⟩

/-- The model of the target function of a program, whose source text is given as well. -/
def ofProgram (source : String) (program : Program) (target : Option String) (strict : Bool) :
    Except BuildError Model :=
  match program.locate target with
  | .ok function => ofFunction source strict function
  | .error error => .error error

/-- The model of the target function of a source text. -/
def ofSource (source : String) (target : Option String) (strict : Bool) :
    Except BuildError Model :=
  match Program.ofSource source with
  | .ok program => ofProgram source program target strict
  | .error fault => .error (.source fault)

end Model

end Rulebook
