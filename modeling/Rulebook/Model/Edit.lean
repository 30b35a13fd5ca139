import Rulebook.Model.Domain

/-!
# Editing models

Changes to the rules of a model by index. A change that names a rule which is not there fails.
-/

namespace Rulebook.Model

/-- Changes the rule at an index. -/
def modifyRule? (model : Model) (index : Nat) (change : Rule → Rule) : Option Model :=
  if index < model.rules.length then
    some (model.withRules (model.rules.modify index change))
  else none

/-- The rules at the given indices, in this order. -/
def keep? (model : Model) (indices : List Nat) : Option Model :=
  (indices.mapM fun index => model.rules[index]?).map model.withRules

/-- Removes a rule, and gives it back. -/
def drop? (model : Model) (index : Nat) : Option (Rule × Model) :=
  model.rules[index]?.map fun rule => (rule, model.withRules (model.rules.eraseIdx index))

def add (model : Model) (rule : Rule) : Model := model.withRules (model.rules ++ [rule])

def setResult? (model : Model) (index : Nat) (result : Literal) : Option Model :=
  model.modifyRule? index fun rule => { rule with result }

def negate? (model : Model) (index : Nat) : Option Model :=
  model.modifyRule? index fun rule => { rule with condition := .not rule.condition }

/-- Adds a condition that has to hold as well. -/
def guard? (model : Model) (index : Nat) (condition : Condition) : Option Model :=
  model.modifyRule? index fun rule =>
    { rule with condition := .join .and [condition, rule.condition] }

/-- Infers the domain of every parameter anew from how the conditions use its name. -/
def reinfer (model : Model) : Model :=
  { model with
    parameters := model.parameters.map fun parameter =>
      { parameter with domain := .infer parameter.name none none model.conditions } }

end Rulebook.Model
