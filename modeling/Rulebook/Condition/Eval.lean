import Rulebook.Condition.Basic

/-!
# Evaluating conditions

A condition is evaluated against bindings of names to values. The result is a truth value, or the
reason why there is none; the evaluator never guesses.
-/

namespace Rulebook

/-- Bindings of names, the latest first. -/
structure Env where
  bindings : List (String × Value) := []
deriving DecidableEq, Repr

namespace Env

def bind (env : Env) (name : String) (value : Value) : Env := ⟨(name, value) :: env.bindings⟩

/-- Bindings given in order, a later one hiding an earlier one of the same name. -/
def ofList (pairs : List (String × Value)) : Env := ⟨pairs.reverse⟩

def get? (env : Env) (name : String) : Option Value := env.bindings.lookup name

end Env

/-- Why a condition has no truth value. -/
inductive EvalError where
  | unbound (name : String)
  | incomparable (left : Value) (op : Comparator) (right : Value)
  /-- The condition is kept as text. -/
  | unevaluable (text : String)
deriving DecidableEq, Repr

def EvalError.message : EvalError → String
  | .unbound name => "name `" ++ name ++ "` is not bound"
  | .incomparable left op right =>
      "cannot order " ++ left.text ++ " (" ++ left.kind ++ ") and " ++ right.text ++ " (" ++
        right.kind ++ ") with `" ++ op.symbol ++ "`"
  | .unevaluable text => "cannot evaluate opaque condition `" ++ text ++ "`"

/-- Numbers are compared as numbers, truth values counting as numbers, and texts as texts. Values
of other kinds are equal or not, but cannot be ordered. -/
def Value.related (left : Value) (op : Comparator) (right : Value) : Except EvalError Bool :=
  match left.asInt?, right.asInt? with
  | some a, some b => .ok (op.holds (Ord.compare a.toInt b.toInt))
  | _, _ =>
      match left, right with
      | .string a, .string b => .ok (op.holds (Text.compareText a b))
      | _, _ =>
          match op with
          | .eq => .ok (left = right)
          | .ne => .ok (left ≠ right)
          | _ => .error (.incomparable left op right)

/-- The result of a junction from the results of its parts. A decisive part settles it wherever it
stands; if there is none, the first error counts. -/
def Junction.settle (kind : Junction) :
    List (Except EvalError Bool) → Except EvalError Bool
  | [] => .ok kind.unit
  | .ok value :: rest => if value = kind.decisive then .ok value else settle kind rest
  | .error error :: rest =>
      match settle kind rest with
      | .ok value => if value = kind.decisive then .ok value else .error error
      | .error _ => .error error

@[simp]
theorem Junction.settle_ok_decisive
    (kind : Junction) (rest : List (Except EvalError Bool)) :
    kind.settle (.ok kind.decisive :: rest) = .ok kind.decisive := by
  rw [settle, if_pos rfl]

namespace Env

/-- The value bound to a name. -/
def lookup (env : Env) (name : String) : Except EvalError Value :=
  match env.get? name with
  | some value => .ok value
  | none => .error (.unbound name)

end Env

namespace Condition

mutual

def eval (env : Env) : Condition → Except EvalError Bool
  | .literal value => .ok value
  | .var name => (env.lookup name).map Value.truthy
  | .comparison name op constant =>
      match env.lookup name with
      | .ok value => value.related op constant
      | .error error => .error error
  | .junction kind parts => kind.settle (evalParts env parts)
  | .not operand => (eval env operand).map (!·)
  | .verbatim text => .error (.unevaluable text)

def evalParts (env : Env) : List Condition → List (Except EvalError Bool)
  | [] => []
  | part :: rest => eval env part :: evalParts env rest

end

private theorem evalParts_eq_map (env : Env) (parts : List Condition) :
    evalParts env parts = parts.map (eval env) := by
  induction parts with
  | nil => rfl
  | cons part rest inductionHypothesis =>
      rw [evalParts, inductionHypothesis, List.map_cons]

@[simp]
theorem eval_junction (env : Env) (kind : Junction) (parts : List Condition) :
    eval env (.junction kind parts) = kind.settle (parts.map (eval env)) := by
  rw [eval, evalParts_eq_map]

end Condition

end Rulebook
