import Rulebook.Cartesian
import Rulebook.Obligation.Verdict

/-!
# Checking by enumeration

An obligation over finite domains is checked on every admissible assignment, in lexicographic
order. One with an unbounded domain, or with too many assignments, is left undecided.
-/

namespace Rulebook

/-- The number of admissible values of a variable, if it is finite. -/
def Variable.size? (var : Variable) (constraint : Option Constraint) : Option Nat :=
  match var.sort, constraint with
  | .bool, _ => some 2
  | .int, some (.range (some min) (some max)) => some (max.toInt - min.toInt + 1).toNat
  | .int, some (.oneOf values) => some values.length
  | .int, _ => none

/-- The admissible values of a variable that has finitely many. -/
def Variable.admissible (var : Variable) (constraint : Option Constraint) : List Value :=
  match var.sort, constraint with
  | .bool, _ => [.bool false, .bool true]
  | .int, some (.range (some min) (some max)) => (integersBetween min max).map .int
  | .int, some (.oneOf values) => values.map .int
  | .int, _ => []

namespace Obligation

/-- The admissible values of each variable, `total` being the number of assignments to those
before. Values are listed only while the number stays within the limit. -/
def domainsFrom (constraints : TextMap Constraint) (limit total : Nat) :
    List Variable → Except Doubt (List (List Value))
  | [] => .ok []
  | var :: rest =>
      let constraint := constraints.get? var.name
      match var.size? constraint with
      | none => .error (.infiniteDomain var.name)
      | some size =>
          if limit < total * size then .error (.tooManyAssignments limit)
          else
            (domainsFrom constraints limit (total * size) rest).map
              (var.admissible constraint :: ·)

def domains (obligation : Obligation) (limit : Nat) : Except Doubt (List (List Value)) :=
  domainsFrom obligation.constraints limit 1 obligation.unknowns

def env (obligation : Obligation) (values : List Value) : Env :=
  .ofList ((obligation.unknowns.map Variable.name).zip values)

/-- The values of the parameters among the values of all unknowns. -/
def counterexample (obligation : Obligation) (values : List Value) : Counterexample :=
  ⟨.ofList ((obligation.unknowns.zip values).filterMap fun (var, value) =>
    if var.isParameter then some (var.name, value) else none)⟩

/-- What an assignment says against the obligation. -/
def objection? (obligation : Obligation) (values : List Value) : Option Verdict :=
  match obligation.decision.eval (obligation.env values) with
  | .ok output =>
      if obligation.isValidOutput output then none
      else some (.invalid (obligation.counterexample values))
  | .error cause => some (.unknown (.evaluation cause))

/-- How many assignments are checked before the budget is looked at. -/
def checkInterval : Nat := 1024

/-- Checks the obligation on every assignment, of which there may be `limit`. The clock is only
started if there is an assignment. -/
def enumerate (obligation : Obligation) (limit : Nat) (budget : Budget) :
    Except Interruption Verdict :=
  match obligation.domains limit with
  | .error doubt => .ok (.unknown doubt)
  | .ok domains =>
      if budget.outlastsClock ∧ ¬ domains.any List.isEmpty then .error .beyondClock
      else
        match budget.interruption? with
        | none => .ok ((findCombination obligation.objection? domains).getD .valid)
        | some interruption =>
            let assignments := combinations domains
            match (assignments.take checkInterval).findSome? obligation.objection? with
            | some verdict => .ok verdict
            | none =>
                if checkInterval < assignments.length then .error interruption else .ok .valid

end Obligation

/-- The limit on assignments where none is given. -/
def defaultEnumerationLimit : Nat := 1000000

end Rulebook
