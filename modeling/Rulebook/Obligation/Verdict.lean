import Rulebook.Obligation.Basic

/-!
# Verdicts

The outcome of checking an obligation, and what can keep a check from completing.
-/

namespace Rulebook

/-- Values of parameters under which the decision yields an invalid output. -/
structure Counterexample where
  values : TextMap Value
deriving DecidableEq, Repr

def Counterexample.text (counterexample : Counterexample) : String :=
  ", ".intercalate (counterexample.values.entries.map fun (name, value) =>
    name ++ " = " ++ value.text)

/-- Why a completed check gives no answer. -/
inductive Doubt where
  | infiniteDomain (name : String)
  | tooManyAssignments (limit : Nat)
  | evaluation (cause : EvalError)
  | solverUndecided
deriving DecidableEq, Repr

def Doubt.message : Doubt → String
  | .infiniteDomain name =>
      "`" ++ name ++
        "` has no finite domain; constrain it with a bounded range or a value set"
  | .tooManyAssignments limit => "more than " ++ toString limit ++ " assignments to enumerate"
  | .evaluation cause => "cannot evaluate decision: " ++ cause.message
  | .solverUndecided => "solver returned unknown"

inductive Verdict where
  | valid
  | invalid (counterexample : Counterexample)
  | unknown (doubt : Doubt)
deriving DecidableEq, Repr

/-- What ends a check from outside. -/
inductive Interruption where
  | timeout
  | cancelled
  /-- The time limit ends beyond what the clock can count. -/
  | beyondClock
deriving DecidableEq, Repr

def Interruption.message : Interruption → String
  | .timeout => "timeout"
  | .cancelled => "cancelled"
  | .beyondClock => "overflow when adding duration to instant"

/-- The limits of a check, a time in milliseconds among them. -/
structure Budget where
  timeout : Option Nat := none
  cancelled : Bool := false
deriving DecidableEq, Repr

/-- The first number of seconds that cannot be added to a clock that counts them in 64 bits with a
sign and is not at its start. -/
def clockEnd : Nat := 0x7FFFFFFFFFFFFFFE

/-- Whether the time limit ends beyond what the clock can count. -/
def Budget.outlastsClock (budget : Budget) : Bool :=
  budget.timeout.any fun milliseconds => clockEnd * 1000 ≤ milliseconds

/-- What ends the check as soon as the budget is looked at. Of the time limits only an empty one
has run out by then. -/
def Budget.interruption? (budget : Budget) : Option Interruption :=
  if budget.cancelled then some .cancelled
  else if budget.timeout = some 0 then some .timeout
  else none

end Rulebook
