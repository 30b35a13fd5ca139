import Rulebook.Config
import Rulebook.Obligation.Json
import Rulebook.Smt.Reply

/-!
# Verification

A model is verified by checking its obligation. Whatever keeps the check from an answer is
reported as such.
-/

namespace Rulebook

/-- Why a model is neither proved nor disproved. -/
inductive Obstacle where
  | obligation (cause : ObligationError)
  | doubt (cause : Doubt)
  | solver (cause : Smt.SolverError)

def Obstacle.message : Obstacle → String
  | .obligation cause => cause.message
  | .doubt cause => cause.message
  | .solver cause => cause.message

inductive ProofResult where
  | proved
  | disproved (counterexample : Counterexample)
  | unknown (obstacle : Obstacle)

namespace ProofResult

def isProved : ProofResult → Bool
  | .proved => true
  | _ => false

def text : ProofResult → String
  | .proved => "proved"
  | .disproved counterexample => "disproved: " ++ counterexample.text
  | .unknown obstacle => "unknown: " ++ obstacle.message

def ofVerdict : Verdict → ProofResult
  | .valid => .proved
  | .invalid counterexample => .disproved counterexample
  | .unknown doubt => .unknown (.doubt doubt)

end ProofResult

/-- How obligations are checked. -/
inductive Solver where
  | z3 (path : String)
  | enumeration (limit : Nat)
deriving DecidableEq, Repr

structure Verifier where
  solver : Solver := .z3 "z3"
  /-- The time limit in milliseconds. -/
  timeout : Option Nat := some 10000
deriving DecidableEq, Repr

def Solver.name : Solver → String
  | .z3 _ => Backend.z3.name
  | .enumeration _ => Backend.enumerate.name

/-- Checks an obligation. No process of an external solver is there to answer. -/
def Solver.check (solver : Solver) (obligation : Obligation) (budget : Budget) :
    Except Smt.SolverError Verdict :=
  match solver with
  | .z3 path => Smt.check path (.absent path) obligation budget
  | .enumeration limit =>
      match obligation.enumerate limit budget with
      | .ok verdict => .ok verdict
      | .error interruption => .error (.interrupted interruption)

namespace Verifier

def ofConfig (config : Config) : Verifier where
  solver := match config.backend with
    | .z3 => .z3 config.solverPath
    | .enumerate => .enumeration config.enumerationLimit
  timeout := config.timeout?

/-- Verifies that a model yields a valid output wherever the constraints are met. -/
def verify (verifier : Verifier) (model : Model) (constraints : TextMap Constraint)
    (valid : List Literal) (cancelled : Bool) : ProofResult :=
  match model.obligation constraints valid with
  | .error cause => .unknown (.obligation cause)
  | .ok obligation =>
      if cancelled then .unknown (.solver (.interrupted .cancelled))
      else
        match verifier.solver.check obligation ⟨verifier.timeout, cancelled⟩ with
        | .ok verdict => .ofVerdict verdict
        | .error cause => .unknown (.solver cause)

end Verifier

inductive ScriptError where
  | obligation (cause : ObligationError)
  | encoding (cause : Smt.EncodeError)
deriving DecidableEq, Repr

def ScriptError.message : ScriptError → String
  | .obligation cause => cause.message
  | .encoding cause => cause.message

/-- The script that a solver would be given. -/
def Model.smtScript (model : Model) (constraints : TextMap Constraint) (valid : List Literal)
    (timeout : Option Nat) : Except ScriptError String :=
  match model.obligation constraints valid with
  | .error cause => .error (.obligation cause)
  | .ok obligation =>
      match Smt.encode obligation timeout with
      | .error cause => .error (.encoding cause)
      | .ok encoding => .ok encoding.script.text

def ProofResult.toJson : ProofResult → Json
  | .proved => .object [("status", .string "proved")]
  | .disproved counterexample =>
      .object [("status", .string "disproved"), ("counterexample", counterexample.toJson)]
  | .unknown obstacle =>
      .object [("status", .string "unknown"), ("reason", .string obstacle.message)]

end Rulebook
