import Rulebook.Analysis
import Rulebook.Cartesian
import Rulebook.CommandLine.Arguments
import Rulebook.CommandLine.Flag
import Rulebook.CommandLine.Run
import Rulebook.CommandLine.Usage
import Rulebook.CommandLine.Value
import Rulebook.Comparator
import Rulebook.Condition.Basic
import Rulebook.Condition.Eval
import Rulebook.Condition.Normal
import Rulebook.Condition.OfExpr
import Rulebook.Condition.Order
import Rulebook.Config
import Rulebook.Decision
import Rulebook.Distinct
import Rulebook.Json.Basic
import Rulebook.Json.Pretty
import Rulebook.Json.Read
import Rulebook.LookupTable
import Rulebook.Main
import Rulebook.Model.Basic
import Rulebook.Model.Build
import Rulebook.Model.Domain
import Rulebook.Model.Edit
import Rulebook.Model.Json
import Rulebook.Number.Binary64
import Rulebook.Number.Literal
import Rulebook.Obligation.Basic
import Rulebook.Obligation.Enumeration
import Rulebook.Obligation.Json
import Rulebook.Obligation.Verdict
import Rulebook.Pass
import Rulebook.Pass.Finding
import Rulebook.Pass.Merge
import Rulebook.Pass.Redundancy
import Rulebook.Pass.Simplify
import Rulebook.Program.Expr
import Rulebook.Program.Expression
import Rulebook.Program.Json
import Rulebook.Program.Parser
import Rulebook.Program.Stmt
import Rulebook.Proofs.Basic
import Rulebook.Proofs.Building
import Rulebook.Proofs.Combinations
import Rulebook.Proofs.Decimal
import Rulebook.Proofs.Distinct
import Rulebook.Proofs.Editing
import Rulebook.Proofs.Enumeration
import Rulebook.Proofs.Evaluation
import Rulebook.Proofs.Exhaustive
import Rulebook.Proofs.FirstMatch
import Rulebook.Proofs.Interpreter
import Rulebook.Proofs.Normalization
import Rulebook.Proofs.Obligation
import Rulebook.Proofs.Odometer
import Rulebook.Proofs.Samples
import Rulebook.Proofs.Sexp
import Rulebook.Proofs.Smt.Commands
import Rulebook.Proofs.Smt.Encoding
import Rulebook.Proofs.Smt.Rendering
import Rulebook.Proofs.Smt.Script
import Rulebook.Proofs.Smt.Semantics
import Rulebook.Proofs.Smt.Terms
import Rulebook.Proofs.Smt.Valuation
import Rulebook.Proofs.TextMap
import Rulebook.Sexp
import Rulebook.Smt.Encoding
import Rulebook.Smt.Reply
import Rulebook.Smt.Script
import Rulebook.SortedSet
import Rulebook.Source.Fault
import Rulebook.Source.Span
import Rulebook.Text.Blank
import Rulebook.Text.Integer
import Rulebook.Text.Order
import Rulebook.Text.Printable
import Rulebook.Text.Quoted
import Rulebook.Text.Split
import Rulebook.TextMap
import Rulebook.Token.Basic
import Rulebook.Token.Layout
import Rulebook.Token.Lexeme
import Rulebook.Toml.Basic
import Rulebook.Toml.Moment
import Rulebook.Toml.Read
import Rulebook.Value
import Rulebook.Verifier
import Rulebook.Proofs.LookupTable
import Rulebook.Proofs.Representative
import Rulebook.Proofs.Smt.Completion
import Rulebook.Proofs.Smt.Agreement
import Rulebook.Proofs.Grammar.Derivation
import Rulebook.Proofs.Grammar.ExpressionRun
import Rulebook.Proofs.Grammar.BracketRun
import Rulebook.Proofs.Grammar.StatementRun
import Rulebook.Proofs.Grammar.CompoundRun
import Rulebook.Proofs.Grammar.Pending
import Rulebook.Proofs.Grammar.Unfinished
import Rulebook.Proofs.Grammar.OpenStatement
import Rulebook.Proofs.Grammar.StatementStep
import Rulebook.Proofs.Grammar.Acceptance
import Rulebook.Proofs.Grammar.Continuation
import Rulebook.Proofs.Token.Cutting
import Rulebook.Proofs.Token.Emission
import Rulebook.Proofs.Token.Balance
import Rulebook.Proofs.Token.Lossless
import Rulebook.Proofs.Flatness
import Rulebook.Proofs.Grammar.Outline
import Rulebook.Proofs.Grammar.Nesting
import Rulebook.Proofs.Smt.Reply
import Rulebook.Proofs.Token.Writing
import Rulebook.Proofs.Token.Condition
import Rulebook.Proofs.ReadBack
import Rulebook.Proofs.Decision
import Rulebook.Proofs.Redundancy
import Rulebook.Proofs.Merging
import Rulebook.Proofs.SimplifiedTable
import Rulebook.Proofs.ModelJson
import Rulebook.Proofs.Order
import Rulebook.Proofs.NormalForm
import Rulebook.Proofs.Rearrangement
import Rulebook.Proofs.Filling
import Rulebook.Proofs.Remerging
import Rulebook.Proofs.EnumerationLimit
import Rulebook.Proofs.Smt.Answers
import Rulebook.Proofs.Occurrence
import Rulebook.Proofs.Smt.Scope
import Rulebook.Proofs.TotalTable
import Rulebook.Proofs.IntegerDomains
import Rulebook.Proofs.Outputs
import Rulebook.Proofs.Reachability
import Rulebook.Proofs.SexpText
import Rulebook.Proofs.Precedence
