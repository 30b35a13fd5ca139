import Rulebook.Obligation.Verdict
import Rulebook.Smt.Encoding
import Rulebook.Text.Integer
import Rulebook.Text.Split

/-!
# Replies of a solver

A solver replies with a line that gives its verdict and, where the assertions can be satisfied,
with the values that were asked for.
-/

namespace Rulebook.Smt

/-- Why a reply cannot be understood. -/
inductive ReplyError where
  | noVerdict
  | unreadable (cause : Sexp.ReadError)
  | unexpectedItem (item : Sexp)
  | unexpectedEntry (entry : Sexp)
  /-- A list that is not a symbol with its value. -/
  | unexpectedPair (items : List Sexp)
  | notBoolean (found : String)
  | badInteger (found : String) (cause : Text.IntegerError)
  | unsupportedInteger (items : List Sexp)
  | unsupportedValue (value : Sexp)

def ReplyError.message : ReplyError → String
  | .noVerdict => "no check-sat verdict in solver output"
  | .unreadable cause => cause.message
  | .unexpectedItem item => "unexpected model item " ++ item.structureText
  | .unexpectedEntry entry => "unexpected model entry " ++ entry.structureText
  | .unexpectedPair items => "unexpected model entry " ++ Sexp.itemsText items
  | .notBoolean found => "expected boolean, found `" ++ found ++ "`"
  | .badInteger found cause => "bad integer `" ++ found ++ "`: " ++ cause.message
  | .unsupportedInteger items => "unsupported integer term " ++ Sexp.itemsText items
  | .unsupportedValue value => "unsupported model value " ++ value.structureText

/-- Why a solver program cannot even be looked for. -/
inductive LaunchFault where
  | nulInPath
  | nameTooLong
deriving DecidableEq, Repr

def LaunchFault.message : LaunchFault → String
  | .nulInPath => "nul byte found in provided data"
  | .nameTooLong => "File name too long (os error 36)"

/-- Why checking with a solver fails. -/
inductive SolverError where
  | unavailable (path : String)
  | launch (fault : LaunchFault)
  | crashed (status : Nat) (detail : String)
  | rejected (line : String)
  | malformed (cause : ReplyError)
  | interrupted (interruption : Interruption)
  | encoding (cause : EncodeError)

def SolverError.message : SolverError → String
  | .unavailable path => "solver `" ++ path ++ "` is not available"
  | .launch fault => "solver I/O failed: " ++ fault.message
  | .crashed status detail =>
      "solver exited abnormally: exit status: " ++ toString status ++ ": " ++ detail
  | .rejected line => "solver rejected the query: " ++ line
  | .malformed cause => "malformed solver output: " ++ cause.message
  | .interrupted interruption => interruption.message
  | .encoding cause => cause.message

def readInteger (text : String) : Except ReplyError Int64 :=
  match Text.readInt64 text with
  | .ok value => .ok value
  | .error cause => .error (.badInteger text cause)

/-- The value of a term of the given sort. A number may be the negation of another. The negation
wraps around: the least word has no opposite among the words and stands for itself. -/
def readValue (sort : ValueSort) (term : Sexp) : Except ReplyError Value :=
  match term, sort with
  | .atom text, .bool =>
      if text = "true" then .ok (.bool true)
      else if text = "false" then .ok (.bool false)
      else .error (.notBoolean text)
  | .atom text, .int => (readInteger text).map .int
  | .list [.atom mark, .atom text], .int =>
      if mark = "-" then (readInteger text).map fun value => .int (-value)
      else .error (.unsupportedInteger [.atom mark, .atom text])
  | .list items, .int => .error (.unsupportedInteger items)
  | .list items, .bool => .error (.unsupportedValue (.list items))

/-- Adds the value of a symbol to those already read. Symbols that were not asked for are passed
over. -/
def readEntry (symbols : TextMap (String × ValueSort)) (values : TextMap Value) (entry : Sexp) :
    Except ReplyError (TextMap Value) :=
  match entry with
  | .list [.atom symbol, term] =>
      match symbols.get? symbol with
      | none => .ok values
      | some (name, sort) => (readValue sort term).map fun value => values.insert name value
  | .list items => .error (.unexpectedPair items)
  | .atom text => .error (.unexpectedEntry (.atom text))

def readEntries (symbols : TextMap (String × ValueSort)) (values : TextMap Value) :
    List Sexp → Except ReplyError (TextMap Value)
  | [] => .ok values
  | entry :: rest =>
      match readEntry symbols values entry with
      | .error error => .error error
      | .ok values => readEntries symbols values rest

def readItems (symbols : TextMap (String × ValueSort)) (values : TextMap Value) :
    List Sexp → Except ReplyError (TextMap Value)
  | [] => .ok values
  | .list entries :: rest =>
      match readEntries symbols values entries with
      | .error error => .error error
      | .ok values => readItems symbols values rest
  | item :: _ => .error (.unexpectedItem item)

/-- The values of parameters that a text of s-expressions gives. -/
def readModel (symbols : TextMap (String × ValueSort)) (text : String) :
    Except ReplyError (TextMap Value) :=
  match Sexp.read text with
  | .error cause => .error (.unreadable cause)
  | .ok items => readItems symbols {} items

/-- The lines of a text that are not blank, trimmed. -/
def contentLines (text : String) : List String :=
  ((Text.splitEvery '\n' text.toList).map Text.trimChars).filterMap fun line =>
    if line.isEmpty then none else some (String.ofList line)

/-- The verdict of a reply, given by its lines. Lines before the verdict mean nothing, unless they
report an error. -/
def readLines (encoding : Encoding) : List String → Except SolverError Verdict
  | [] => .error (.malformed .noVerdict)
  | line :: rest =>
      if line = "unsat" then .ok .valid
      else if line = "unknown" then .ok (.unknown .solverUndecided)
      else if line = "timeout" then .error (.interrupted .timeout)
      else if line = "sat" then
        match readModel encoding.symbols ("\n".intercalate rest) with
        | .ok values => .ok (.invalid ⟨values⟩)
        | .error cause => .error (.malformed cause)
      else if "(error".toList.isPrefixOf line.toList then .error (.rejected line)
      else readLines encoding rest

def readReply (encoding : Encoding) (output : String) : Except SolverError Verdict :=
  readLines encoding (contentLines output)

/-- How a run of a solver program went. -/
inductive SolverRun where
  | missing
  | failed (fault : LaunchFault)
  | hanging
  | finished (output errors : String) (status : Nat)

/-- The bytes that a path and the first name in it may have. -/
def longestPath : Nat := 4095
def longestName : Nat := 255

/-- The run of a program that is not there. -/
def SolverRun.absent (path : String) : SolverRun :=
  let chars := path.toList
  let first := (chars.dropWhile (· == '/')).takeWhile (· != '/')
  if chars.contains '\x00' then .failed .nulInPath
  else if longestPath < path.utf8ByteSize ∨ longestName < (String.ofList first).utf8ByteSize then
    .failed .nameTooLong
  else .missing

/-- Checks an obligation by the reply of a solver program. A program that has been started is not
waited for when the check is cancelled. A reply without sense from a run that did not end well
counts as a crash. -/
def check (path : String) (run : SolverRun) (obligation : Obligation) (budget : Budget) :
    Except SolverError Verdict :=
  match encode obligation budget.timeout with
  | .error cause => .error (.encoding cause)
  | .ok encoding =>
      match run with
      | .missing => .error (.unavailable path)
      | .failed fault => .error (.launch fault)
      | .hanging => .error (.interrupted (if budget.cancelled then .cancelled else .timeout))
      | .finished output errors status =>
          if budget.cancelled then .error (.interrupted .cancelled)
          else
            match readReply encoding output with
            | .error (.malformed cause) =>
                if status = 0 then .error (.malformed cause)
                else
                  let errors := Text.trim errors
                  .error (.crashed status (if errors = "" then Text.trim output else errors))
            | reply => reply

end Rulebook.Smt
