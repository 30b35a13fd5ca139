import Rulebook.Program.Parser
import Rulebook.Proofs.Grammar.Derivation

/-!
# Runs of the reader

Reading is a sequence of steps, one for each token, that may stop at any token. This module says
what it means that tokens lead from one state to another, for expressions and for programs, and
how runs are put together from shorter ones.
-/

namespace Rulebook

open Grammar

section Runs

variable {σ α : Type} {step : σ → Located Token → Option σ}

/-- The tokens are all taken, and lead from the first state to the second. -/
def Leads (step : σ → Located Token → Option σ) (start : σ) (tokens : Tokens) (finish : σ) :
    Prop :=
  tokens.foldlM step start = some finish

namespace Leads

@[simp]
theorem nil (state : σ) : Leads step state [] state := rfl

theorem cons {start middle finish : σ} {token : Located Token} {tokens : Tokens}
    (first : step start token = some middle) (rest : Leads step middle tokens finish) :
    Leads step start (token :: tokens) finish := by
  rw [Leads, List.foldlM_cons, first]
  exact rest

theorem single {start finish : σ} {token : Located Token}
    (taken : step start token = some finish) : Leads step start [token] finish :=
  cons taken (nil finish)

theorem append {start middle finish : σ} {front back : Tokens}
    (first : Leads step start front middle) (second : Leads step middle back finish) :
    Leads step start (front ++ back) finish := by
  rw [Leads, List.foldlM_append, first]
  exact second

theorem of_cons {start finish : σ} {token : Located Token} {tokens : Tokens}
    (run : Leads step start (token :: tokens) finish) :
    ∃ middle, step start token = some middle ∧ Leads step middle tokens finish := by
  rw [Leads, List.foldlM_cons] at run
  exact Option.bind_eq_some_iff.mp run

theorem of_append {start finish : σ} {front back : Tokens}
    (run : Leads step start (front ++ back) finish) :
    ∃ middle, Leads step start front middle ∧ Leads step middle back finish := by
  rw [Leads, List.foldlM_append] at run
  exact Option.bind_eq_some_iff.mp run

end Leads

/-- Every token that the second state takes is taken by the first one with the same result. -/
def Resumes (step : σ → Located Token → Option σ) (state other : σ) : Prop :=
  ∀ token next, step other token = some next → step state token = some next

@[simp]
theorem Resumes.refl (state : σ) : Resumes step state state := by
  intro token next taken
  exact taken

/-- A state that another one resumes takes the same tokens, if there are any. -/
theorem Resumes.leads {state other finish : σ} {tokens : Tokens}
    (resumes : Resumes step state other) (nonempty : tokens ≠ [])
    (run : Leads step other tokens finish) : Leads step state tokens finish := by
  cases tokens with
  | nil => exact absurd rfl nonempty
  | cons token rest =>
      obtain ⟨middle, first, rest⟩ := run.of_cons
      exact .cons (resumes token middle first) rest

/-- Tokens cut into stretches, each with a value that a relation gives it. -/
inductive Sequence (relation : Tokens → α → Prop) : Tokens → List α → Prop
  | nil : Sequence relation [] []
  | snoc {front back : Tokens} {values : List α} {value : α} :
      Sequence relation front values →
      relation back value →
      Sequence relation (front ++ back) (values ++ [value])

/-- If each stretch adds its value to what a state has collected, then all of them do. -/
theorem Sequence.leads {relation : Tokens → α → Prop} {state : List α → σ}
    (each : ∀ collected tokens value, relation tokens value →
      Leads step (state collected) tokens (state (collected ++ [value])))
    {tokens : Tokens} {values : List α} (sequence : Sequence relation tokens values)
    (collected : List α) :
    Leads step (state collected) tokens (state (collected ++ values)) := by
  induction sequence with
  | nil =>
      rw [List.append_nil]
      exact .nil _
  | snoc _ last inductionHypothesis =>
      rw [← List.append_assoc]
      exact inductionHypothesis.append (each _ _ _ last)

/-- A stretch that may be missing. -/
def Optional (relation : Tokens → α → Prop) (tokens : Tokens) : Option α → Prop
  | none => tokens = []
  | some value => relation tokens value

/-- A stretch and a mark that follows it. -/
def Followed (relation : Tokens → α → Prop) (mark : Token) (tokens : Tokens) (value : α) : Prop :=
  ∃ front span, tokens = front ++ [⟨mark, span⟩] ∧ relation front value

/-- A mark and a stretch that follows it. -/
def Preceded (mark : Token) (relation : Tokens → α → Prop) (tokens : Tokens) (value : α) : Prop :=
  ∃ span back, tokens = ⟨mark, span⟩ :: back ∧ relation back value

/-- Stretches with commas between them, and perhaps a comma at the end. -/
def Listed (relation : Tokens → α → Prop) (tokens : Tokens) (values : List α) : Prop :=
  ∃ front back collected last,
    tokens = front ++ back ∧ values = collected ++ last.toList ∧
      Sequence (Followed relation (.symbol .comma)) front collected ∧ Optional relation back last

/-- A list is read up to its closing token if a comma after an item leads to the next item and
the closing token is taken after an item as well as in place of one. -/
theorem Listed.leads {relation : Tokens → α → Prop} {tokens : Tokens} {values : List α}
    (listed : Listed relation tokens values) (state finish : List α → σ)
    {closing : Located Token}
    (next : ∀ collected tokens value span, relation tokens value →
      Leads step (state collected) (tokens ++ [⟨.symbol .comma, span⟩])
        (state (collected ++ [value])))
    (last : ∀ collected tokens value, relation tokens value →
      Leads step (state collected) (tokens ++ [closing]) (finish (collected ++ [value])))
    (empty : ∀ collected, step (state collected) closing = some (finish collected))
    (collected : List α) :
    Leads step (state collected) (tokens ++ [closing]) (finish (collected ++ values)) := by
  obtain ⟨front, back, items, final, rfl, rfl, sequence, optional⟩ := listed
  have each : ∀ soFar stretch value, Followed relation (.symbol .comma) stretch value →
      Leads step (state soFar) stretch (state (soFar ++ [value])) := by
    rintro soFar _ value ⟨stretch, span, rfl, related⟩
    exact next soFar stretch value span related
  rw [List.append_assoc]
  refine (sequence.leads each collected).append ?_
  cases final with
  | none =>
      cases optional
      rw [Option.toList_none, List.append_nil]
      exact .single (empty _)
  | some value =>
      rw [Option.toList_some, ← List.append_assoc]
      exact last _ _ _ optional

end Runs

namespace Expression

/-- One token that belongs to the expression. -/
def advance (expression : Expression) (token : Located Token) : Option Expression :=
  match expression.feed token with
  | some (.more next) => some next
  | _ => none

/-- A token belongs to the expression if the expression goes on after it. -/
theorem advance_eq_some_iff {expression next : Expression} {token : Located Token} :
    expression.advance token = some next ↔ expression.feed token = some (.more next) := by
  rw [advance]
  split
  · rename_i further fed
    rw [fed]
    simp
  · rename_i noMore
    constructor
    · intro impossible
      cases impossible
    · intro fed
      exact absurd fed (noMore next)

end Expression

namespace Parser

/-- Reading succeeds where all tokens are taken and the last state is that of a program. -/
theorem run_eq_ok_iff {length stop : Nat} {parser : Parser} {tokens : Tokens}
    {program : Program} :
    parser.run length stop tokens = .ok program ↔
      ∃ last, Leads step parser tokens last ∧ last.finish? = some program := by
  induction tokens generalizing parser stop with
  | nil =>
      rw [run]
      constructor
      · intro finished
        split at finished
        · rename_i found ended
          cases finished
          exact ⟨parser, .nil parser, ended⟩
        · cases finished
      · rintro ⟨last, run, ended⟩
        cases run
        rw [ended]
  | cons token rest inductionHypothesis =>
      rw [run]
      constructor
      · intro finished
        split at finished
        · rename_i next taken
          obtain ⟨last, run, ended⟩ := inductionHypothesis.mp finished
          exact ⟨last, .cons taken run, ended⟩
        · cases finished
      · rintro ⟨last, run, ended⟩
        obtain ⟨next, taken, rest⟩ := run.of_cons
        rw [taken]
        exact inductionHypothesis.mpr ⟨last, rest, ended⟩

/-- Inside an expression the reader goes on as the expression does. -/
theorem leads_expression {parser : Parser} {site : Site} {start finish : Expression}
    {tokens : Tokens} (run : Leads Expression.advance start tokens finish) :
    Leads step (parser.goOn (.expression site start)) tokens
      (parser.goOn (.expression site finish)) := by
  induction tokens generalizing start with
  | nil =>
      cases run
      exact .nil _
  | cons token rest inductionHypothesis =>
      obtain ⟨middle, first, rest⟩ := run.of_cons
      have fed := Expression.advance_eq_some_iff.mp first
      refine .cons ?_ (inductionHypothesis rest)
      rw [step, goOn]
      simp only [fed]
      rfl

end Parser

end Rulebook
