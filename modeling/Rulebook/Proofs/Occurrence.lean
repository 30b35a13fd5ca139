import Rulebook.Proofs.Distinct
import Rulebook.Proofs.Evaluation

/-!
# What a condition contains

A condition contains itself and whatever its operands contain. Walking over a condition visits just
this, so that the names it reads are those of the truth tests and comparisons in it. Evaluation
fails for no other reason than that one of these tests, or a text kept in the condition, has no
truth value of its own.
-/

namespace Rulebook

namespace Condition

/-- The condition contains a node, at any depth. -/
inductive Contains : Condition → Condition → Prop
  | self (condition : Condition) : Contains condition condition
  | part {kind : Junction} {parts : List Condition} {part node : Condition} :
      part ∈ parts → Contains part node → Contains (.junction kind parts) node
  | not {operand node : Condition} : Contains operand node → Contains (.not operand) node

private theorem contains_of_mem_nodes {condition node : Condition}
    (member : node ∈ condition.nodes) :
    condition.Contains node := by
  have ofSingle : ∀ {single : Condition}, single.nodes = [single] → node ∈ single.nodes →
      single.Contains node := by
    intro single isSingle inSingle
    rw [isSingle, List.mem_singleton] at inSingle
    rw [inSingle]
    exact .self single
  induction condition using partsInduction with
  | literal value => exact ofSingle rfl member
  | var name => exact ofSingle rfl member
  | comparison name op constant => exact ofSingle rfl member
  | junction kind parts inductionHypothesis =>
      rcases List.mem_cons.mp member with same | inside
      · rw [same]
        exact .self _
      · obtain ⟨part, isPart, inPart⟩ := mem_nodesOf_iff.mp inside
        exact .part isPart (inductionHypothesis part isPart inPart)
  | not operand inductionHypothesis =>
      rcases List.mem_cons.mp member with same | inside
      · rw [same]
        exact .self _
      · exact .not (inductionHypothesis inside)
  | verbatim text => exact ofSingle rfl member

/-- The walk visits just what the condition contains. -/
theorem mem_nodes_iff {condition node : Condition} :
    node ∈ condition.nodes ↔ condition.Contains node := by
  refine ⟨contains_of_mem_nodes, ?_⟩
  intro contains
  induction contains with
  | self condition => cases condition <;> exact List.mem_cons_self
  | part isPart _ inductionHypothesis =>
      exact List.mem_cons_of_mem _ (mem_nodesOf_iff.mpr ⟨_, isPart, inductionHypothesis⟩)
  | not _ inductionHypothesis => exact List.mem_cons_of_mem _ inductionHypothesis

/-- The condition tests the truth of a name, or compares it. -/
def Reads (condition : Condition) (name : String) : Prop :=
  condition.Contains (.var name) ∨
    ∃ op constant, condition.Contains (.comparison name op constant)

/-- The names of a condition are those that it reads. -/
theorem mem_names_iff {condition : Condition} {name : String} :
    name ∈ condition.names ↔ condition.Reads name := by
  rw [names, SortedSet.mem_ofList_iff Text.compareText_eq_iff, List.mem_filterMap]
  constructor
  · rintro ⟨node, isNode, isName⟩
    rw [mem_nodes_iff] at isNode
    cases node with
    | var other =>
        cases isName
        exact .inl isNode
    | comparison other op constant =>
        cases isName
        exact .inr ⟨op, constant, isNode⟩
    | literal _ | junction _ _ | not _ | verbatim _ => cases isName
  · rintro (tested | ⟨op, constant, compared⟩)
    · exact ⟨_, mem_nodes_iff.mpr tested, rfl⟩
    · exact ⟨_, mem_nodes_iff.mpr compared, rfl⟩

end Condition

/-- A junction reports the error of one of its parts. Whatever the parts behind it come to, this is
the first error among them. -/
theorem Junction.error_mem_of_settle
    {kind : Junction} {results : List (Except EvalError Bool)} {error : EvalError}
    (settled : kind.settle results = .error error) : .error error ∈ results := by
  induction results with
  | nil => cases settled
  | cons result rest inductionHypothesis =>
      cases result with
      | ok value =>
          rw [settle] at settled
          by_cases decisive : value = kind.decisive
          · rw [if_pos decisive] at settled
            cases settled
          · rw [if_neg decisive] at settled
            exact List.mem_cons_of_mem _ (inductionHypothesis settled)
      | error first =>
          have same : first = error := by
            rw [settle] at settled
            split at settled
            · split at settled
              · cases settled
              · exact Except.error.inj settled
            · exact Except.error.inj settled
          rw [same]
          exact List.mem_cons_self

/-- Values can only fail to be ordered, and only where one of them is no number. -/
theorem Value.related_eq_error
    {left right : Value} {op : Comparator} {error : EvalError}
    (fails : left.related op right = .error error) :
    op.isEquality = false ∧ (left.asInt? = .none ∨ right.asInt? = .none) ∧
      error = .incomparable left op right := by
  have notNumbers : left.asInt? = .none ∨ right.asInt? = .none := by
    by_contra numbers
    rw [not_or, ← ne_eq, ← ne_eq, Option.ne_none_iff_exists', Option.ne_none_iff_exists'] at numbers
    obtain ⟨⟨first, isFirst⟩, second, isSecond⟩ := numbers
    simp only [Value.related, isFirst, isSecond] at fails
    cases fails
  unfold Value.related at fails
  split at fails
  · cases fails
  · split at fails
    · cases fails
    · cases op with
      | eq | ne => cases fails
      | lt | le | gt | ge => exact ⟨rfl, notNumbers, (Except.error.inj fails).symm⟩

namespace Condition

/-- A single test has no truth value, for the given reason. -/
inductive FailsAlone (env : Env) : Condition → EvalError → Prop
  | untested {name : String} :
      env.get? name = none → FailsAlone env (.var name) (.unbound name)
  | uncompared {name : String} {op : Comparator} {constant : Value} :
      env.get? name = none → FailsAlone env (.comparison name op constant) (.unbound name)
  | unordered {name : String} {op : Comparator} {constant value : Value} :
      env.get? name = some value → op.isEquality = false →
      (value.asInt? = none ∨ constant.asInt? = none) →
      FailsAlone env (.comparison name op constant) (.incomparable value op constant)
  | verbatim (text : String) : FailsAlone env (.verbatim text) (.unevaluable text)

private theorem lookup_eq_error {env : Env} {name : String} {error : EvalError}
    (fails : env.lookup name = .error error) :
    env.get? name = none ∧ error = .unbound name := by
  rw [Env.lookup] at fails
  split at fails
  · cases fails
  · rename_i unbound
    exact ⟨unbound, (Except.error.inj fails).symm⟩

/-- The error of an evaluation is that of a test in the condition. -/
theorem exists_failing_of_eval
    {env : Env} {condition : Condition} {error : EvalError}
    (fails : condition.eval env = .error error) :
    ∃ node, condition.Contains node ∧ FailsAlone env node error := by
  induction condition using partsInduction with
  | literal value => cases fails
  | var name =>
      rw [eval, map_eq_error_iff] at fails
      obtain ⟨unbound, isError⟩ := lookup_eq_error fails
      rw [isError]
      exact ⟨_, .self _, .untested unbound⟩
  | comparison name op constant =>
      rw [eval] at fails
      split at fails
      · rename_i value found
        have bound : env.get? name = some value := by
          rw [Env.lookup] at found
          split at found
          · rename_i isBound
            rw [isBound, Except.ok.inj found]
          · cases found
        obtain ⟨ordering, notNumbers, isError⟩ := Value.related_eq_error fails
        rw [isError]
        exact ⟨_, .self _, .unordered bound ordering notNumbers⟩
      · rename_i cause outcome
        obtain ⟨unbound, isCause⟩ := lookup_eq_error outcome
        rw [← Except.error.inj fails, isCause]
        exact ⟨_, .self _, .uncompared unbound⟩
  | junction kind parts inductionHypothesis =>
      rw [eval_junction] at fails
      obtain ⟨part, isPart, partFails⟩ := List.mem_map.mp (Junction.error_mem_of_settle fails)
      obtain ⟨node, contains, alone⟩ := inductionHypothesis part isPart partFails
      exact ⟨node, .part isPart contains, alone⟩
  | not operand inductionHypothesis =>
      rw [eval, map_eq_error_iff] at fails
      obtain ⟨node, contains, alone⟩ := inductionHypothesis fails
      exact ⟨node, .not contains, alone⟩
  | verbatim text =>
      cases fails
      exact ⟨_, .self _, .verbatim text⟩

end Condition

end Rulebook
