import Rulebook.Proofs.Decision
import Rulebook.Proofs.Distinct

/-!
# Results of decisions

A rule list can be gone through rule by rule until a condition holds, or be read as one decision
that leaves out whatever stands behind the first rule that always matches. Both lead to the same
result, or to the same error. The results that a decision can have are those of the rules it keeps,
and `None` if none of them always matches.
-/

namespace Rulebook

/-- The rules up to the first that always matches. -/
def consulted : List Rule → List Rule
  | [] => []
  | rule :: rest => if rule.isCatchAll then [rule] else rule :: consulted rest

namespace Decision

private theorem mem_results_of_eval
    {env : Env} {decision : Decision} {literal : Literal}
    (decided : decision.eval env = .ok literal) : literal ∈ decision.results := by
  induction decision with
  | leaf result =>
      cases decided
      exact List.mem_singleton_self _
  | branch condition result otherwise inductionHypothesis =>
      rw [eval] at decided
      split at decided
      · cases decided
      · cases decided
        exact List.mem_cons_self
      · exact List.mem_cons_of_mem _ (inductionHypothesis decided)

/-- A list of rules that never surely matches can also decide for `None`. -/
theorem mem_results_ofRules_iff {rules : List Rule} {literal : Literal} :
    literal ∈ (ofRules rules).results ↔
      (∃ rule ∈ consulted rules, literal = rule.result) ∨
        literal = .value .none ∧ ∀ rule ∈ rules, rule.isCatchAll = false := by
  induction rules with
  | nil => simp [ofRules, results, consulted]
  | cons rule rest inductionHypothesis =>
      rw [ofRules, consulted]
      by_cases catchAll : rule.isCatchAll = true
      · rw [if_pos catchAll, if_pos catchAll]
        simp [results, catchAll]
      · rw [if_neg catchAll, if_neg catchAll, results, List.mem_cons, inductionHypothesis,
          List.exists_mem_cons_iff, List.forall_mem_cons, or_assoc]
        simp [catchAll]

/-- The decision of a rule list gives the result of the rule that is selected, `None` where there
is none, and the error of the search where it fails. Every result it gives is among its outputs,
which name the results of the consulted rules without repetition. -/
theorem eval_ofRules_agrees (rules : List Rule) (env : Env) :
    ((∀ index, firstMatch env rules = .ok (some index) →
        ∃ rule, rules[index]? = some rule ∧ (ofRules rules).eval env = .ok rule.result) ∧
      (firstMatch env rules = .ok none → (ofRules rules).eval env = .ok (.value .none)) ∧
      ∀ error, firstMatch env rules = .error error → (ofRules rules).eval env = .error error) ∧
    (∀ literal, (ofRules rules).eval env = .ok literal → literal ∈ (ofRules rules).outputs) ∧
    (ofRules rules).outputs.Nodup ∧
    ∀ literal, literal ∈ (ofRules rules).outputs ↔
      (∃ rule ∈ consulted rules, literal = rule.result) ∨
        literal = .value .none ∧ ∀ rule ∈ rules, rule.isCatchAll = false := by
  refine ⟨⟨?_, ?_, ?_⟩, ?_, firstOccurrences_nodup _, ?_⟩
  · intro index selected
    obtain ⟨rule, isRule, _⟩ := exists_rule_of_firstMatch selected
    refine ⟨rule, isRule, ?_⟩
    rw [eval_ofRules, selected]
    simp [Except.map, isRule]
  · intro noMatch
    rw [eval_ofRules, noMatch]
    rfl
  · intro error fails
    rw [eval_ofRules, fails]
    rfl
  · intro literal decided
    exact (mem_firstOccurrences literal _).mpr (mem_results_of_eval decided)
  · intro literal
    exact (mem_firstOccurrences literal _).trans mem_results_ofRules_iff

/-- The last rule is never reached, and its result is no output. -/
def queueRules : List Rule :=
  [⟨.junction .and [.comparison "waiting" .gt (.int 5), .var "open"], .value (.string "close")⟩,
    ⟨.comparison "waiting" .eq (.int 0), .value (.bool false)⟩,
    ⟨.literal true, .value (.string "close")⟩,
    ⟨.comparison "waiting" .lt (.int 0), .verbatim "repair()"⟩]

/-- With three waiting, what is not bound does not matter; with seven it does. -/
theorem eval_ofRules_agrees_queue :
    let three := Env.ofList [("waiting", .int 3)]
    let seven := Env.ofList [("waiting", .int 7)]
    (firstMatch three queueRules = .ok (some 2) ∧
      ∃ rule, queueRules[2]? = some rule ∧ (ofRules queueRules).eval three = .ok rule.result) ∧
    (firstMatch three (queueRules.take 2) = .ok none ∧
      (ofRules (queueRules.take 2)).eval three = .ok (.value .none)) ∧
    (firstMatch seven queueRules = .error (.unbound "open") ∧
      (ofRules queueRules).eval seven = .error (.unbound "open")) ∧
    .verbatim "repair()" ∉ (ofRules queueRules).outputs := by
  intro three seven
  have selected : firstMatch three queueRules = .ok (some 2) := by rfl
  have noMatch : firstMatch three (queueRules.take 2) = .ok none := by rfl
  have fails : firstMatch seven queueRules = .error (.unbound "open") := by rfl
  refine ⟨⟨selected, (eval_ofRules_agrees queueRules three).1.1 2 selected⟩,
    ⟨noMatch, (eval_ofRules_agrees (queueRules.take 2) three).1.2.1 noMatch⟩,
    ⟨fails, (eval_ofRules_agrees queueRules seven).1.2.2 _ fails⟩, ?_⟩
  rw [(eval_ofRules_agrees queueRules three).2.2.2]
  decide

end Decision

end Rulebook
