import Rulebook.Pass
import Rulebook.Proofs.Distinct
import Rulebook.Proofs.Normalization
import Rulebook.Proofs.Redundancy

/-!
# Truth of the findings

The passes report rules that can never match, rules that always match although others follow, and
merged rules that hide later ones. They look at normal forms and at merged conditions, and speak of
the rules they were given and of all inputs. This module says what each kind of finding means in
terms of evaluation and selection, and that every pass of a sequence reports only what is true of
the rules it was given or gives back. Conversely, a constant normal form does not go unreported.
-/

namespace Rulebook

/-- The rule at the place has the condition, which comes out as given whatever is bound. -/
def ComesOut (rules : List Rule) (place : Nat) (condition : Condition) (value : Bool) : Prop :=
  ∃ rule, rules[place]? = some rule ∧ rule.condition = condition ∧
    ∀ env, condition.eval env = .ok value

/-- Whatever is bound, no rule behind the place is selected. -/
def SelectsUpTo (rules : List Rule) (place : Nat) : Prop :=
  ∀ env index, firstMatch env rules = .ok (some index) → index ≤ place

/-- What a finding says about the rules that a pass is given and those that it returns. -/
def Finding.TrueOf (given returned : List Rule) : Finding → Prop
  | .neverTrue place condition => ComesOut given place condition false
  | .alwaysTrue place condition =>
      ComesOut given place condition true ∧ place + 1 < given.length ∧ SelectsUpTo given place
  | .hides place result groups =>
      ∃ last, last + groups + 1 = returned.length ∧ 0 < groups ∧
        given[place]?.map Rule.result = some result ∧
        returned[last]?.map Rule.result = some result ∧
        ComesOut returned last (.literal true) true ∧ SelectsUpTo returned last
  | .redundant redundancy =>
      ∃ earlier later, given[redundancy.coveredBy]? = some earlier ∧
        given[redundancy.rule]? = some later ∧ redundancy.coveredBy < redundancy.rule ∧
        earlier.condition.normalize.covers later.condition.normalize = true

private theorem firstMatch_le
    {env : Env} {rules : List Rule} {place index : Nat} {rule : Rule}
    (isRule : rules[place]? = some rule) (holds : rule.condition.eval env = .ok true)
    (selected : firstMatch env rules = .ok (some index)) : index ≤ place := by
  induction rules generalizing place index with
  | nil => cases selected
  | cons first rest inductionHypothesis =>
      rw [firstMatch] at selected
      split at selected
      · cases selected
      · cases selected
        exact Nat.zero_le _
      · rename_i isFalse
        obtain ⟨later, found, shifted⟩ := exists_ok_of_map_eq_ok selected
        obtain ⟨inner, rfl, rfl⟩ := Option.map_eq_some_iff.mp shifted
        cases place with
        | zero =>
            cases isRule
            rw [isFalse] at holds
            cases holds
        | succ place => exact Nat.succ_le_succ (inductionHypothesis isRule found)

private theorem ComesOut.selectsUpTo
    {rules : List Rule} {place : Nat} {condition : Condition}
    (always : ComesOut rules place condition true) : SelectsUpTo rules place := by
  obtain ⟨rule, isRule, rfl, holds⟩ := always
  intro env index selected
  exact firstMatch_le isRule (holds env) selected

/-- A condition with a constant normal form comes out as this constant, also where a part of it
has no truth value. -/
theorem comesOut_of_normalize
    {rules : List Rule} {place : Nat} {rule : Rule} {value : Bool}
    (isRule : rules[place]? = some rule) (constant : rule.condition.normalize = .literal value) :
    ComesOut rules place rule.condition value := by
  refine ⟨rule, isRule, rfl, ?_⟩
  intro env
  rw [← Condition.eval_normalize_eq_ok_iff, constant]
  rfl

@[simp]
theorem Condition.isFalse_iff {condition : Condition} :
    condition.isFalse = true ↔ condition = literal false := by
  cases condition <;> simp [isFalse]

/-- A finding about a rule whose normal form is constant, the rules being counted from `index`. -/
inductive FindsConstant (index : Nat) (rules : List Rule) : Finding → Prop
  | never {place : Nat} {rule : Rule} :
      rules[place]? = some rule →
      rule.condition.normalize = .literal false →
      FindsConstant index rules (.neverTrue (index + place) rule.condition)
  | always {place : Nat} {rule : Rule} :
      rules[place]? = some rule →
      rule.condition.normalize = .literal true →
      place + 1 < rules.length →
      FindsConstant index rules (.alwaysTrue (index + place) rule.condition)

private theorem FindsConstant.cons
    {index : Nat} {rules : List Rule} {finding : Finding}
    (found : FindsConstant (index + 1) rules finding) (first : Rule) :
    FindsConstant index (first :: rules) finding := by
  cases found with
  | @never place rule isRule constant =>
      rw [Nat.add_assoc, Nat.add_comm 1 place]
      exact .never isRule constant
  | @always place rule isRule constant followed =>
      rw [Nat.add_assoc, Nat.add_comm 1 place]
      exact .always isRule constant (Nat.succ_lt_succ followed)

/-- Simplifying reports nothing but constant normal forms. -/
theorem findsConstant_of_simplifyFindings
    {index : Nat} {seen : Bool} {rules : List Rule} {finding : Finding}
    (reported : finding ∈ simplifyFindings index seen rules) :
    FindsConstant index rules finding := by
  induction rules generalizing index seen with
  | nil => cases reported
  | cons rule rest inductionHypothesis =>
      rw [simplifyFindings] at reported
      split at reported
      · rename_i isFalse
        rcases List.mem_cons.mp reported with rfl | inRest
        · have atHead : (rule :: rest)[0]? = some rule := rfl
          exact .never atHead (Condition.isFalse_iff.mp isFalse)
        · exact (inductionHypothesis inRest).cons rule
      · split at reported
        · rename_i firstAlways
          rcases List.mem_cons.mp reported with rfl | inRest
          · simp only [Bool.and_eq_true, Bool.not_eq_true', List.isEmpty_eq_false_iff]
              at firstAlways
            have atHead : (rule :: rest)[0]? = some rule := rfl
            have followed : 0 < rest.length := List.length_pos_iff.mpr firstAlways.1.2
            exact .always atHead (Condition.isTrue_iff.mp firstAlways.1.1)
              (Nat.succ_lt_succ followed)
          · exact (inductionHypothesis inRest).cons rule
        · exact (inductionHypothesis reported).cons rule

private theorem FindsConstant.trueOf
    {rules : List Rule} {finding : Finding} (found : FindsConstant 0 rules finding)
    (returned : List Rule) : finding.TrueOf rules returned := by
  cases found with
  | @never place rule isRule constant =>
      rw [Nat.zero_add]
      exact comesOut_of_normalize isRule constant
  | @always place rule isRule constant followed =>
      rw [Nat.zero_add]
      have comesOut := comesOut_of_normalize isRule constant
      exact ⟨comesOut, followed, comesOut.selectsUpTo⟩

/-- Every rule with a false normal form is reported, whether or not one that always matches has been
seen. -/
theorem neverTrue_mem_simplifyFindings
    {index place : Nat} {seen : Bool} {rules : List Rule} {rule : Rule}
    (isRule : rules[place]? = some rule) (constant : rule.condition.normalize = .literal false) :
    .neverTrue (index + place) rule.condition ∈ simplifyFindings index seen rules := by
  induction rules generalizing index place seen with
  | nil => cases isRule
  | cons first rest inductionHypothesis =>
      rw [simplifyFindings]
      cases place with
      | zero =>
          cases isRule
          rw [if_pos (Condition.isFalse_iff.mpr constant)]
          exact List.mem_cons_self
      | succ place =>
          have inRest : ∀ seen, .neverTrue (index + (place + 1)) rule.condition ∈
              simplifyFindings (index + 1) seen rest := by
            intro seen
            rw [Nat.add_comm place 1, ← Nat.add_assoc]
            exact inductionHypothesis isRule
          split
          · exact List.mem_cons_of_mem _ (inRest seen)
          · split
            · exact List.mem_cons_of_mem _ (inRest true)
            · exact inRest seen

/-- Of the rules that always match, only the first is reported. -/
theorem exists_alwaysTrue_mem_simplifyFindings
    {index place : Nat} {rules : List Rule} {rule : Rule}
    (isRule : rules[place]? = some rule) (constant : rule.condition.normalize = .literal true)
    (followed : place + 1 < rules.length) :
    ∃ first ≤ index + place, ∃ condition,
      .alwaysTrue first condition ∈ simplifyFindings index false rules := by
  induction rules generalizing index place with
  | nil => cases isRule
  | cons head rest inductionHypothesis =>
      have isFollowed : rest.isEmpty = false := by
        rw [List.isEmpty_eq_false_iff, ← List.length_pos_iff]
        rw [List.length_cons] at followed
        omega
      rw [simplifyFindings]
      by_cases always : head.condition.normalize = .literal true
      · rw [always, isFollowed]
        exact ⟨index, Nat.le_add_right _ _, head.condition, List.mem_cons_self⟩
      · cases place with
        | zero =>
            cases isRule
            exact absurd constant always
        | succ place =>
            obtain ⟨first, bound, condition, inRest⟩ : ∃ first ≤ index + 1 + place, ∃ condition,
                .alwaysTrue first condition ∈ simplifyFindings (index + 1) false rest :=
              inductionHypothesis isRule (Nat.lt_of_succ_lt_succ followed)
            have notTrue : head.condition.normalize.isTrue = false := by
              rw [Bool.eq_false_iff]
              exact fun isTrue => always (Condition.isTrue_iff.mp isTrue)
            refine ⟨first, by omega, condition, ?_⟩
            rw [notTrue]
            split
            · exact List.mem_cons_of_mem _ inRest
            · exact inRest

/-- Merging reports the groups that always match and have groups behind them. -/
theorem mem_mergeFindings_iff {rules : List Rule} {finding : Finding} :
    finding ∈ mergeFindings rules ↔
      ∃ last group, (mergeRules rules)[last]? = some group ∧
        group.condition = .literal true ∧ last + 1 < (mergeRules rules).length ∧
        finding = .hides (rules.findIdx fun rule => rule.result = group.result) group.result
          ((mergeRules rules).length - last - 1) := by
  rw [mergeFindings, List.mem_filterMap]
  constructor
  · rintro ⟨⟨group, last⟩, isGroup, selected⟩
    dsimp only at selected
    split at selected
    · rename_i always
      rw [Bool.and_eq_true, Condition.isTrue_iff, decide_eq_true_eq] at always
      exact ⟨last, group, List.mem_zipIdx_iff_getElem?.mp isGroup, always.1, always.2,
        (Option.some.inj selected).symm⟩
    · cases selected
  · rintro ⟨last, group, isGroup, always, followed, rfl⟩
    refine ⟨(group, last), List.mem_zipIdx_iff_getElem?.mpr isGroup, ?_⟩
    dsimp only
    rw [if_pos]
    rw [Bool.and_eq_true, Condition.isTrue_iff, decide_eq_true_eq]
    exact ⟨always, followed⟩

private theorem result_findIdx_of_mem_mergeRules
    {rules : List Rule} {group : Rule} (isGroup : group ∈ mergeRules rules) :
    rules[rules.findIdx fun rule => rule.result = group.result]?.map Rule.result =
      some group.result := by
  obtain ⟨result, isResult, rfl⟩ := List.mem_map.mp isGroup
  obtain ⟨member, isMember, rfl⟩ :=
    List.mem_map.mp ((mem_firstOccurrences result _).mp isResult)
  have inBounds : (rules.findIdx fun rule => rule.result = member.result) < rules.length :=
    List.findIdx_lt_length_of_exists ⟨member, isMember, decide_eq_true rfl⟩
  have found := List.findIdx_getElem (w := inBounds)
  rw [List.getElem?_eq_getElem inBounds, Option.map_some, Option.some.injEq]
  exact of_decide_eq_true found

/-- A group that always matches hides just the groups behind it. -/
theorem trueOf_of_mem_mergeFindings
    {rules : List Rule} {finding : Finding} (reported : finding ∈ mergeFindings rules) :
    finding.TrueOf rules (mergeRules rules) := by
  obtain ⟨last, group, isGroup, always, followed, rfl⟩ := mem_mergeFindings_iff.mp reported
  have comesOut : ComesOut (mergeRules rules) last (.literal true) true :=
    ⟨group, isGroup, always, fun _ => rfl⟩
  refine ⟨last, by omega, by omega,
    result_findIdx_of_mem_mergeRules (List.mem_of_getElem? isGroup), ?_, comesOut,
    comesOut.selectsUpTo⟩
  rw [isGroup]
  rfl

/-! ## Sequences of passes -/

namespace Pass

/-- Every finding of a pass is true of the rules that it is given and those that it returns. -/
theorem trueOf_of_mem_run
    {pass : Pass} {model : Model} {finding : Finding}
    (reported : finding ∈ (pass.run model).findings) :
    finding.TrueOf model.rules (pass.run model).model.rules := by
  cases pass with
  | simplify => exact (findsConstant_of_simplifyFindings reported).trueOf _
  | merge => exact trueOf_of_mem_mergeFindings reported
  | redundancy =>
      obtain ⟨redundancy, isRedundancy, rfl⟩ := List.mem_map.mp reported
      exact Model.exists_of_mem_redundancies isRedundancy

/-- The findings of a sequence are those of its passes, each run on what the passes before it
return. -/
theorem mem_findings_runAll_iff {model : Model} {passes : List Pass} {finding : Finding} :
    finding ∈ (runAll model passes).findings ↔
      ∃ before pass after, passes = before ++ pass :: after ∧
        finding ∈ (pass.run (runAll model before).model).findings := by
  induction passes generalizing model with
  | nil => simp [runAll]
  | cons first rest inductionHypothesis =>
      change finding ∈ (first.run model).findings ++ (runAll (first.run model).model rest).findings
        ↔ _
      rw [List.mem_append, inductionHypothesis]
      constructor
      · rintro (atFirst | ⟨before, pass, after, rfl, reported⟩)
        · exact ⟨[], first, rest, rfl, atFirst⟩
        · exact ⟨first :: before, pass, after, rfl, reported⟩
      · rintro ⟨before, pass, after, split, reported⟩
        cases before with
        | nil =>
            cases split
            exact .inl reported
        | cons head before =>
            cases split
            exact .inr ⟨before, pass, after, rfl, reported⟩

/-- In every sequence of passes the findings are those of the single passes, and each of them is
true of the rules that its pass was given or has returned: a condition reported as never or always
true comes out so whatever is bound, and rules reported as unreachable are not selected. None is
missing where a normal form, or a merged condition, is constant. -/
theorem findings_true (model : Model) (passes : List Pass) :
    (∀ finding, finding ∈ (runAll model passes).findings ↔
      ∃ before pass after, passes = before ++ pass :: after ∧
        finding ∈ (pass.run (runAll model before).model).findings) ∧
    ∀ before pass after, passes = before ++ pass :: after →
      let given := (runAll model before).model
      let output := pass.run given
      (∀ finding ∈ output.findings, finding.TrueOf given.rules output.model.rules) ∧
      (pass = .simplify → ∀ place rule, given.rules[place]? = some rule →
        (rule.condition.normalize = .literal false →
          .neverTrue place rule.condition ∈ output.findings) ∧
        (rule.condition.normalize = .literal true → place + 1 < given.rules.length →
          ∃ first ≤ place, ∃ condition, .alwaysTrue first condition ∈ output.findings)) ∧
      (pass = .merge → ∀ place group, output.model.rules[place]? = some group →
        group.condition = .literal true → place + 1 < output.model.rules.length →
          ∃ first, .hides first group.result (output.model.rules.length - place - 1) ∈
            output.findings) := by
  refine ⟨fun finding => mem_findings_runAll_iff, ?_⟩
  intro before pass after _ given output
  refine ⟨fun finding reported => trueOf_of_mem_run reported, ?_, ?_⟩
  · rintro rfl place rule isRule
    constructor
    · intro constant
      have reported :
          .neverTrue (0 + place) rule.condition ∈ simplifyFindings 0 false given.rules :=
        neverTrue_mem_simplifyFindings isRule constant
      rwa [Nat.zero_add] at reported
    · intro constant followed
      have reported : ∃ first ≤ 0 + place, ∃ condition,
          .alwaysTrue first condition ∈ simplifyFindings 0 false given.rules :=
        exists_alwaysTrue_mem_simplifyFindings isRule constant followed
      rwa [Nat.zero_add] at reported
  · rintro rfl place group isGroup always followed
    exact ⟨_, mem_mergeFindings_iff.mpr ⟨place, group, isGroup, always, followed, rfl⟩⟩

/-- Never true, although the other part has no truth value. -/
def boilerNever : Condition := .junction .and [.verbatim "alarm()", .literal false]

/-- Always true, although the other part has no truth value. -/
def boilerAlways : Condition := .junction .or [.verbatim "alarm()", .not (.literal false)]

def boiler : Model where
  functionName := "boiler"
  parameters := [⟨"pressure", .range 0 9⟩, ⟨"locked", .boolean⟩]
  rules :=
    [⟨boilerNever, .value (.string "stop")⟩,
      ⟨.comparison "pressure" .gt (.int 9), .value (.string "vent")⟩,
      ⟨boilerAlways, .value (.string "vent")⟩,
      ⟨.verbatim "alarm()", .value (.string "stop")⟩,
      ⟨.var "locked", .value (.string "hold")⟩]

/-- The rule that always matches is merged into the second group of three. -/
theorem findings_true_boiler :
    (runAll boiler [.simplify, .merge]).findings =
      [.neverTrue 0 boilerNever, .alwaysTrue 2 boilerAlways,
        .hides 1 (.value (.string "vent")) 1] ∧
    ComesOut boiler.rules 0 boilerNever false ∧
    SelectsUpTo boiler.rules 2 ∧
    (runAll boiler [.simplify, .merge]).model.rules.length = 3 ∧
    SelectsUpTo (runAll boiler [.simplify, .merge]).model.rules 1 := by
  have simplified := ((findings_true boiler [.simplify, .merge]).2 [] .simplify [.merge] rfl).1
  have merged := ((findings_true boiler [.simplify, .merge]).2 [.simplify] .merge [] rfl).1
  have isNever := simplified (.neverTrue 0 boilerNever) (by decide)
  have isAlways := simplified (.alwaysTrue 2 boilerAlways) (by decide)
  obtain ⟨last, isLast, _, _, _, _, upToLast⟩ :=
    merged (.hides 1 (.value (.string "vent")) 1) (by decide)
  have threeRules : (runAll boiler [.simplify, .merge]).model.rules.length = 3 := by decide
  change last + 1 + 1 = (runAll boiler [.simplify, .merge]).model.rules.length at isLast
  have lastOne : last = 1 := by omega
  rw [lastOne] at upToLast
  exact ⟨by decide, isNever, isAlways.2.2, threeRules, upToLast⟩

end Pass

end Rulebook
