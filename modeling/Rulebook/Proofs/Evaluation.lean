import Rulebook.Condition.Eval
import Rulebook.Proofs.Basic
import Rulebook.Proofs.TextMap
import Mathlib.Data.List.Nodup

/-!
# Truth values of conditions

Evaluating a condition gives a truth value or an error. This module forgets which error it is, so
that a condition has a truth value or none, and describes junctions without the order of their
parts: a decisive part settles a junction, and an undecided part leaves it open only where no part
is decisive.

Joining conditions keeps even the error: the junction built by `Condition.join` evaluates exactly
like the list of its parts. The truth value of a condition depends only on its atoms, the truth
tests and comparisons in it.
-/

namespace Rulebook

namespace Env

private theorem get?_ofList_of_mem
    {pairs : List (String × Value)} (distinct : (pairs.map Prod.fst).Nodup)
    {name : String} {value : Value} (member : (name, value) ∈ pairs) :
    (ofList pairs).get? name = some value := by
  have reversed : (pairs.reverse.map Prod.fst).Nodup := by
    rw [List.map_reverse, List.nodup_reverse]
    exact distinct
  exact TextMap.lookup_of_mem reversed (List.mem_reverse.mpr member)

theorem get?_ofList_eq_none
    {pairs : List (String × Value)} {name : String} (absent : name ∉ pairs.map Prod.fst) :
    (ofList pairs).get? name = none := by
  rw [Option.eq_none_iff_forall_ne_some]
  intro value found
  have member := List.mem_reverse.mp (TextMap.mem_of_lookup found)
  exact absent (List.mem_map.mpr ⟨_, member, rfl⟩)

section Zipped

variable {α : Type} {name : α → String} {elements : List α} {values : List Value}

/-- Where elements of different names are bound one by one to values, each finds its own. -/
theorem get?_ofList_zip
    (distinct : (elements.map name).Nodup) (sameLength : elements.length = values.length)
    {element : α} {value : Value} (paired : (element, value) ∈ elements.zip values) :
    (ofList ((elements.map name).zip values)).get? (name element) = some value := by
  apply get?_ofList_of_mem
  · rw [List.map_fst_zip (by simp only [List.length_map, sameLength, Nat.le_refl])]
    exact distinct
  · rw [List.zip_map_left]
    exact List.mem_map.mpr ⟨_, paired, rfl⟩

theorem exists_get?_ofList_zip
    {related : α → Value → Prop} (distinct : (elements.map name).Nodup)
    (bound : List.Forall₂ related elements values) {element : α} (member : element ∈ elements) :
    ∃ value, (ofList ((elements.map name).zip values)).get? (name element) = some value ∧
      related element value := by
  obtain ⟨value, paired⟩ := exists_mem_zip bound.length_eq member
  exact ⟨value, get?_ofList_zip distinct bound.length_eq paired, List.forall₂_zip bound paired⟩

end Zipped

theorem get?_ofList_zip_eq_none
    {names : List String} {values : List Value} {name : String} (absent : name ∉ names) :
    (ofList (names.zip values)).get? name = none := by
  apply get?_ofList_eq_none
  intro member
  obtain ⟨⟨_, value⟩, isPair, rfl⟩ := List.mem_map.mp member
  exact absent (List.of_mem_zip isPair).1

end Env

namespace Junction

private theorem unit_eq_not_decisive (kind : Junction) : kind.unit = !kind.decisive := by
  cases kind <;> rfl

theorem unit_ne_decisive (kind : Junction) : kind.unit ≠ kind.decisive := by
  cases kind <;> decide

/-- A value that does not decide a junction leaves it to the other parts. -/
theorem eq_unit_of_ne_decisive
    {kind : Junction} {value : Bool} (different : value ≠ kind.decisive) :
    value = kind.unit := by
  rw [unit_eq_not_decisive]
  exact Bool.eq_not.mpr different

@[simp]
theorem dual_decisive (kind : Junction) : kind.dual.decisive = !kind.decisive := by
  cases kind <;> rfl

@[simp]
theorem dual_unit (kind : Junction) : kind.dual.unit = !kind.unit := by
  cases kind <;> rfl

/-! ## Settling -/

/-- A part that does not decide plays no part. -/
@[simp]
theorem settle_ok_unit
    (kind : Junction) (rest : List (Except EvalError Bool)) :
    kind.settle (.ok kind.unit :: rest) = kind.settle rest := by
  rw [settle, if_neg kind.unit_ne_decisive]

/-- A junction of one part comes to what the part comes to. -/
@[simp]
theorem settle_singleton
    (kind : Junction) (result : Except EvalError Bool) :
    kind.settle [result] = result := by
  cases result with
  | error error =>
      simp only [settle]
      rw [if_neg kind.unit_ne_decisive]
  | ok value =>
      by_cases decisive : value = kind.decisive
      · rw [decisive, settle_ok_decisive]
      · rw [eq_unit_of_ne_decisive decisive, settle_ok_unit, settle]

private theorem settle_cons_congr
    (kind : Junction) (result : Except EvalError Bool)
    {rest others : List (Except EvalError Bool)}
    (same : kind.settle rest = kind.settle others) :
    kind.settle (result :: rest) = kind.settle (result :: others) := by
  cases result with
  | ok value => simp only [settle, same]
  | error error => simp only [settle, same]

/-- The results of some neighbouring parts may be settled first. -/
theorem settle_append
    (kind : Junction) (first second : List (Except EvalError Bool)) :
    kind.settle (first ++ second) = kind.settle (kind.settle first :: second) := by
  induction first with
  | nil =>
      rw [List.nil_append, settle.eq_1, settle_ok_unit]
  | cons result rest inductionHypothesis =>
      rw [List.cons_append]
      cases result with
      | ok value =>
          by_cases decisive : value = kind.decisive
          · rw [decisive, settle_ok_decisive, settle_ok_decisive, settle_ok_decisive]
          · rw [eq_unit_of_ne_decisive decisive, settle_ok_unit, settle_ok_unit,
              inductionHypothesis]
      | error error =>
          rw [settle, inductionHypothesis]
          cases restResult : kind.settle rest with
          | ok value =>
              by_cases decisive : value = kind.decisive
              · simp [settle, restResult, decisive]
              · simp [settle, restResult, decisive]
          | error other =>
              cases secondResult : kind.settle second with
              | ok value =>
                  by_cases decisive : value = kind.decisive
                  · simp [settle, restResult, secondResult, decisive]
                  · simp [settle, restResult, secondResult, decisive]
              | error last =>
                  simp [settle, restResult, secondResult]

/-- The truth value of a junction from those of its parts, some of which may be undecided. -/
def truth (kind : Junction) (parts : List (Option Bool)) : Option Bool :=
  if some kind.decisive ∈ parts then some kind.decisive
  else if none ∈ parts then none
  else some kind.unit

theorem truth_of_mem_decisive
    {kind : Junction} {parts : List (Option Bool)}
    (member : some kind.decisive ∈ parts) :
    kind.truth parts = some kind.decisive :=
  if_pos member

/-- A junction is decided exactly by a decisive part. -/
theorem truth_eq_decisive_iff
    (kind : Junction) (parts : List (Option Bool)) :
    kind.truth parts = some kind.decisive ↔ some kind.decisive ∈ parts := by
  constructor
  · intro decided
    by_contra absent
    rw [truth, if_neg absent] at decided
    split at decided
    · cases decided
    · exact kind.unit_ne_decisive (Option.some.inj decided)
  · exact truth_of_mem_decisive

/-- A junction comes to its unit exactly if all parts do. -/
theorem truth_eq_unit_iff
    (kind : Junction) (parts : List (Option Bool)) :
    kind.truth parts = some kind.unit ↔ ∀ part ∈ parts, part = some kind.unit := by
  constructor
  · intro decided part member
    have noDecisive : some kind.decisive ∉ parts := by
      intro decisive
      rw [truth_of_mem_decisive decisive] at decided
      exact kind.unit_ne_decisive (Option.some.inj decided).symm
    have allDecided : none ∉ parts := by
      intro undecided
      rw [truth, if_neg noDecisive, if_pos undecided] at decided
      cases decided
    cases part with
    | none => exact absurd member allDecided
    | some value =>
        have different : value ≠ kind.decisive := by
          intro same
          exact noDecisive (same ▸ member)
        rw [eq_unit_of_ne_decisive different]
  · intro allUnit
    have noDecisive : some kind.decisive ∉ parts := by
      intro decisive
      exact kind.unit_ne_decisive (Option.some.inj (allUnit _ decisive)).symm
    have allDecided : none ∉ parts := by
      intro undecided
      cases allUnit _ undecided
    rw [truth, if_neg noDecisive, if_neg allDecided]

/-- Only whether there is a decisive part and whether there is an undecided one matters. -/
theorem truth_congr
    {kind : Junction} {parts others : List (Option Bool)}
    (decisive : some kind.decisive ∈ parts ↔ some kind.decisive ∈ others)
    (undecided : none ∈ parts ↔ none ∈ others) :
    kind.truth parts = kind.truth others := by
  simp only [truth, decisive, undecided]

/-- Parts that become known do not change a truth value that is there already. -/
theorem truth_mono
    {kind : Junction} {truths others : List (Option Bool)}
    (kept : List.Forall₂ (fun truth other => ∀ value, truth = some value → other = some value)
      truths others)
    {value : Bool} (settled : kind.truth truths = some value) : kind.truth others = some value := by
  by_cases isDecisive : value = kind.decisive
  · rw [isDecisive, truth_eq_decisive_iff] at settled ⊢
    obtain ⟨place, inBounds, atPlace⟩ := List.mem_iff_getElem.mp settled
    have otherInBounds : place < others.length := kept.length_eq ▸ inBounds
    have sameValue := kept.get inBounds otherInBounds _ atPlace
    exact List.mem_iff_getElem.mpr ⟨place, otherInBounds, sameValue⟩
  · have isUnit : value = kind.unit := eq_unit_of_ne_decisive isDecisive
    rw [isUnit, truth_eq_unit_iff] at settled ⊢
    intro other member
    obtain ⟨place, otherInBounds, atPlace⟩ := List.mem_iff_getElem.mp member
    have inBounds : place < truths.length := kept.length_eq ▸ otherInBounds
    have sameValue := kept.get inBounds otherInBounds _ (settled _ (List.getElem_mem inBounds))
    exact atPlace.symm.trans sameValue

@[simp]
theorem truth_cons_unit
    (kind : Junction) (parts : List (Option Bool)) :
    kind.truth (some kind.unit :: parts) = kind.truth parts := by
  have different : kind.decisive ≠ kind.unit := kind.unit_ne_decisive.symm
  apply truth_congr
  · simp [different]
  · simp

/-- Settling results is the same as settling truth values. Behind an error the rest may still
decide. -/
theorem settle_toOption
    (kind : Junction) (results : List (Except EvalError Bool)) :
    (kind.settle results).toOption = kind.truth (results.map Except.toOption) := by
  induction results with
  | nil =>
      simp [settle, truth, Except.toOption]
  | cons result rest inductionHypothesis =>
      rw [List.map_cons]
      cases result with
      | ok value =>
          by_cases decisive : value = kind.decisive
          · rw [decisive, settle_ok_decisive]
            exact (truth_of_mem_decisive List.mem_cons_self).symm
          · rw [eq_unit_of_ne_decisive decisive, settle_ok_unit, inductionHypothesis]
            exact (truth_cons_unit kind _).symm
      | error error =>
          by_cases decisive : some kind.decisive ∈ rest.map Except.toOption
          · rw [truth_of_mem_decisive (List.mem_cons_of_mem _ decisive)]
            rw [truth_of_mem_decisive decisive] at inductionHypothesis
            cases restResult : kind.settle rest with
            | ok value =>
                rw [restResult] at inductionHypothesis
                have same : value = kind.decisive := Option.some.inj inductionHypothesis
                simp [settle, restResult, same, Except.toOption]
            | error other =>
                rw [restResult] at inductionHypothesis
                cases inductionHypothesis
          · have wholeUndecided :
                kind.truth (none :: rest.map Except.toOption) = none := by
              simp [truth, decisive]
            have restNotDecisive :
                kind.truth (rest.map Except.toOption) ≠ some kind.decisive := by
              rw [ne_eq, truth_eq_decisive_iff]
              exact decisive
            change (kind.settle (.error error :: rest)).toOption =
              kind.truth (none :: rest.map Except.toOption)
            rw [wholeUndecided]
            cases restResult : kind.settle rest with
            | ok value =>
                have different : value ≠ kind.decisive := by
                  intro same
                  rw [restResult, same] at inductionHypothesis
                  exact restNotDecisive inductionHypothesis.symm
                simp [settle, restResult, different, Except.toOption]
            | error other =>
                simp [settle, restResult, Except.toOption]

/-- De Morgan's law, also where parts are undecided. -/
theorem dual_truth_not
    (kind : Junction) (parts : List (Option Bool)) :
    kind.dual.truth (parts.map (Option.map (!·))) = (kind.truth parts).map (!·) := by
  have decisive :
      some kind.dual.decisive ∈ parts.map (Option.map (!·)) ↔
        some kind.decisive ∈ parts := by
    rw [dual_decisive, List.mem_map]
    constructor
    · rintro ⟨part, member, equality⟩
      obtain ⟨value, rfl, negated⟩ := Option.map_eq_some_iff.mp equality
      rwa [Bool.not_inj negated] at member
    · intro member
      exact ⟨_, member, rfl⟩
  have undecided : none ∈ parts.map (Option.map (!·)) ↔ none ∈ parts := by
    simp
  by_cases isDecisive : some kind.decisive ∈ parts
  · rw [truth_of_mem_decisive isDecisive, truth_of_mem_decisive (decisive.mpr isDecisive),
      dual_decisive]
    rfl
  · by_cases isUndecided : none ∈ parts
    · simp only [truth, decisive, undecided, if_neg isDecisive, if_pos isUndecided]
      rfl
    · simp only [truth, decisive, undecided, if_neg isDecisive, if_neg isUndecided, dual_unit]
      rfl

end Junction

namespace Condition

/-! ## Conditions -/

/-- Induction over conditions: a junction may rely on all of its parts. -/
@[elab_as_elim]
theorem partsInduction {motive : Condition → Prop}
    (literal : ∀ value, motive (literal value))
    (var : ∀ name, motive (var name))
    (comparison : ∀ name op constant, motive (comparison name op constant))
    (junction : ∀ kind parts, (∀ part ∈ parts, motive part) → motive (junction kind parts))
    (not : ∀ operand, motive operand → motive (not operand))
    (verbatim : ∀ text, motive (verbatim text)) (condition : Condition) : motive condition := by
  refine Condition.rec literal var comparison junction not verbatim ?_ ?_ condition
  · exact List.forall_mem_nil motive
  · intro part rest onPart onRest
    exact List.forall_mem_cons.mpr ⟨onPart, onRest⟩

/-- The nodes of several conditions are those of each of them. -/
@[simp]
theorem mem_nodesOf_iff {node : Condition} {parts : List Condition} :
    node ∈ nodesOf parts ↔ ∃ part ∈ parts, node ∈ part.nodes := by
  induction parts with
  | nil => simp [nodesOf]
  | cons part rest inductionHypothesis => simp [nodesOf, inductionHypothesis]

/-- What holds of all nodes of a junction holds of it and of all nodes of its parts. -/
theorem forall_nodes_junction_iff
    {property : Condition → Prop} {kind : Junction} {parts : List Condition} :
    (∀ node ∈ (junction kind parts).nodes, property node) ↔
      property (junction kind parts) ∧ ∀ part ∈ parts, ∀ node ∈ part.nodes, property node := by
  rw [nodes, List.forall_mem_cons]
  simp only [mem_nodesOf_iff]
  constructor
  · intro everywhere
    exact ⟨everywhere.1, fun part member node inPart => everywhere.2 node ⟨part, member, inPart⟩⟩
  · intro everywhere
    refine ⟨everywhere.1, ?_⟩
    rintro node ⟨part, member, inPart⟩
    exact everywhere.2 part member node inPart

/-- What a condition contributes to a junction settles to the result of the condition. -/
theorem settle_splice
    (env : Env) (kind : Junction) (condition : Condition) :
    kind.settle ((splice kind condition).map (eval env)) = eval env condition := by
  cases condition with
  | junction inner parts =>
      by_cases same : inner = kind
      · simp only [splice, same, if_true, eval_junction]
      · simp only [splice, same, if_false, List.map_cons, List.map_nil, Junction.settle_singleton]
  | _ => simp only [splice, List.map_cons, List.map_nil, Junction.settle_singleton]

/-- Splicing parts into a junction keeps what it comes to. -/
theorem settle_flatMap_splice
    (env : Env) (kind : Junction) (parts : List Condition) :
    kind.settle ((parts.flatMap (splice kind)).map (eval env)) =
      kind.settle (parts.map (eval env)) := by
  induction parts with
  | nil => rfl
  | cons part rest inductionHypothesis =>
      rw [List.flatMap_cons, List.map_append, List.map_cons, Junction.settle_append,
        settle_splice]
      exact Junction.settle_cons_congr kind _ inductionHypothesis

@[simp]
theorem eval_ofParts
    (env : Env) (kind : Junction) (parts : List Condition) :
    eval env (ofParts kind parts) = kind.settle (parts.map (eval env)) := by
  match parts with
  | [] => rfl
  | [part] => exact (Junction.settle_singleton kind _).symm
  | first :: second :: rest => simp only [ofParts, eval_junction]

/-- Joined conditions evaluate like the list of them, down to the error. -/
@[simp]
theorem eval_join
    (env : Env) (kind : Junction) (parts : List Condition) :
    eval env (join kind parts) = kind.settle (parts.map (eval env)) := by
  rw [join, eval_ofParts, settle_flatMap_splice]

/-- The truth value of a condition, if it has one. -/
def truth (env : Env) (condition : Condition) : Option Bool :=
  (condition.eval env).toOption

/-- A condition has a truth value where it evaluates to one. -/
theorem truth_eq_some_iff
    {env : Env} {condition : Condition} {value : Bool} :
    condition.truth env = some value ↔ condition.eval env = .ok value :=
  toOption_eq_some_iff

@[simp]
theorem truth_junction
    (env : Env) (kind : Junction) (parts : List Condition) :
    (junction kind parts).truth env = kind.truth (parts.map (truth env)) := by
  rw [truth, eval_junction, Junction.settle_toOption, List.map_map]
  rfl

@[simp]
theorem truth_not (env : Env) (operand : Condition) :
    (not operand).truth env = (operand.truth env).map (!·) := by
  rw [truth, truth, eval]
  cases operand.eval env <;> rfl

@[simp]
theorem truth_ofParts
    (env : Env) (kind : Junction) (parts : List Condition) :
    (ofParts kind parts).truth env = kind.truth (parts.map (truth env)) := by
  rw [truth, eval_ofParts, Junction.settle_toOption, List.map_map]
  rfl

theorem truth_flatMap_splice
    (env : Env) (kind : Junction) (parts : List Condition) :
    kind.truth ((parts.flatMap (splice kind)).map (truth env)) =
      kind.truth (parts.map (truth env)) := by
  have settled := congrArg Except.toOption (settle_flatMap_splice env kind parts)
  rwa [Junction.settle_toOption, Junction.settle_toOption, List.map_map, List.map_map] at settled

theorem truth_var (env : Env) (name : String) :
    (var name).truth env = (env.get? name).map Value.truthy := by
  rw [truth, eval, Env.lookup]
  cases env.get? name <;> rfl

theorem truth_comparison (env : Env) (name : String) (op : Comparator) (constant : Value) :
    (comparison name op constant).truth env =
      (env.get? name).bind fun value => (value.related op constant).toOption := by
  rw [truth, eval, Env.lookup]
  cases env.get? name <;> rfl

section Atoms

variable {env other : Env}

mutual

/-- Bindings under which the nodes that read a name have the same truth values give the same truth
value to the whole condition. -/
theorem truth_congr_atoms
    (condition : Condition)
    (same : ∀ atom ∈ condition.nodes, atom.name?.isSome → atom.truth env = atom.truth other) :
    condition.truth env = condition.truth other := by
  match condition with
  | .literal _ => rfl
  | .verbatim _ => rfl
  | .var name => exact same (.var name) List.mem_cons_self rfl
  | .comparison name op constant =>
      exact same (.comparison name op constant) List.mem_cons_self rfl
  | .not operand =>
      have sameOperand :=
        truth_congr_atoms operand fun atom node => same atom (List.mem_cons_of_mem _ node)
      rw [truth_not, truth_not, sameOperand]
  | .junction kind parts =>
      have sameParts :=
        truth_congr_atomsOf parts fun atom node => same atom (List.mem_cons_of_mem _ node)
      rw [truth_junction, truth_junction, sameParts]

theorem truth_congr_atomsOf
    (parts : List Condition)
    (same : ∀ atom ∈ nodesOf parts, atom.name?.isSome → atom.truth env = atom.truth other) :
    parts.map (truth env) = parts.map (truth other) := by
  match parts with
  | [] => rfl
  | part :: rest =>
      have samePart :=
        truth_congr_atoms part fun atom node => same atom (List.mem_append_left _ node)
      have sameRest :=
        truth_congr_atomsOf rest fun atom node => same atom (List.mem_append_right _ node)
      rw [List.map_cons, List.map_cons, samePart, sameRest]

end

end Atoms

end Condition

end Rulebook
