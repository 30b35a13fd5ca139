import Rulebook.Pass
import Rulebook.Proofs.Distinct
import Rulebook.Proofs.Evaluation
import Rulebook.Proofs.Exhaustive

/-!
# Flat conditions

A condition is flat when each of its junctions has two parts or more and none that is a junction
of the same kind. Joining splices one level only, so that a joined condition is flat because its
parts were: the conditions of a built model are flat since every guard on the way to a return is,
and the passes keep them flat, in whatever order they run.
-/

namespace Rulebook

namespace Condition

/-- The kind of a condition that is a junction. -/
def kind? : Condition → Option Junction
  | .junction kind _ => some kind
  | _ => none

/-- A junction at the top has two parts or more, none of them a junction of the same kind. -/
def FlatAtTop : Condition → Prop
  | .junction kind parts => 2 ≤ parts.length ∧ ∀ part ∈ parts, part.kind? ≠ some kind
  | _ => True

/-- Every condition in the condition is flat at its top. -/
def Flat (condition : Condition) : Prop := ∀ node ∈ condition.nodes, node.FlatAtTop

instance (condition : Condition) : Decidable condition.FlatAtTop :=
  match condition with
  | .junction _ _ => inferInstanceAs (Decidable (_ ∧ _))
  | .literal _ | .var _ | .comparison _ _ _ | .not _ | .verbatim _ => .isTrue trivial

instance (condition : Condition) : Decidable condition.Flat :=
  inferInstanceAs (Decidable (∀ node ∈ condition.nodes, node.FlatAtTop))

/-- A junction is flat when it has two parts or more, each flat and of another kind. -/
theorem flat_junction_iff {kind : Junction} {parts : List Condition} :
    (junction kind parts).Flat ↔
      2 ≤ parts.length ∧ ∀ part ∈ parts, part.kind? ≠ some kind ∧ part.Flat := by
  rw [Flat, forall_nodes_junction_iff, FlatAtTop, and_assoc, ← forall₂_and]
  rfl

@[simp]
theorem flat_not_iff {operand : Condition} : (not operand).Flat ↔ operand.Flat := by
  simp [Flat, nodes, FlatAtTop]

private theorem flat_of_nodes {condition : Condition} (single : condition.nodes = [condition])
    (atTop : condition.FlatAtTop) : condition.Flat := by
  intro node member
  rw [single] at member
  rw [List.mem_singleton.mp member]
  exact atTop

@[simp]
theorem flat_literal (value : Bool) : (literal value).Flat := flat_of_nodes rfl trivial

@[simp]
theorem flat_var (name : String) : (var name).Flat := flat_of_nodes rfl trivial

@[simp]
theorem flat_comparison (name : String) (op : Comparator) (constant : Value) :
    (comparison name op constant).Flat :=
  flat_of_nodes rfl trivial

@[simp]
theorem flat_verbatim (text : String) : (verbatim text).Flat := flat_of_nodes rfl trivial

theorem kind?_eq_some_iff {condition : Condition} {kind : Junction} :
    condition.kind? = some kind ↔ ∃ parts, condition = junction kind parts := by
  cases condition <;> simp [kind?]

@[simp]
theorem splice_junction (kind : Junction) (parts : List Condition) :
    splice kind (junction kind parts) = parts :=
  if_pos rfl

/-- A condition of another kind is spliced as a single part. -/
theorem splice_of_kind_ne {kind : Junction} {condition : Condition}
    (different : condition.kind? ≠ some kind) : splice kind condition = [condition] := by
  cases condition with
  | junction inner parts =>
      have notSame : inner ≠ kind := fun same => different (congrArg some same)
      exact if_neg notSame
  | _ => rfl

private theorem ne_junction_singleton (kind : Junction) (part : Condition) :
    part ≠ junction kind [part] := by
  intro same
  have sameSize := congrArg sizeOf same
  simp at sameSize
  omega

/-- Joined parts form a junction once there are two of them. -/
theorem ofParts_eq_junction_iff {kind : Junction} {parts : List Condition} :
    ofParts kind parts = junction kind parts ↔ 2 ≤ parts.length := by
  match parts with
  | [] => simp [ofParts]
  | [part] => simp [ofParts, ne_junction_singleton]
  | first :: second :: rest => simp [ofParts]

/-- What may stand in a junction of the kind. -/
def Fits (kind : Junction) (part : Condition) : Prop := part.kind? ≠ some kind ∧ part.Flat

/-- What a flat condition is spliced into has the parts that a flat junction may have. -/
theorem fits_of_mem_splice {kind : Junction} {condition part : Condition}
    (flat : condition.Flat) (member : part ∈ splice kind condition) : part.Fits kind := by
  cases condition with
  | junction inner parts =>
      by_cases same : inner = kind
      · rw [splice, if_pos same] at member
        rw [← same]
        exact (flat_junction_iff.mp flat).2 part member
      · rw [splice, if_neg same, List.mem_singleton] at member
        have apart : (junction inner parts).kind? ≠ some kind := fun equality =>
          same (Option.some.inj equality)
        rw [member]
        exact ⟨apart, flat⟩
  | literal | var | comparison | not | verbatim =>
      rw [splice.eq_def, List.mem_singleton] at member
      rw [member]
      exact ⟨by simp [kind?], flat⟩

theorem flat_ofParts {kind : Junction} {parts : List Condition}
    (fits : ∀ part ∈ parts, part.Fits kind) : (ofParts kind parts).Flat := by
  match parts with
  | [] => exact flat_literal _
  | [part] => exact (fits part List.mem_cons_self).2
  | first :: second :: rest =>
      have several : 2 ≤ (first :: second :: rest).length := by
        rw [List.length_cons, List.length_cons]
        omega
      exact flat_junction_iff.mpr ⟨several, fits⟩

/-- Joining splices one level, and that is enough for flat parts. -/
theorem flat_join {kind : Junction} {parts : List Condition}
    (flat : ∀ part ∈ parts, part.Flat) : (join kind parts).Flat := by
  refine flat_ofParts ?_
  intro spliced member
  obtain ⟨part, isPart, inPart⟩ := List.mem_flatMap.mp member
  exact fits_of_mem_splice (flat part isPart) inPart

private theorem flat_of_ofLink? {left right : Expr} {relation : Relation} {condition : Condition}
    (isLink : ofLink? left relation right = some condition) : condition.Flat := by
  unfold ofLink? at isLink
  split at isLink
  · cases isLink
  · split at isLink
    · cases isLink
      exact flat_comparison _ _ _
    · cases isLink
      exact flat_comparison _ _ _
    · cases isLink

private theorem flat_of_ofLinks? {left : Expr} {links : List (Relation × Expr)}
    {conditions : List Condition} (areLinks : ofLinks? left links = some conditions) :
    ∀ condition ∈ conditions, condition.Flat := by
  induction links generalizing left conditions with
  | nil =>
      cases areLinks
      simp
  | cons link rest inductionHypothesis =>
      obtain ⟨relation, right⟩ := link
      rw [ofLinks?] at areLinks
      split at areLinks
      · rename_i first others isFirst areOthers
        cases areLinks
        rw [List.forall_mem_cons]
        exact ⟨flat_of_ofLink? isFirst, inductionHypothesis areOthers⟩
      · cases areLinks

/-- The condition of an expression is flat: joining works from the inside to the outside. -/
theorem flat_ofExpr (source : String) (expr : Expr) : (ofExpr source expr).Flat := by
  match expr with
  | .bool _ value => exact flat_literal value
  | .name _ text => exact flat_var text
  | .connective _ op left right =>
      have leftFlat := flat_ofExpr source left
      have rightFlat := flat_ofExpr source right
      rw [ofExpr]
      refine flat_join ?_
      simp [leftFlat, rightFlat]
  | .not _ operand =>
      rw [ofExpr]
      exact flat_not_iff.mpr (flat_ofExpr source operand)
  | .compare _ left links =>
      rw [ofExpr]
      split
      · rename_i conditions areLinks
        exact flat_join (flat_of_ofLinks? areLinks)
      · exact flat_verbatim _
  | .int _ _ | .float _ _ | .string _ _ | .markedString _ _ | .none _ | .arithmetic _ _ _ _
  | .signed _ _ _ | .call _ _ _ | .attribute _ _ _ | .subscript _ _ _ | .tuple _ _ | .list _ _
  | .conditional _ _ _ _ =>
      exact flat_verbatim _

private theorem flat_foldJunction {kind : Junction} {parts : List Condition}
    (flat : ∀ part ∈ parts, part.Flat) : (foldJunction kind parts).Flat := by
  rw [foldJunction]
  split
  · exact flat_literal _
  · refine flat_ofParts ?_
    intro spliced member
    rw [SortedSet.mem_ofList_iff compare_eq_iff] at member
    obtain ⟨part, isKept, inPart⟩ := List.mem_flatMap.mp member
    have isPart : part ∈ parts := List.mem_of_mem_filter isKept
    exact fits_of_mem_splice (flat part isPart) inPart

mutual

/-- Once negations stand at leaves only, folding reaches every junction. -/
theorem flat_fold_pushNegation (negated : Bool) (condition : Condition) :
    (fold (pushNegation negated condition)).Flat := by
  cases condition with
  | literal value => exact flat_literal _
  | var name =>
      cases negated with
      | false => exact flat_var name
      | true => exact flat_not_iff.mpr (flat_var name)
  | comparison name op constant => exact flat_comparison _ _ _
  | junction kind parts =>
      rw [pushNegation, fold]
      exact flat_foldJunction (flat_foldAll_pushNegations negated parts)
  | not operand =>
      rw [pushNegation]
      exact flat_fold_pushNegation (!negated) operand
  | verbatim text =>
      cases negated with
      | false => exact flat_verbatim text
      | true => exact flat_not_iff.mpr (flat_verbatim text)

theorem flat_foldAll_pushNegations (negated : Bool) (parts : List Condition) :
    ∀ part ∈ foldAll (pushNegations negated parts), part.Flat := by
  cases parts with
  | nil => simp [pushNegations, foldAll]
  | cons part rest =>
      rw [pushNegations, foldAll, List.forall_mem_cons]
      exact ⟨flat_fold_pushNegation negated part, flat_foldAll_pushNegations negated rest⟩

end

theorem flat_normalize (condition : Condition) : condition.normalize.Flat :=
  flat_fold_pushNegation false condition

end Condition

/-! ## Built models -/

section Walking

variable (source : String)

mutual

/-- Under flat guards, a block yields rules with flat conditions. -/
theorem flat_walkBlock
    {guards : List Condition} (flat : ∀ guard ∈ guards, guard.Flat) (body : List Stmt) :
    ∀ rule ∈ (walkBlock source guards body).rules, rule.condition.Flat := by
  match body with
  | [] =>
      rw [walkBlock]
      simp
  | stmt :: rest =>
      have first := flat_walkStmt flat stmt
      have others := flat_walkBlock flat rest
      rw [walkBlock]
      split
      · exact first
      · exact List.forall_mem_append.mpr ⟨first, others⟩

theorem flat_walkStmt
    {guards : List Condition} (flat : ∀ guard ∈ guards, guard.Flat) (stmt : Stmt) :
    ∀ rule ∈ (walkStmt source guards stmt).rules, rule.condition.Flat := by
  match stmt with
  | .returning _ value =>
      rw [walkStmt, List.forall_mem_singleton]
      exact Condition.flat_join flat
  | .choice _ chain =>
      rw [walkStmt]
      exact flat_walkChain flat chain
  | .function _ _ _ _ _ | .classDef _ _ _ _ | .pass _ | .breaking _ | .continuing _ | .expr _ _
  | .assign _ _ _ _ | .forEach _ _ _ _ | .whileLoop _ _ _ =>
      rw [walkStmt.eq_def]
      simp

theorem flat_walkChain
    {guards : List Condition} (flat : ∀ guard ∈ guards, guard.Flat) (chain : Chain) :
    ∀ rule ∈ (walkChain source guards chain).rules, rule.condition.Flat := by
  match chain with
  | .done =>
      rw [walkChain]
      simp
  | .otherwise body =>
      rw [walkChain]
      exact flat_walkBlock flat body
  | .branch test body rest =>
      have isFlat : (Condition.ofExpr source test).Flat := Condition.flat_ofExpr source test
      have taken : ∀ guard ∈ guards ++ [Condition.ofExpr source test], guard.Flat :=
        List.forall_mem_append.mpr ⟨flat, List.forall_mem_singleton.mpr isFlat⟩
      have passed : ∀ guard ∈ guards ++ [.not (Condition.ofExpr source test)], guard.Flat :=
        List.forall_mem_append.mpr
          ⟨flat, List.forall_mem_singleton.mpr (Condition.flat_not_iff.mpr isFlat)⟩
      rw [walkChain]
      exact List.forall_mem_append.mpr ⟨flat_walkBlock taken body, flat_walkChain passed rest⟩

end

end Walking

/-- Every condition of the model is flat. -/
def Model.Flat (model : Model) : Prop := ∀ condition ∈ model.conditions, condition.Flat

theorem Model.flat_iff {model : Model} :
    model.Flat ↔ ∀ rule ∈ model.rules, rule.condition.Flat := by
  simp [Model.Flat, Model.conditions]

/-- A built model has flat conditions, since its walk starts without guards. -/
theorem Model.flat_ofSource
    {source : String} {target : Option String} {strict : Bool} {model : Model}
    (built : Model.ofSource source target strict = .ok model) : model.Flat := by
  obtain ⟨function, fromFunction⟩ := exists_function_of_ofSource built
  have noGuards : ∀ guard ∈ ([] : List Condition), guard.Flat := by simp
  rw [Model.flat_iff, rules_of_ofFunction fromFunction]
  exact flat_walkBlock source noGuards function.body

private theorem flat_groupCondition {members : List Condition}
    (flat : ∀ member ∈ members, member.Flat) : (groupCondition members).Flat := by
  rw [groupCondition]
  split
  · exact Condition.flat_literal true
  · exact Condition.flat_join flat

namespace Pass

/-- One pass keeps the conditions flat. Simplifying makes them so. -/
theorem flat_run {model : Model} (flat : model.Flat) (pass : Pass) :
    (pass.run model).model.Flat := by
  cases pass with
  | simplify =>
      rw [Model.flat_iff]
      intro rule member
      obtain ⟨original, _, rfl⟩ := List.mem_map.mp member
      exact Condition.flat_normalize original.condition
  | merge =>
      rw [Model.flat_iff] at flat ⊢
      intro rule member
      obtain ⟨result, _, rfl⟩ := List.mem_map.mp member
      refine flat_groupCondition ?_
      intro condition isMember
      obtain ⟨original, isKept, rfl⟩ := List.mem_map.mp isMember
      exact flat original (List.mem_of_mem_filter isKept)
  | redundancy => exact flat

/-- Passes keep the conditions flat in whatever order they run. -/
theorem flat_runAll {model : Model} (flat : model.Flat) (passes : List Pass) :
    (runAll model passes).model.Flat := by
  induction passes generalizing model with
  | nil => exact flat
  | cons pass rest inductionHypothesis => exact inductionHypothesis (flat_run flat pass)

end Pass

/-- The conditions of a built model are flat, and no sequence of passes changes that of a model
with flat conditions. -/
theorem conditions_stay_flat :
    (∀ (source : String) (target : Option String) (strict : Bool) (model : Model),
      Model.ofSource source target strict = .ok model →
        ∀ condition ∈ model.conditions, condition.Flat) ∧
    ∀ (model : Model) (passes : List Pass), (∀ condition ∈ model.conditions, condition.Flat) →
      ∀ condition ∈ (Pass.runAll model passes).model.conditions, condition.Flat := by
  constructor
  · intro source target strict model built
    exact Model.flat_ofSource built
  · intro model passes flat
    exact Pass.flat_runAll flat passes

/-- A disjunction is the guard of the first return and, negated, one of those of the third, which
has the same result. -/
def ticketSource : String :=
  "def ticket(age, member):\n" ++
  "    if member and age or 0 < age < 6:\n" ++
  "        return 'free'\n" ++
  "    elif age == 6:\n" ++
  "        return 'half'\n" ++
  "    else:\n" ++
  "        return 'free'\n"

def ticketModel : Model :=
  let entitled : Condition :=
    .junction .or
      [.junction .and [.var "member", .var "age"],
        .junction .and [.comparison "age" .gt (.int 0), .comparison "age" .lt (.int 6)]]
  let six : Condition := .comparison "age" .eq (.int 6)
  { functionName := "ticket"
    parameters := [⟨"age", .range 0 6⟩, ⟨"member", .boolean⟩]
    rules :=
      [⟨entitled, .value (.string "free")⟩,
        ⟨.junction .and [.not entitled, six], .value (.string "half")⟩,
        ⟨.junction .and [.not entitled, .not six], .value (.string "free")⟩] }

theorem conditions_stay_flat_ticket :
    Model.ofSource ticketSource none false = .ok ticketModel ∧
      (∀ condition ∈ ticketModel.conditions, condition.Flat) ∧
      ∀ condition ∈ (Pass.runAll ticketModel [.merge, .simplify, .merge]).model.conditions,
        condition.Flat := by
  have built : Model.ofSource ticketSource none false = .ok ticketModel :=
    toOption_eq_some_iff.mp (by decide +kernel)
  have flat := conditions_stay_flat.1 ticketSource none false ticketModel built
  exact ⟨built, flat, conditions_stay_flat.2 ticketModel [.merge, .simplify, .merge] flat⟩

end Rulebook
