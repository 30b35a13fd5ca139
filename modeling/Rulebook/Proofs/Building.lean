import Rulebook.Proofs.Evaluation
import Rulebook.Proofs.FirstMatch
import Rulebook.Proofs.Interpreter

/-!
# The rules of a function decide as the function does

The conditions of a function are evaluated with an order-independent junction, and the rules of a
function are guarded by every test that leads to their return. Whenever running the function ends
without an error, the first rule that matches has the result that the function returns, and no
rule matches where the function returns nothing.

The induction over blocks and choices carries the guards in one of two states. They are *granted*
when all of them hold, and then the rules decide as the block does. They are *refuted* when one of
them fails, and then every rule fails, whatever errors its other guards may raise.
-/

namespace Rulebook

@[simp]
theorem Comparator.holds_flip (op : Comparator) (ordering : Ordering) :
    op.flip.holds ordering.swap = op.holds ordering := by
  cases op <;> cases ordering <;> rfl

/-- Exchanging the sides and turning the comparator around gives the same answer. Only the errors of
values that cannot be ordered name them the other way. -/
theorem Value.related_flip (left : Value) (op : Comparator) (right : Value) :
    (right.related op.flip left).toOption = (left.related op right).toOption := by
  have holdsInt :
      ∀ first second : Int64,
        op.flip.holds (Ord.compare second.toInt first.toInt) =
          op.holds (Ord.compare first.toInt second.toInt) := by
    intro first second
    have swapped :
        Ord.compare second.toInt first.toInt = (Ord.compare first.toInt second.toInt).swap :=
      Std.OrientedCmp.eq_swap
    rw [swapped, op.holds_flip]
  have holdsText :
      ∀ first second : String,
        op.flip.holds (Text.compareText second first) =
          op.holds (Text.compareText first second) := by
    intro first second
    rw [Text.compareText_swap second first, op.holds_flip]
  cases left <;> cases right <;>
    simp only [related, asInt?, holdsInt, holdsText] <;>
    cases op <;> simp [Comparator.flip, Except.toOption, eq_comm]

/-! ## Conditions -/

section Conditions

variable (source : String) (env : Env)

private theorem Expr.isName_iff {expr : Expr} :
    expr.isName = true ↔ ∃ span text, expr = .name span text := by
  cases expr <;> simp [isName]

private theorem Expr.sideValue_of_constant
    {expr : Expr} {constant : Value} (isConstant : expr.constant? = some constant) :
    expr.sideValue source env = .ok constant := by
  cases expr <;> simp_all [sideValue, constant?]

private theorem Relation.comparator?_eq_operator?
    {left right : Expr} {relation : Relation}
    (allowed : (!relation.isIdentity || left.isNone || right.isNone) = true) :
    relation.comparator? left right = relation.operator? := by
  cases relation <;> simp_all [comparator?, operator?, isIdentity]

namespace Condition

/-- A link that can be tested has a condition, and it is true or false with the link. -/
theorem ofLink?_of_testable
    {left right : Expr} {relation : Relation}
    (testable : linkTestable left relation right = true) :
    ∃ condition, ofLink? left relation right = some condition ∧
      ∀ value, testLink source env left relation right = .ok value →
        condition.eval env = .ok value := by
  simp only [linkTestable, Bool.and_eq_true, Bool.or_eq_true, Option.isSome_iff_exists] at testable
  obtain ⟨⟨sides, op, isOp⟩, allowed⟩ := testable
  have compared : relation.comparator? left right = some op := by
    rw [← isOp]
    apply Relation.comparator?_eq_operator?
    simpa [or_assoc] using allowed
  rcases sides with ⟨leftName, constant, isConstant⟩ | ⟨⟨constant, isConstant⟩, rightName⟩
  · obtain ⟨span, name, rfl⟩ := Expr.isName_iff.mp leftName
    refine ⟨.comparison name op constant, by simp [ofLink?, compared, isConstant], ?_⟩
    intro value tested
    rw [testLink, isOp, Expr.sideValue_of_constant source env isConstant] at tested
    simp only [Expr.sideValue] at tested
    rw [eval]
    cases found : env.lookup name with
    | ok bound => simpa [found] using tested
    | error error => simp [found] at tested
  · obtain ⟨span, name, rfl⟩ := Expr.isName_iff.mp rightName
    have notName : ∀ other text, left ≠ .name other text := by
      rintro other text rfl
      simp [Expr.constant?] at isConstant
    refine ⟨.comparison name op.flip constant, ?_, ?_⟩
    · simp only [ofLink?, compared, isConstant]
      split <;> simp_all
    · intro value tested
      rw [testLink, isOp, Expr.sideValue_of_constant source env isConstant] at tested
      simp only [Expr.sideValue] at tested
      rw [eval]
      cases found : env.lookup name with
      | ok bound =>
          rw [found] at tested
          rw [← toOption_eq_some_iff, Value.related_flip, toOption_eq_some_iff]
          exact tested
      | error error => simp [found] at tested

/-- The links of a chain that can be tested have conditions, whose conjunction is true or false
with the chain. -/
theorem ofLinks?_of_testable
    {left : Expr} {links : List (Relation × Expr)}
    (testable : linksTestable left links = true) :
    ∃ conditions, ofLinks? left links = some conditions ∧
      ∀ value, testLinks source env left links = .ok value →
        Junction.and.settle (conditions.map (eval env)) = .ok value := by
  induction links generalizing left with
  | nil => exact ⟨[], rfl, fun value tested => tested⟩
  | cons link rest inductionHypothesis =>
      obtain ⟨relation, right⟩ := link
      simp only [linksTestable, Bool.and_eq_true] at testable
      obtain ⟨condition, isCondition, conditionMeaning⟩ :=
        ofLink?_of_testable source env testable.1
      obtain ⟨conditions, areConditions, conditionsMeaning⟩ := inductionHypothesis testable.2
      refine ⟨condition :: conditions, by rw [ofLinks?, isCondition, areConditions], ?_⟩
      intro value tested
      rw [testLinks] at tested
      rw [List.map_cons]
      cases first : testLink source env left relation right with
      | error error => simp [first] at tested
      | ok holds =>
          rw [conditionMeaning holds first]
          rw [first] at tested
          cases holds with
          | true => exact conditionsMeaning value tested
          | false => exact tested

/-- The condition of an expression is true or false wherever testing the expression ends without
an error. -/
theorem eval_ofExpr_of_test
    (expr : Expr) (value : Bool) (tested : expr.test source env = .ok value) :
    (ofExpr source expr).eval env = .ok value := by
  match expr with
  | .bool _ _ => exact tested
  | .name _ _ => exact tested
  | .connective _ .and left right =>
      rw [Expr.test] at tested
      rw [ofExpr, eval_join, List.map_cons, List.map_cons, List.map_nil]
      cases first : left.test source env with
      | error error => simp [first] at tested
      | ok holds =>
          rw [eval_ofExpr_of_test left holds first]
          rw [first] at tested
          cases holds with
          | true =>
              rw [eval_ofExpr_of_test right value tested]
              exact Junction.settle_singleton .and _
          | false => exact tested
  | .connective _ .or left right =>
      rw [Expr.test] at tested
      rw [ofExpr, eval_join, List.map_cons, List.map_cons, List.map_nil]
      cases first : left.test source env with
      | error error => simp [first] at tested
      | ok holds =>
          rw [eval_ofExpr_of_test left holds first]
          rw [first] at tested
          cases holds with
          | true => exact tested
          | false =>
              rw [eval_ofExpr_of_test right value tested]
              exact Junction.settle_singleton .or _
  | .not _ operand =>
      rw [Expr.test] at tested
      rw [ofExpr, eval]
      cases inner : operand.test source env with
      | error error => simp [inner, Except.map] at tested
      | ok holds =>
          rw [eval_ofExpr_of_test operand holds inner]
          rwa [inner] at tested
  | .compare span left links =>
      rw [Expr.test] at tested
      split at tested
      · rename_i testable
        obtain ⟨conditions, areConditions, meaning⟩ := ofLinks?_of_testable source env testable
        rw [ofExpr, areConditions]
        change eval env (join .and conditions) = _
        rw [eval_join]
        exact meaning value tested
      · cases tested
  | .int _ _ | .float _ _ | .string _ _ | .markedString _ _ | .none _ | .arithmetic _ _ _ _
  | .signed _ _ _ | .call _ _ _ | .attribute _ _ _ | .subscript _ _ _ | .tuple _ _ | .list _ _
  | .conditional _ _ _ _ =>
      cases tested

end Condition

end Conditions

/-- The rules decide as given: the first that matches has this result, or none matches. -/
def Decides (env : Env) (rules : List Rule) : Option Literal → Prop
  | none => firstMatch env rules = .ok none
  | some result =>
      ∃ index rule, firstMatch env rules = .ok (some index) ∧
        rules[index]? = some rule ∧ rule.result = result

private theorem decides_append_of_none
    {env : Env} {rules others : List Rule} {outcome : Option Literal}
    (noMatch : firstMatch env rules = .ok none) (decides : Decides env others outcome) :
    Decides env (rules ++ others) outcome := by
  cases outcome with
  | none =>
      change firstMatch env others = .ok none at decides
      change firstMatch env (rules ++ others) = .ok none
      rw [firstMatch_append, noMatch, decides]
      rfl
  | some result =>
      obtain ⟨index, rule, selected, found, returned⟩ := decides
      refine ⟨index + rules.length, rule, ?_, ?_, returned⟩
      · rw [firstMatch_append, noMatch, selected]
        rfl
      · rw [List.getElem?_append_right (Nat.le_add_left _ _), Nat.add_sub_cancel]
        exact found

private theorem decides_append_of_some
    {env : Env} {rules others : List Rule} {result : Literal}
    (decides : Decides env rules (some result)) :
    Decides env (rules ++ others) (some result) := by
  obtain ⟨index, rule, selected, found, returned⟩ := decides
  refine ⟨index, rule, ?_, ?_, returned⟩
  · rw [firstMatch_append, selected]
  · rw [List.getElem?_append_left (List.getElem?_eq_some_iff.mp found).1]
    exact found

/-! ## Guards -/

/-- All guards hold. -/
def Granted (env : Env) (guards : List Condition) : Prop :=
  ∀ guard ∈ guards, guard.eval env = .ok true

/-- Some guard fails. Others may have no truth value. -/
def Refuted (env : Env) (guards : List Condition) : Prop :=
  ∃ guard ∈ guards, guard.eval env = .ok false

private theorem Granted.append
    {env : Env} {guards : List Condition} {guard : Condition}
    (granted : Granted env guards) (holds : guard.eval env = .ok true) :
    Granted env (guards ++ [guard]) := by
  intro other member
  rcases List.mem_append.mp member with earlier | last
  · exact granted other earlier
  · rw [List.mem_singleton.mp last]
    exact holds

private theorem Refuted.append_left
    {env : Env} {guards : List Condition} (others : List Condition)
    (refuted : Refuted env guards) :
    Refuted env (guards ++ others) := by
  obtain ⟨guard, member, fails⟩ := refuted
  exact ⟨guard, List.mem_append_left _ member, fails⟩

private theorem refuted_append_singleton
    {env : Env} (guards : List Condition) {guard : Condition}
    (fails : guard.eval env = .ok false) :
    Refuted env (guards ++ [guard]) :=
  ⟨guard, List.mem_append_right _ List.mem_cons_self, fails⟩

private theorem Granted.eval_join
    {env : Env} {guards : List Condition} (granted : Granted env guards) :
    (Condition.join .and guards).eval env = .ok true := by
  rw [Condition.eval_join, ← toOption_eq_some_iff, Junction.settle_toOption]
  apply (Junction.truth_eq_unit_iff .and _).mpr
  intro part member
  simp only [List.mem_map] at member
  obtain ⟨_, ⟨guard, isGuard, rfl⟩, rfl⟩ := member
  rw [granted guard isGuard]
  rfl

private theorem Refuted.eval_join
    {env : Env} {guards : List Condition} (refuted : Refuted env guards) :
    (Condition.join .and guards).eval env = .ok false := by
  obtain ⟨guard, isGuard, fails⟩ := refuted
  rw [Condition.eval_join, ← toOption_eq_some_iff, Junction.settle_toOption]
  apply (Junction.truth_eq_decisive_iff .and _).mpr
  simp only [List.mem_map]
  refine ⟨_, ⟨guard, isGuard, rfl⟩, ?_⟩
  rw [fails]
  rfl

section Walking

variable (source : String) {env : Env}

mutual

/-- Under refuted guards every rule of a block fails. -/
theorem walkBlock_of_refuted
    {guards : List Condition} (refuted : Refuted env guards) (body : List Stmt) :
    ∀ rule ∈ (walkBlock source guards body).rules, rule.condition.eval env = .ok false := by
  match body with
  | [] => simp [walkBlock]
  | stmt :: rest =>
      have first := walkStmt_of_refuted refuted stmt
      have others := walkBlock_of_refuted refuted rest
      rw [walkBlock]
      split
      · exact first
      · intro rule member
        rcases List.mem_append.mp member with inFirst | inOthers
        · exact first rule inFirst
        · exact others rule inOthers

theorem walkStmt_of_refuted
    {guards : List Condition} (refuted : Refuted env guards) (stmt : Stmt) :
    ∀ rule ∈ (walkStmt source guards stmt).rules, rule.condition.eval env = .ok false := by
  match stmt with
  | .returning _ value =>
      intro rule member
      rw [List.mem_singleton.mp member]
      exact refuted.eval_join
  | .choice _ chain => exact walkChain_of_refuted refuted chain
  | .function _ _ _ _ _ | .classDef _ _ _ _ | .pass _ | .breaking _ | .continuing _ | .expr _ _
  | .assign _ _ _ _ | .forEach _ _ _ _ | .whileLoop _ _ _ =>
      intro rule member
      cases member

private theorem walkChain_of_refuted
    {guards : List Condition} (refuted : Refuted env guards) (chain : Chain) :
    ∀ rule ∈ (walkChain source guards chain).rules, rule.condition.eval env = .ok false := by
  match chain with
  | .done => simp [walkChain]
  | .otherwise body => exact walkBlock_of_refuted refuted body
  | .branch test body rest =>
      intro rule member
      rcases List.mem_append.mp member with inTaken | inOthers
      · exact walkBlock_of_refuted (refuted.append_left _) body rule inTaken
      · exact walkChain_of_refuted (refuted.append_left _) rest rule inOthers

end

mutual

/-- Where the guards hold, the rules of a block decide as running it does. A block that may fall
off its end is not taken for one that always returns. -/
theorem walkBlock_of_granted
    {guards : List Condition} (granted : Granted env guards) (body : List Stmt)
    {outcome : Option Literal} (ran : runBlock source env body = .ok outcome) :
    Decides env (walkBlock source guards body).rules outcome ∧
      (outcome = none → (walkBlock source guards body).returns = false) := by
  match body with
  | [] =>
      cases ran
      exact ⟨rfl, fun _ => rfl⟩
  | stmt :: rest =>
      rw [runBlock] at ran
      rw [walkBlock]
      cases stmtRan : runStmt source env stmt with
      | error error => simp [stmtRan] at ran
      | ok stmtOutcome =>
          rw [stmtRan] at ran
          obtain ⟨stmtDecides, stmtFalls⟩ := walkStmt_of_granted granted stmt stmtRan
          cases stmtOutcome with
          | some result =>
              cases ran
              split
              · exact ⟨stmtDecides, fun impossible => by cases impossible⟩
              · exact ⟨decides_append_of_some stmtDecides, fun impossible => by cases impossible⟩
          | none =>
              obtain ⟨restDecides, restFalls⟩ := walkBlock_of_granted granted rest ran
              rw [stmtFalls rfl, if_neg Bool.false_ne_true]
              exact ⟨decides_append_of_none stmtDecides restDecides, restFalls⟩

theorem walkStmt_of_granted
    {guards : List Condition} (granted : Granted env guards) (stmt : Stmt)
    {outcome : Option Literal} (ran : runStmt source env stmt = .ok outcome) :
    Decides env (walkStmt source guards stmt).rules outcome ∧
      (outcome = none → (walkStmt source guards stmt).returns = false) := by
  match stmt with
  | .returning _ value =>
      cases ran
      refine ⟨⟨0, _, ?_, rfl, rfl⟩, fun impossible => by cases impossible⟩
      rw [walkStmt, firstMatch, granted.eval_join]
  | .choice _ chain => exact walkChain_of_granted granted chain ran
  | .function _ _ _ _ _ | .classDef _ _ _ _ | .pass _ | .breaking _ | .continuing _ | .expr _ _
  | .assign _ _ _ _ | .forEach _ _ _ _ | .whileLoop _ _ _ =>
      cases ran
      exact ⟨rfl, fun _ => rfl⟩

/-- Where a branch is taken, the rules of the branches after it fail by its negation. Where it is
passed over, its own rules fail by its test. -/
theorem walkChain_of_granted
    {guards : List Condition} (granted : Granted env guards) (chain : Chain)
    {outcome : Option Literal} (ran : runChain source env chain = .ok outcome) :
    Decides env (walkChain source guards chain).rules outcome ∧
      (outcome = none → (walkChain source guards chain).returns = false) := by
  match chain with
  | .done =>
      cases ran
      exact ⟨rfl, fun _ => rfl⟩
  | .otherwise body => exact walkBlock_of_granted granted body ran
  | .branch test body rest =>
      rw [runChain] at ran
      rw [walkChain]
      cases tested : test.test source env with
      | error error => simp [tested] at ran
      | ok holds =>
          rw [tested] at ran
          have condition := Condition.eval_ofExpr_of_test source env test holds tested
          have negation :
              (Condition.not (Condition.ofExpr source test)).eval env = .ok (!holds) := by
            rw [Condition.eval, condition]
            rfl
          cases holds with
          | true =>
              obtain ⟨takenDecides, takenFalls⟩ :=
                walkBlock_of_granted (granted.append condition) body ran
              have othersNone :=
                firstMatch_of_all_false
                  (walkChain_of_refuted source
                    (refuted_append_singleton guards negation) rest)
              cases outcome with
              | some result =>
                  exact ⟨decides_append_of_some takenDecides, fun impossible => by cases impossible⟩
              | none =>
                  refine ⟨decides_append_of_none takenDecides othersNone, fun _ => ?_⟩
                  simp [takenFalls rfl]
          | false =>
              obtain ⟨othersDecide, othersFall⟩ :=
                walkChain_of_granted (granted.append negation) rest ran
              have takenNone :=
                firstMatch_of_all_false
                  (walkBlock_of_refuted source
                    (refuted_append_singleton guards condition) body)
              refine ⟨decides_append_of_none takenNone othersDecide, fun falls => ?_⟩
              simp [othersFall falls]

end

end Walking

private theorem ofProgram_of_locate
    {source : String} {program : Program} {target : Option String} {strict : Bool}
    {function : Function} (located : program.locate target = .ok function) :
    Model.ofProgram source program target strict =
      Model.ofFunction source strict function := by
  rw [Model.ofProgram, located]

/-- The rules of a function are those that a walk over its body meets. -/
theorem rules_of_ofFunction
    {source : String} {strict : Bool} {function : Function} {model : Model}
    (built : Model.ofFunction source strict function = .ok model) :
    model.rules = (walkBlock source [] function.body).rules := by
  rw [Model.ofFunction] at built
  split at built
  · cases built
  · cases built
    rfl

/-- The model of a function exists unless a strict build refuses it, and it decides as the
function does wherever running the function ends without an error. -/
theorem model_decides_as_function
    (source : String) (program : Program) (target : Option String) (strict : Bool)
    (function : Function) (located : program.locate target = .ok function) :
    (strict = false → ∃ model, Model.ofProgram source program target strict = .ok model) ∧
    ∀ model, Model.ofProgram source program target strict = .ok model →
      ∀ env,
        (∀ result, function.run source env = .ok (some result) →
          ∃ index rule, firstMatch env model.rules = .ok (some index) ∧
            model.rules[index]? = some rule ∧ rule.result = result) ∧
        (function.run source env = .ok none → firstMatch env model.rules = .ok none) := by
  rw [ofProgram_of_locate located]
  constructor
  · rintro rfl
    exact ⟨_, rfl⟩
  · intro model built env
    have noGuards : Granted env [] := fun guard member => nomatch member
    rw [rules_of_ofFunction built]
    constructor
    · intro result ran
      exact (walkBlock_of_granted source noGuards function.body ran).1
    · intro ran
      exact (walkBlock_of_granted source noGuards function.body ran).1

/-- A function whose first branch may fall through and whose second reads another name. -/
def fallThroughFunction : Stmt :=
  let here : Span := ⟨0, 0⟩
  let returns (value : Int64) : Stmt := .returning here (some (.int here value))
  .function here ⟨"grade", here⟩ [] none
    [.choice here
      (.branch (.compare here (.int here 0) [(.le, .name here "x"), (.lt, .int here 10)])
        [.choice here (.branch (.name here "y") [returns 1] .done)]
        (.branch (.compare here (.name here "z") [(.same, .none here)]) [returns 2] .done)),
      returns 3]

/-- The name `z` is not bound, but the branch that reads it is not reached. -/
theorem model_decides_as_function_fallThrough :
    ∃ model index rule,
      Model.ofProgram "" ⟨[fallThroughFunction]⟩ none false = .ok model ∧
        firstMatch (.ofList [("x", .int 5), ("y", .bool false)]) model.rules = .ok (some index) ∧
        model.rules[index]? = some rule ∧ rule.result = .value (.int 3) := by
  obtain ⟨built, decides⟩ :=
    model_decides_as_function "" ⟨[fallThroughFunction]⟩ none false _ rfl
  obtain ⟨model, isModel⟩ := built rfl
  have ran := (decides model isModel (.ofList [("x", .int 5), ("y", .bool false)])).1
    (.value (.int 3)) (by decide)
  obtain ⟨index, rule, selected, found, returned⟩ := ran
  exact ⟨model, index, rule, isModel, selected, found, returned⟩

end Rulebook
