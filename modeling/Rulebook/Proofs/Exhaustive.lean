import Rulebook.Proofs.Building

/-!
# Strict builds are exhaustive

A strict build accepts a function only if every path through it returns. This is read off the
statements alone, whereas its rules are matched under bindings that may leave a condition without
a truth value. Still, the rules of such a function never all fail: some rule matches, or the search
for one ends with an error.

The induction carries guards of which none fails. They need not hold: a guard without a truth value
leaves the rules behind it undecided, which is not the same as failing. Of a condition and its
negation one at most fails, so that at a choice the guards of one side can be carried on.
-/

namespace Rulebook

section Guards

variable {env : Env} {guards : List Condition}

private theorem refuted_of_eval_join
    (fails : (Condition.join .and guards).eval env = .ok false) :
    Refuted env guards := by
  rw [Condition.eval_join, ← toOption_eq_some_iff, Junction.settle_toOption] at fails
  have decisive := (Junction.truth_eq_decisive_iff .and _).mp fails
  simp only [List.mem_map] at decisive
  obtain ⟨_, ⟨guard, isGuard, rfl⟩, isFalse⟩ := decisive
  exact ⟨guard, isGuard, toOption_eq_some_iff.mp isFalse⟩

private theorem Refuted.of_append_singleton
    {guard : Condition} (refuted : Refuted env (guards ++ [guard])) :
    Refuted env guards ∨ guard.eval env = .ok false := by
  obtain ⟨other, member, fails⟩ := refuted
  rcases List.mem_append.mp member with earlier | last
  · exact .inl ⟨other, earlier, fails⟩
  · rw [List.mem_singleton.mp last] at fails
    exact .inr fails

private theorem eval_not_ne_false
    {condition : Condition} (fails : condition.eval env = .ok false) :
    (Condition.not condition).eval env ≠ .ok false := by
  rw [Condition.eval, fails]
  simp [Except.map]

end Guards

section Walking

variable (source : String) {env : Env}

mutual

/-- The rules of a block that always returns do not all fail, unless a guard does. -/
theorem walkBlock_of_returns
    {guards : List Condition} (unrefuted : ¬ Refuted env guards) (body : List Stmt)
    (returns : (walkBlock source guards body).returns = true) :
    firstMatch env (walkBlock source guards body).rules ≠ .ok none := by
  match body with
  | [] => cases returns
  | stmt :: rest =>
      rw [walkBlock] at returns ⊢
      by_cases firstReturns : (walkStmt source guards stmt).returns = true
      · rw [if_pos firstReturns]
        exact walkStmt_of_returns unrefuted stmt firstReturns
      · rw [if_neg firstReturns] at returns ⊢
        intro noMatch
        have restNone := (firstMatch_append_eq_none noMatch).2
        exact walkBlock_of_returns unrefuted rest returns restNone

theorem walkStmt_of_returns
    {guards : List Condition} (unrefuted : ¬ Refuted env guards) (stmt : Stmt)
    (returns : (walkStmt source guards stmt).returns = true) :
    firstMatch env (walkStmt source guards stmt).rules ≠ .ok none := by
  match stmt with
  | .returning _ value =>
      have notFalse : (Condition.join .and guards).eval env ≠ .ok false :=
        fun fails => unrefuted (refuted_of_eval_join fails)
      rw [walkStmt, firstMatch]
      split
      · simp
      · simp
      · rename_i fails
        exact absurd fails notFalse
  | .choice _ chain => exact walkChain_of_returns unrefuted chain returns
  | .function _ _ _ _ _ | .classDef _ _ _ _ | .pass _ | .breaking _ | .continuing _ | .expr _ _
  | .assign _ _ _ _ | .forEach _ _ _ _ | .whileLoop _ _ _ =>
      cases returns

/-- Where the condition of a branch fails, its negation does not, and the branches after it are
exhaustive. Otherwise the branch itself is. -/
theorem walkChain_of_returns
    {guards : List Condition} (unrefuted : ¬ Refuted env guards) (chain : Chain)
    (returns : (walkChain source guards chain).returns = true) :
    firstMatch env (walkChain source guards chain).rules ≠ .ok none := by
  match chain with
  | .done => cases returns
  | .otherwise body => exact walkBlock_of_returns unrefuted body returns
  | .branch test body rest =>
      rw [walkChain] at returns ⊢
      simp only [Bool.and_eq_true] at returns
      obtain ⟨takenReturns, othersReturn⟩ := returns
      intro noMatch
      obtain ⟨takenNone, othersNone⟩ := firstMatch_append_eq_none noMatch
      by_cases fails : (Condition.ofExpr source test).eval env = .ok false
      · refine walkChain_of_returns (fun refuted => ?_) rest othersReturn othersNone
        rcases refuted.of_append_singleton with refuted | negationFails
        · exact unrefuted refuted
        · exact eval_not_ne_false fails negationFails
      · refine walkBlock_of_returns (fun refuted => ?_) body takenReturns takenNone
        rcases refuted.of_append_singleton with refuted | conditionFails
        · exact unrefuted refuted
        · exact fails conditionFails

end

end Walking

private theorem returns_of_strict
    {source : String} {function : Function} {model : Model}
    (built : Model.ofFunction source true function = .ok model) :
    (walkBlock source [] function.body).returns = true := by
  by_contra falls
  rw [Model.ofFunction, if_pos ⟨rfl, falls⟩] at built
  cases built

/-- A model comes from one of the functions of the source. -/
theorem exists_function_of_ofSource
    {source : String} {target : Option String} {strict : Bool} {model : Model}
    (built : Model.ofSource source target strict = .ok model) :
    ∃ function, Model.ofFunction source strict function = .ok model := by
  rw [Model.ofSource] at built
  split at built
  · rw [Model.ofProgram] at built
    split at built
    · rename_i function _
      exact ⟨function, built⟩
    · cases built
  · cases built

/-- Under all bindings whatsoever, a rule of a strictly built model matches or the search for one
ends with an error; it never comes to the end of the rules. -/
theorem strict_build_exhaustive
    (source : String) (target : Option String) (model : Model)
    (built : Model.ofSource source target true = .ok model) (env : Env) :
    firstMatch env model.rules ≠ .ok none ∧
    ((∃ index rule, firstMatch env model.rules = .ok (some index) ∧
        model.rules[index]? = some rule ∧ rule.condition.eval env = .ok true) ∨
      ∃ error, firstMatch env model.rules = .error error) := by
  obtain ⟨function, fromFunction⟩ := exists_function_of_ofSource built
  have unrefuted : ¬ Refuted env [] := fun ⟨_, member, _⟩ => nomatch member
  have notNone : firstMatch env model.rules ≠ .ok none := by
    rw [rules_of_ofFunction fromFunction]
    exact walkBlock_of_returns source unrefuted function.body (returns_of_strict fromFunction)
  refine ⟨notNone, ?_⟩
  cases selection : firstMatch env model.rules with
  | error error => exact .inr ⟨error, rfl⟩
  | ok selected =>
      cases selected with
      | none => exact absurd selection notNone
      | some index =>
          obtain ⟨rule, found, holds⟩ := exists_rule_of_firstMatch selection
          exact .inl ⟨index, rule, rfl, found, holds⟩

/-- A function with a choice inside a choice. -/
def nestedSource : String :=
  "def grade(x, y):\n" ++
  "    if x:\n" ++
  "        if y < 3:\n" ++
  "            return 1\n" ++
  "        else:\n" ++
  "            return 2\n" ++
  "    else:\n" ++
  "        return 3\n"

def nestedModel : Model where
  functionName := "grade"
  parameters := [⟨"x", .boolean⟩, ⟨"y", .range 0 3⟩]
  rules :=
    [⟨.junction .and [.var "x", .comparison "y" .lt (.int 3)], .value (.int 1)⟩,
      ⟨.junction .and [.var "x", .not (.comparison "y" .lt (.int 3))], .value (.int 2)⟩,
      ⟨.not (.var "x"), .value (.int 3)⟩]

/-- Where `x` is not bound, the first rule fails nevertheless, and the second has no truth
value. -/
theorem strict_build_exhaustive_nested :
    Model.ofSource nestedSource none true = .ok nestedModel ∧
      (nestedModel.rules.map fun rule => rule.condition.truth (.ofList [("y", .int 5)])) =
        [some false, none, none] ∧
      firstMatch (.ofList [("y", .int 5)]) nestedModel.rules ≠ .ok none := by
  have built : Model.ofSource nestedSource none true = .ok nestedModel :=
    toOption_eq_some_iff.mp (by decide +kernel)
  exact ⟨built, by decide, (strict_build_exhaustive nestedSource none nestedModel built _).1⟩

end Rulebook
