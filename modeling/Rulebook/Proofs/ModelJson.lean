import Rulebook.Model.Json
import Rulebook.Proofs.Basic
import Mathlib.Data.List.Nodup

/-!
# Reading a written model

The JSON value of a model is read back as the model, in whatever order the fields of its objects
stand: records and kinds are looked up by name. Alternatives are told apart by the tag of an object
with one field, values by being null, a truth value, an integer or a text.
-/

namespace Rulebook

namespace Json

/-- The same value with the fields of its objects in another order, at any depth. -/
inductive Rearranged : Json → Json → Prop
  | null : Rearranged .null .null
  | bool (value : Bool) : Rearranged (.bool value) (.bool value)
  | int (value : Int) : Rearranged (.int value) (.int value)
  | decimal (digits : Int) (places : Nat) :
      Rearranged (.decimal digits places) (.decimal digits places)
  | string (value : String) : Rearranged (.string value) (.string value)
  | array {items others : List Json} :
      List.Forall₂ Rearranged items others → Rearranged (.array items) (.array others)
  | object {fields renewed others : List (String × Json)} :
      fields.map Prod.fst = renewed.map Prod.fst →
      List.Forall₂ Rearranged (fields.map Prod.snd) (renewed.map Prod.snd) →
      renewed.Perm others → Rearranged (.object fields) (.object others)

namespace Rearranged

mutual

theorem refl (json : Json) : json.Rearranged json := by
  match json with
  | .null => exact .null
  | .bool value => exact .bool value
  | .int value => exact .int value
  | .decimal digits places => exact .decimal digits places
  | .string value => exact .string value
  | .array items => exact .array (reflItems items)
  | .object fields => exact .object rfl (reflFields fields) (List.Perm.refl fields)

theorem reflItems (items : List Json) : List.Forall₂ Rearranged items items := by
  match items with
  | [] => exact .nil
  | item :: rest => exact .cons (refl item) (reflItems rest)

theorem reflFields (fields : List (String × Json)) :
    List.Forall₂ Rearranged (fields.map Prod.snd) (fields.map Prod.snd) := by
  match fields with
  | [] => exact .nil
  | (_, value) :: rest => exact .cons (refl value) (reflFields rest)

end

private theorem eq_of_string {text : String} {json : Json}
    (same : (Json.string text).Rearranged json) :
    json = .string text := by
  cases same
  rfl

private theorem exists_tagged {tag : String} {content json : Json}
    (same : (tagged tag content).Rearranged json) :
    ∃ renewed, json = tagged tag renewed ∧ content.Rearranged renewed := by
  cases same with
  | @object _ renewed _ sameNames sameContents permuted =>
      match renewed with
      | [(other, value)] =>
          rw [List.map_cons, List.map_cons] at sameNames sameContents
          have sameTag : tag = other := (List.cons.inj sameNames).1
          rw [List.perm_singleton.mp permuted.symm, ← sameTag]
          exact ⟨value, rfl, (List.forall₂_cons.mp sameContents).1⟩
      | [] => cases sameNames
      | _ :: _ :: _ => cases sameNames

end Rearranged

private theorem field?_of_mem {fields : List (String × Json)}
    (distinct : (fields.map Prod.fst).Nodup)
    {name : String} {content : Json} (member : (name, content) ∈ fields) :
    (object fields).field? name = some content := by
  cases found : fields.reverse.find? fun field => field.1 = name with
  | none =>
      have absent := List.find?_eq_none.mp found (name, content) (List.mem_reverse.mpr member)
      exact absurd (decide_eq_true rfl) absent
  | some field =>
      have accepted := List.find?_some found
      have sameName : field.1 = name := of_decide_eq_true accepted
      have isField : field ∈ fields := List.mem_reverse.mp (List.mem_of_find?_eq_some found)
      have same : field = (name, content) :=
        List.inj_on_of_nodup_map distinct isField member sameName
      rw [field?, found, same]
      rfl

namespace Rearranged

private theorem exists_mem_renewed {fields renewed : List (String × Json)}
    (sameNames : fields.map Prod.fst = renewed.map Prod.fst)
    (sameContents : List.Forall₂ Rearranged (fields.map Prod.snd) (renewed.map Prod.snd))
    {name : String} {content : Json} (member : (name, content) ∈ fields) :
    ∃ value, (name, value) ∈ renewed ∧ content.Rearranged value := by
  induction fields generalizing renewed with
  | nil => cases member
  | cons field rest inductionHypothesis =>
      cases renewed with
      | nil => cases sameNames
      | cons other others =>
          rw [List.map_cons, List.map_cons, List.cons.injEq] at sameNames
          rw [List.map_cons, List.map_cons, List.forall₂_cons] at sameContents
          rcases List.mem_cons.mp member with rfl | later
          · exact ⟨other.2, List.mem_cons.mpr (.inl (Prod.ext sameNames.1 rfl)), sameContents.1⟩
          · obtain ⟨value, isLater, same⟩ :=
              inductionHypothesis sameNames.2 sameContents.2 later
            exact ⟨value, List.mem_cons_of_mem _ isLater, same⟩

/-- Every field of an object is found by its name in the rearranged object. -/
theorem exists_field {fields : List (String × Json)} {json : Json}
    (same : (Json.object fields).Rearranged json) (distinct : (fields.map Prod.fst).Nodup) :
    ∃ others, json = .object others ∧
      ∀ name content, (name, content) ∈ fields →
        ∃ renewed, (Json.object others).field? name = some renewed ∧
          content.Rearranged renewed := by
  cases same with
  | @object _ renewed others sameNames sameContents permuted =>
      have othersDistinct : (others.map Prod.fst).Nodup := by
        rw [sameNames] at distinct
        exact (permuted.map Prod.fst).nodup_iff.mp distinct
      refine ⟨others, rfl, ?_⟩
      intro name content member
      obtain ⟨value, isRenewed, sameContent⟩ := exists_mem_renewed sameNames sameContents member
      exact ⟨value, field?_of_mem othersDistinct (permuted.mem_iff.mp isRenewed), sameContent⟩

end Rearranged

end Json

open Json (tagged)

/-- Values are told apart by being null, a truth value, an integer or a text. -/
theorem Value.ofJson?_of_rearranged {value : Value} {json : Json}
    (same : value.toJson.Rearranged json) : Value.ofJson? json = some value := by
  cases value with
  | none => cases same; rfl
  | bool value => cases same; rfl
  | string value => cases same; rfl
  | int value =>
      cases same
      rw [Value.ofJson?, Text.int64?_eq_some_iff.mpr rfl, Option.map_some]

private theorem Literal.ofJson?_of_rearranged {literal : Literal} {json : Json}
    (same : literal.toJson.Rearranged json) : Literal.ofJson? json = some literal := by
  cases literal with
  | value content =>
      obtain ⟨renewed, rfl, sameContent⟩ := same.exists_tagged
      change (Value.ofJson? renewed).map Literal.value = _
      rw [Value.ofJson?_of_rearranged sameContent, Option.map_some]
  | verbatim text =>
      obtain ⟨renewed, rfl, sameContent⟩ := same.exists_tagged
      rw [sameContent.eq_of_string]
      rfl

@[simp]
theorem Comparator.ofJson?_tag (op : Comparator) :
    Comparator.ofJson? (.string op.tag) = some op := by
  cases op <;> decide

namespace Condition

private theorem comparisonOfJson?_of_rearranged
    {name : String} {op : Comparator} {constant : Value} {json : Json}
    (same : (Json.object [("variable", .string name), ("op", .string op.tag),
      ("constant", constant.toJson)]).Rearranged json) :
    comparisonOfJson? json = some (.comparison name op constant) := by
  obtain ⟨others, rfl, found⟩ := same.exists_field (by simp)
  obtain ⟨nameJson, atName, sameName⟩ := found "variable" (.string name) (by simp)
  obtain ⟨opJson, atOp, sameOp⟩ := found "op" (.string op.tag) (by simp)
  obtain ⟨constantJson, atConstant, sameConstant⟩ := found "constant" constant.toJson (by simp)
  simp only [comparisonOfJson?, atName, atOp, atConstant, sameName.eq_of_string,
    sameOp.eq_of_string, Json.string?, Comparator.ofJson?_tag,
    Value.ofJson?_of_rearranged sameConstant]

mutual

/-- A condition is read back by its structure, each kind of condition from its own tag. -/
theorem ofJson?_of_rearranged (condition : Condition) {json : Json}
    (same : condition.toJson.Rearranged json) : Condition.ofJson? json = some condition := by
  cases condition with
  | literal value =>
      obtain ⟨renewed, rfl, sameContent⟩ := same.exists_tagged
      cases sameContent
      rfl
  | var name =>
      obtain ⟨renewed, rfl, sameContent⟩ := same.exists_tagged
      rw [sameContent.eq_of_string]
      rfl
  | comparison name op constant =>
      obtain ⟨renewed, rfl, sameContent⟩ := same.exists_tagged
      exact comparisonOfJson?_of_rearranged sameContent
  | junction kind parts =>
      obtain ⟨renewed, rfl, sameContent⟩ := same.exists_tagged
      cases sameContent with
      | @array _ others sameParts =>
          have read := partsOfJson?_of_rearranged parts sameParts
          cases kind with
          | and =>
              change (partsOfJson? others).map (junction .and) = _
              rw [read, Option.map_some]
          | or =>
              change (partsOfJson? others).map (junction .or) = _
              rw [read, Option.map_some]
  | not operand =>
      obtain ⟨renewed, rfl, sameContent⟩ := same.exists_tagged
      change (ofJson? renewed).map not = _
      rw [ofJson?_of_rearranged operand sameContent, Option.map_some]
  | verbatim text =>
      obtain ⟨renewed, rfl, sameContent⟩ := same.exists_tagged
      rw [sameContent.eq_of_string]
      rfl

theorem partsOfJson?_of_rearranged (parts : List Condition) {others : List Json}
    (same : List.Forall₂ Json.Rearranged (partsToJson parts) others) :
    partsOfJson? others = some parts := by
  cases parts with
  | nil =>
      cases same
      rfl
  | cons part rest =>
      cases same with
      | cons samePart sameRest =>
          rw [partsOfJson?, ofJson?_of_rearranged part samePart,
            partsOfJson?_of_rearranged rest sameRest]

end

end Condition

private theorem Json.int64?_of_rearranged {word : Int64} {json : Json}
    (same : (Json.int word.toInt).Rearranged json) : json.int64? = some word := by
  cases same
  exact Text.int64?_eq_some_iff.mpr rfl

private theorem Domain.ofJson?_of_rearranged {domain : Domain} {json : Json}
    (same : domain.toJson.Rearranged json) : Domain.ofJson? json = some domain := by
  cases domain with
  | boolean =>
      obtain ⟨others, rfl, found⟩ := same.exists_field (by simp)
      obtain ⟨kindJson, atKind, sameKind⟩ := found "kind" (.string "boolean") (by simp)
      rw [sameKind.eq_of_string] at atKind
      simp [Domain.ofJson?, Json.kind?, Json.record?, atKind]
  | range min max =>
      obtain ⟨others, rfl, found⟩ := same.exists_field (by simp)
      obtain ⟨kindJson, atKind, sameKind⟩ := found "kind" (.string "integer_range") (by simp)
      obtain ⟨minJson, atMin, sameMin⟩ := found "min" (.int min.toInt) (by simp)
      obtain ⟨maxJson, atMax, sameMax⟩ := found "max" (.int max.toInt) (by simp)
      rw [sameKind.eq_of_string] at atKind
      simp [Domain.ofJson?, Json.kind?, Json.record?, atKind, atMin, atMax,
        Json.int64?_of_rearranged sameMin, Json.int64?_of_rearranged sameMax]
  | untyped =>
      obtain ⟨others, rfl, found⟩ := same.exists_field (by simp)
      obtain ⟨kindJson, atKind, sameKind⟩ := found "kind" (.string "opaque") (by simp)
      rw [sameKind.eq_of_string] at atKind
      simp [Domain.ofJson?, Json.kind?, Json.record?, atKind]

private theorem Parameter.ofJson?_of_rearranged {parameter : Parameter} {json : Json}
    (same : parameter.toJson.Rearranged json) : Parameter.ofJson? json = some parameter := by
  obtain ⟨others, rfl, found⟩ := same.exists_field (by simp)
  obtain ⟨nameJson, atName, sameName⟩ := found "name" (.string parameter.name) (by simp)
  obtain ⟨domainJson, atDomain, sameDomain⟩ :=
    found "inferred_domain" parameter.domain.toJson (by simp)
  simp [Parameter.ofJson?, Json.record?, atName, atDomain, sameName.eq_of_string, Json.string?,
    Domain.ofJson?_of_rearranged sameDomain]

private theorem Rule.ofJson?_of_rearranged {rule : Rule} {json : Json}
    (same : rule.toJson.Rearranged json) : Rule.ofJson? json = some rule := by
  obtain ⟨others, rfl, found⟩ := same.exists_field (by simp)
  obtain ⟨conditionJson, atCondition, sameCondition⟩ :=
    found "condition" rule.condition.toJson (by simp)
  obtain ⟨resultJson, atResult, sameResult⟩ := found "return_value" rule.result.toJson (by simp)
  simp [Rule.ofJson?, Json.record?, atCondition, atResult,
    Condition.ofJson?_of_rearranged _ sameCondition, Literal.ofJson?_of_rearranged sameResult]

private theorem Json.list?_of_rearranged
    {α : Type} {encode : α → Json} {decode : Json → Option α}
    (reads : ∀ {item json}, (encode item).Rearranged json → decode json = some item)
    {items : List α} {json : Json} (same : (Json.array (items.map encode)).Rearranged json) :
    json.list? decode = some items := by
  cases same with
  | @array _ others sameItems =>
      change others.mapM decode = some items
      rw [mapM_eq_some_iff]
      rw [List.forall₂_map_left_iff] at sameItems
      exact (sameItems.imp fun _ _ sameItem => reads sameItem).flip

namespace Model

/-- A model is read back from any arrangement of its value. -/
theorem ofJson?_of_rearranged {model : Model} {json : Json}
    (same : model.toJson.Rearranged json) : Model.ofJson? json = some model := by
  obtain ⟨others, rfl, found⟩ := same.exists_field (by simp)
  obtain ⟨nameJson, atName, sameName⟩ :=
    found "function_name" (.string model.functionName) (by simp)
  obtain ⟨parametersJson, atParameters, sameParameters⟩ :=
    found "parameters" (.array (model.parameters.map Parameter.toJson)) (by simp)
  obtain ⟨rulesJson, atRules, sameRules⟩ :=
    found "rules" (.array (model.rules.map Rule.toJson)) (by simp)
  simp [Model.ofJson?, Json.record?, atName, atParameters, atRules, sameName.eq_of_string,
    Json.string?, Json.list?_of_rearranged Parameter.ofJson?_of_rearranged sameParameters,
    Json.list?_of_rearranged Rule.ofJson?_of_rearranged sameRules]

/-- The JSON value of a model is read back as the model, whatever the order of fields in it. -/
theorem toJson_reads_back (model : Model) :
    Model.ofJson? model.toJson = some model ∧
      ∀ json, model.toJson.Rearranged json → Model.ofJson? json = some model := by
  constructor
  · exact ofJson?_of_rearranged (Json.Rearranged.refl model.toJson)
  · intro json same
    exact ofJson?_of_rearranged same

def valve : Model where
  functionName := "valve"
  parameters := [⟨"pressure", .range (-5) 5⟩]
  rules :=
    [⟨.not (.junction .or [.comparison "pressure" .ge (.int (-1)), .junction .and []]),
      .value .none⟩]

/-- The value of the valve with the parameters before the name, and the domain of the parameter
before its name. -/
def valveJson : Json :=
  let parameter : Json :=
    .object [("inferred_domain", (Domain.range (-5) 5).toJson), ("name", .string "pressure")]
  .object
    [("parameters", .array [parameter]), ("function_name", .string "valve"),
      ("rules", .array (valve.rules.map Rule.toJson))]

private theorem rearranged_valveJson : valve.toJson.Rearranged valveJson := by
  refine .object ?_ ?_ (List.Perm.swap _ _ _)
  · rfl
  · refine .cons (.refl _) (.cons (.array (.cons ?_ .nil)) (.cons (.refl _) .nil))
    refine .object ?_ ?_ (List.Perm.swap _ _ _)
    · rfl
    · exact .cons (.refl _) (.cons (.refl _) .nil)

theorem toJson_reads_back_valve :
    valve.toJson.Rearranged valveJson ∧ Model.ofJson? valveJson = some valve :=
  ⟨rearranged_valveJson, valve.toJson_reads_back.2 valveJson rearranged_valveJson⟩

end Model

end Rulebook
