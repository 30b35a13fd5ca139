import Rulebook.Proofs.Evaluation
import Rulebook.Proofs.Smt.Reply

/-!
# What a counterexample in a reply binds

Reading a reply goes through its entries and binds the parameter of each known symbol to a value of
the parameter's sort. Unknown symbols are passed over, and nothing is said about symbols that no
entry is for. So a counterexample never binds too much, nor to a value of the wrong sort, and it
binds all parameters exactly if the reply has an entry for each of their symbols.
-/

namespace Rulebook

/-- The sort of a value, if a solver can give it. -/
def Value.sort? : Value → Option ValueSort
  | .bool _ => some .bool
  | .int _ => some .int
  | .none | .string _ => Option.none

namespace Sexp

/-- What a list is made of. -/
def items : Sexp → List Sexp
  | .list items => items
  | .atom _ => []

/-- The symbol that an entry is for. -/
def entrySymbol? : Sexp → Option String
  | .list [.atom symbol, _] => some symbol
  | _ => none

end Sexp

namespace Smt

private theorem sort?_of_readValue
    {sort : ValueSort} {term : Sexp} {value : Value} (read : readValue sort term = .ok value) :
    value.sort? = some sort := by
  unfold readValue at read
  split at read
  · split at read
    · cases read
      rfl
    · split at read
      · cases read
        rfl
      · cases read
  · obtain ⟨number, _, isValue⟩ := exists_ok_of_map_eq_ok read
    rw [← isValue]
    rfl
  · split at read
    · obtain ⟨number, _, isValue⟩ := exists_ok_of_map_eq_ok read
      rw [← isValue]
      rfl
    · cases read
  · cases read
  · cases read

variable {symbols : TextMap (String × ValueSort)} {values result : TextMap Value}

/-- The values bind the parameters of the symbols among `texts` and no others, and they are of the
parameters' sorts. -/
structure Answers (symbols : TextMap (String × ValueSort)) (texts : List String)
    (values : TextMap Value) : Prop where
  bound : ∀ name, (∃ value, values.get? name = some value) ↔
    ∃ text ∈ texts, ∃ sort, symbols.get? text = some (name, sort)
  sorted : ∀ name value, values.get? name = some value →
    ∃ text sort, symbols.get? text = some (name, sort) ∧ value.sort? = some sort

@[simp]
theorem answers_nil (symbols : TextMap (String × ValueSort)) : Answers symbols [] {} where
  bound := by
    intro name
    simp [TextMap.get?]
  sorted := by
    intro name value found
    cases found

/-- An entry is for a symbol. It changes nothing if the symbol is unknown, and else binds the
parameter of the symbol. -/
theorem readEntry_eq_ok {entry : Sexp} (read : readEntry symbols values entry = .ok result) :
    ∃ text, entry.entrySymbol? = some text ∧
      ((symbols.get? text = none ∧ result = values) ∨
        ∃ name sort value, symbols.get? text = some (name, sort) ∧ value.sort? = some sort ∧
          result = values.insert name value) := by
  unfold readEntry at read
  split at read
  · rename_i text term
    refine ⟨text, rfl, ?_⟩
    split at read
    · rename_i unknown
      cases read
      exact .inl ⟨unknown, rfl⟩
    · rename_i name sort known
      obtain ⟨value, valueRead, isResult⟩ := exists_ok_of_map_eq_ok read
      exact .inr ⟨name, sort, value, known, sort?_of_readValue valueRead, isResult.symm⟩
  · cases read
  · cases read

namespace Answers

variable {texts : List String} {text : String}

/-- An entry for a symbol that is not known says nothing about parameters. -/
theorem unknown (answers : Answers symbols texts values) (isUnknown : symbols.get? text = none) :
    Answers symbols (texts ++ [text]) values where
  bound := by
    intro name
    rw [answers.bound]
    simp [isUnknown]
  sorted := answers.sorted

/-- An entry for a known symbol binds its parameter, whether or not an earlier one has. -/
theorem known
    (answers : Answers symbols texts values) {name : String} {sort : ValueSort} {value : Value}
    (isKnown : symbols.get? text = some (name, sort)) (isSorted : value.sort? = some sort) :
    Answers symbols (texts ++ [text]) (values.insert name value) where
  bound := by
    intro other
    rw [TextMap.get?_insert]
    by_cases same : other = name
    · rw [if_pos same, same]
      refine iff_of_true ⟨value, rfl⟩ ⟨text, ?_, sort, isKnown⟩
      exact List.mem_append_right _ (List.mem_singleton_self _)
    · rw [if_neg same, answers.bound]
      simp [isKnown, Ne.symm same]
  sorted := by
    intro other found isFound
    rw [TextMap.get?_insert] at isFound
    by_cases same : other = name
    · rw [if_pos same, Option.some.injEq] at isFound
      rw [same, ← isFound]
      exact ⟨text, sort, isKnown, isSorted⟩
    · rw [if_neg same] at isFound
      exact answers.sorted other found isFound

private theorem readEntry
    {entry : Sexp} (answers : Answers symbols texts values)
    (read : Smt.readEntry symbols values entry = .ok result) :
    Answers symbols (texts ++ entry.entrySymbol?.toList) result := by
  rcases readEntry_eq_ok read with ⟨text, isSymbol, step⟩
  rw [isSymbol]
  rcases step with ⟨isUnknown, same⟩ | ⟨name, sort, value, isKnown, isSorted, inserted⟩
  · rw [same]
    exact answers.unknown isUnknown
  · rw [inserted]
    exact answers.known isKnown isSorted

/-- By induction on the entries, each of which answers for one symbol at most. -/
theorem readEntries
    {entries : List Sexp} (answers : Answers symbols texts values)
    (read : Smt.readEntries symbols values entries = .ok result) :
    Answers symbols (texts ++ entries.filterMap Sexp.entrySymbol?) result := by
  induction entries generalizing texts values with
  | nil =>
      cases read
      rw [List.filterMap_nil, List.append_nil]
      exact answers
  | cons entry rest inductionHypothesis =>
      rw [Smt.readEntries] at read
      split at read
      · cases read
      · rename_i next first
        have followed := inductionHypothesis (answers.readEntry first) read
        have symbolsInOrder : entry.entrySymbol?.toList ++ rest.filterMap Sexp.entrySymbol? =
            (entry :: rest).filterMap Sexp.entrySymbol? := by
          cases isSymbol : entry.entrySymbol? with
          | none => rw [List.filterMap_cons_none isSymbol]; rfl
          | some symbol => rw [List.filterMap_cons_some isSymbol]; rfl
        rwa [List.append_assoc, symbolsInOrder] at followed

private theorem readItems
    {items : List Sexp} (answers : Answers symbols texts values)
    (read : Smt.readItems symbols values items = .ok result) :
    Answers symbols (texts ++ (items.flatMap Sexp.items).filterMap Sexp.entrySymbol?) result := by
  induction items generalizing texts values with
  | nil =>
      cases read
      rw [List.flatMap_nil, List.filterMap_nil, List.append_nil]
      exact answers
  | cons item rest inductionHypothesis =>
      cases item with
      | atom text => cases read
      | list entries =>
          rw [Smt.readItems] at read
          split at read
          · cases read
          · rename_i next first
            have followed := inductionHypothesis (answers.readEntries first) read
            rwa [List.append_assoc, ← List.filterMap_append] at followed

end Answers

/-! ## Replies -/

/-- The text behind the first line that finds the assertions satisfiable. -/
def answerText (lines : List String) : String :=
  "\n".intercalate ((lines.dropWhile (· ≠ "sat")).drop 1)

/-- The symbols that the reply has entries for. -/
def answeredSymbols (output : String) : List String :=
  match Sexp.read (answerText (contentLines output)) with
  | .ok items => (items.flatMap Sexp.items).filterMap Sexp.entrySymbol?
  | .error _ => []

/-- A counterexample is read from the text behind the first line that finds the assertions
satisfiable. -/
theorem readModel_of_readLines
    {encoding : Encoding} {lines : List String} {counterexample : Counterexample}
    (read : readLines encoding lines = .ok (.invalid counterexample)) :
    readModel encoding.symbols (answerText lines) = .ok counterexample.values := by
  induction lines with
  | nil => cases read
  | cons line rest inductionHypothesis =>
      rw [readLines] at read
      by_cases isSat : line = "sat"
      · rw [if_neg (by rw [isSat]; decide), if_neg (by rw [isSat]; decide),
          if_neg (by rw [isSat]; decide), if_pos isSat] at read
        have behind : answerText (line :: rest) = "\n".intercalate rest := by
          rw [answerText, List.dropWhile_cons_of_neg (by simp [isSat])]
          rfl
        rw [behind]
        split at read
        · rename_i values modelRead
          cases read
          exact modelRead
        · cases read
      · have behind : answerText (line :: rest) = answerText rest := by
          rw [answerText, List.dropWhile_cons_of_pos (by simpa using isSat)]
          rfl
        rw [behind]
        rw [if_neg isSat] at read
        split at read
        · cases read
        · split at read
          · cases read
          · split at read
            · cases read
            · split at read
              · cases read
              · exact inductionHypothesis read

private theorem answers_of_readReply
    {encoding : Encoding} {output : String} {counterexample : Counterexample}
    (replied : readReply encoding output = .ok (.invalid counterexample)) :
    Answers encoding.symbols (answeredSymbols output) counterexample.values := by
  have read := readModel_of_readLines replied
  rw [readModel] at read
  rw [answeredSymbols]
  split at read
  · cases read
  · rename_i items isRead
    rw [isRead]
    exact (answers_nil encoding.symbols).readItems read

end Smt

namespace Counterexample

/-- The counterexample binds parameters only, each to a value of its sort. -/
structure Sound (symbols : TextMap (String × ValueSort)) (counterexample : Counterexample) :
    Prop where
  listed : ∀ name value, counterexample.values.get? name = some value →
    ∃ text sort, symbols.get? text = some (name, sort)
  sorted : ∀ text name sort value, symbols.get? text = some (name, sort) →
    counterexample.values.get? name = some value → value.sort? = some sort

/-- The counterexample binds every parameter. -/
def Complete (symbols : TextMap (String × ValueSort)) (counterexample : Counterexample) : Prop :=
  ∀ text name sort, symbols.get? text = some (name, sort) →
    ∃ value, counterexample.values.get? name = some value

end Counterexample

namespace Smt

private theorem eq_symbol_of_get?
    {obligation : Obligation} {timeout : Option Nat} {encoding : Encoding}
    (encoded : encode obligation timeout = .ok encoding)
    {text name : String} {sort : ValueSort}
    (listed : encoding.symbols.get? text = some (name, sort)) : text = symbol name := by
  obtain ⟨body, _, isEncoding⟩ := exists_ok_of_map_eq_ok encoded
  rw [← isEncoding, TextMap.get?_ofList] at listed
  have member := List.mem_reverse.mp (TextMap.mem_of_lookup listed)
  obtain ⟨var, _, same⟩ := List.mem_map.mp member
  cases same
  rfl

/-- A counterexample read from a reply binds parameters to values of their sorts and nothing else.
It binds all parameters exactly if the reply has an entry for each of their symbols. -/
theorem readReply_complete_iff
    {obligation : Obligation} {timeout : Option Nat} {encoding : Encoding}
    (encoded : encode obligation timeout = .ok encoding)
    {output : String} {counterexample : Counterexample}
    (replied : readReply encoding output = .ok (.invalid counterexample)) :
    counterexample.Sound encoding.symbols ∧
      (counterexample.Complete encoding.symbols ↔
        ∀ text ∈ encoding.symbols.keys, text ∈ answeredSymbols output) := by
  have answers := answers_of_readReply replied
  have sameText : ∀ {text other name : String} {sort otherSort : ValueSort},
      encoding.symbols.get? text = some (name, sort) →
      encoding.symbols.get? other = some (name, otherSort) → text = other := by
    intro text other name sort otherSort listed otherListed
    rw [eq_symbol_of_get? encoded listed, eq_symbol_of_get? encoded otherListed]
  refine ⟨⟨?_, ?_⟩, ?_, ?_⟩
  · intro name value found
    obtain ⟨text, sort, listed, _⟩ := answers.sorted name value found
    exact ⟨text, sort, listed⟩
  · intro text name sort value listed found
    obtain ⟨other, otherSort, otherListed, isSorted⟩ := answers.sorted name value found
    rw [sameText listed otherListed, otherListed] at listed
    cases listed
    exact isSorted
  · intro complete text isKey
    obtain ⟨⟨_, name, sort⟩, isEntry, rfl⟩ := List.mem_map.mp isKey
    have listed := (TextMap.mem_entries_iff _ _ _).mp isEntry
    obtain ⟨other, answered, otherSort, otherListed⟩ :=
      (answers.bound name).mp (complete _ name sort listed)
    rw [sameText listed otherListed]
    exact answered
  · intro answered text name sort listed
    have isKey : text ∈ encoding.symbols.keys :=
      List.mem_map.mpr ⟨_, (TextMap.mem_entries_iff _ _ _).mpr listed, rfl⟩
    exact (answers.bound name).mpr ⟨text, answered text isKey, sort, listed⟩

/-- A reply for the gate that leaves out the level. -/
theorem readReply_complete_iff_gate :
    encode gateObligation none = .ok gateEncoding ∧
      ∃ counterexample,
        readReply gateEncoding "warning\n sat\n((v_ready false)\n (v_alarm 3))\n" =
            .ok (.invalid counterexample) ∧
          counterexample.Sound gateEncoding.symbols ∧
          ¬ counterexample.Complete gateEncoding.symbols := by
  have encoded : encode gateObligation none = .ok gateEncoding := rfl
  have replied : readReply gateEncoding "warning\n sat\n((v_ready false)\n (v_alarm 3))\n" =
      .ok (.invalid ⟨.ofList [("ready", .bool false)]⟩) :=
    toOption_eq_some_iff.mp (by decide +kernel)
  have unanswered : "v_level" ∉
      answeredSymbols "warning\n sat\n((v_ready false)\n (v_alarm 3))\n" := by decide +kernel
  obtain ⟨sound, completeIff⟩ := readReply_complete_iff encoded replied
  refine ⟨encoded, _, replied, sound, ?_⟩
  intro complete
  exact unanswered (completeIff.mp complete "v_level" (by decide))

/-- A reply that breaks off behind the verdict gives a counterexample that binds nothing. -/
theorem readReply_gate_silent :
    encode gateObligation none = .ok gateEncoding ∧
      readReply gateEncoding "sat\n" = .ok (.invalid ⟨{}⟩) ∧
      ¬ (⟨{}⟩ : Counterexample).Complete gateEncoding.symbols := by
  refine ⟨rfl, toOption_eq_some_iff.mp (by decide +kernel), ?_⟩
  intro complete
  obtain ⟨value, found⟩ := complete "v_level" "level" .int (by decide)
  cases found

end Smt

end Rulebook
