import Rulebook.Smt.Reply
import Rulebook.Proofs.Decimal
import Rulebook.Proofs.Samples
import Rulebook.Proofs.Smt.Rendering
import Mathlib.Data.List.DropRight

/-!
# Values in the reply of a solver

A reply that finds the assertions satisfiable gives a value to each symbol that was asked for. The
lines of such a reply are trimmed and put together before it is read, which keeps what they spell,
and each entry adds one value to those already read. So the values come back as they were written,
however the reply is laid out, with one exception: a negative number is read through its magnitude,
and the magnitude of the least word is not a word.
-/

namespace Rulebook

namespace Sexp

/-- No atom among the pieces holds a blank. -/
def Solid (pieces : List Piece) : Prop :=
  ∀ text, Piece.atom text ∈ pieces → ∀ c ∈ text.toList, Text.isBlank c = false

private theorem Solid.of_cons {piece : Piece} {pieces : List Piece}
    (solid : Solid (piece :: pieces)) :
    Solid pieces :=
  fun text member => solid text (List.mem_cons_of_mem _ member)

@[simp]
theorem solid_append_iff {front back : List Piece} :
    Solid (front ++ back) ↔ Solid front ∧ Solid back := by
  simp only [Solid, List.mem_append, or_imp, forall_and]

private theorem exists_append_of_notMem
    {c : Char} {word rest front back : List Char} (free : c ∉ word)
    (split : word ++ rest = front ++ c :: back) :
    ∃ remainder, front = word ++ remainder ∧ rest = remainder ++ c :: back := by
  induction word generalizing front with
  | nil => exact ⟨front, rfl, split⟩
  | cons d word inductionHypothesis =>
      rw [List.mem_cons, not_or] at free
      cases front with
      | nil =>
          injection split with sameHead _
          exact absurd sameHead.symm free.1
      | cons e front =>
          injection split with sameHead sameRest
          have ⟨remainder, isFront, isRest⟩ := inductionHypothesis free.2 sameRest
          exact ⟨remainder, by rw [sameHead, isFront, List.cons_append], isRest⟩

private theorem isDelimiter_of_isBlank {c : Char} (blank : Text.isBlank c = true) :
    isDelimiter c = true := by
  rw [isDelimiter, blank, Bool.true_or]

namespace Spells

variable {pieces earlier later : List Piece} {chars front back : List Char} {c : Char}

theorem eq_nil (spells : Spells pieces []) : pieces = [] := by
  rw [← pieces_of_spells spells, Sexp.pieces]

/-- What is spelled around a blank is spelled in two parts, as the blank lies in no atom. -/
theorem split_blank
    (blank : Text.isBlank c = true) (solid : Solid pieces)
    (spells : Spells pieces (front ++ c :: back)) :
    ∃ earlier later, pieces = earlier ++ later ∧ Spells earlier front ∧ Spells later back := by
  have different : ∀ {d : Char}, Text.isBlank d = false → c ≠ d := by
    intro d solidChar same
    rw [same, solidChar] at blank
    cases blank
  generalize isSplit : front ++ c :: back = chars at spells
  induction spells generalizing front with
  | nil => simp at isSplit
  | @blank d pieces chars isBlank spelled inductionHypothesis =>
      cases front with
      | nil =>
          injection isSplit with _ sameRest
          exact ⟨[], pieces, rfl, .nil, sameRest ▸ spelled⟩
      | cons e front =>
          injection isSplit with sameHead sameRest
          obtain ⟨earlier, later, isPieces, first, second⟩ := inductionHypothesis solid sameRest
          exact ⟨earlier, later, isPieces, .blank (sameHead ▸ isBlank) first, second⟩
  | @opening pieces rest _ inductionHypothesis =>
      have free : c ∉ ['('] := fun member =>
        different (by decide) (List.mem_singleton.mp member)
      obtain ⟨remainder, isFront, isRest⟩ := exists_append_of_notMem free isSplit.symm
      obtain ⟨earlier, later, isPieces, first, second⟩ :=
        inductionHypothesis solid.of_cons isRest.symm
      rw [isFront, isPieces]
      exact ⟨.opening :: earlier, later, rfl, .opening first, second⟩
  | @closing pieces rest _ inductionHypothesis =>
      have free : c ∉ [')'] := fun member =>
        different (by decide) (List.mem_singleton.mp member)
      obtain ⟨remainder, isFront, isRest⟩ := exists_append_of_notMem free isSplit.symm
      obtain ⟨earlier, later, isPieces, first, second⟩ :=
        inductionHypothesis solid.of_cons isRest.symm
      rw [isFront, isPieces]
      exact ⟨.closing :: earlier, later, rfl, .closing first, second⟩
  | @bare text _ rest atom delimited _ inductionHypothesis =>
      have free : c ∉ text.toList := fun member =>
        different (solid text List.mem_cons_self c member) rfl
      obtain ⟨remainder, isFront, isRest⟩ := exists_append_of_notMem free isSplit.symm
      obtain ⟨earlier, later, isPieces, first, second⟩ :=
        inductionHypothesis solid.of_cons isRest.symm
      have cut : Delimited remainder := by
        intro d isHead
        apply delimited d
        rw [isRest, List.head?_append, isHead, Option.some_or]
      rw [isFront, isPieces]
      exact ⟨.atom text :: earlier, later, rfl, .bare atom cut first, second⟩
  | @quoted text _ rest noBar _ inductionHypothesis =>
      have free : c ∉ '|' :: (text.toList ++ ['|']) := by
        intro member
        rw [List.mem_cons, List.mem_append, List.mem_singleton] at member
        rcases member with isBar | inText | isBar
        · exact different (by decide) isBar
        · exact different (solid text List.mem_cons_self c inText) rfl
        · exact different (by decide) isBar
      have isQuoted : '|' :: (text.toList ++ ['|']) ++ rest = front ++ c :: back := by
        rw [isSplit, List.cons_append, List.append_assoc, List.singleton_append]
      obtain ⟨remainder, isFront, isRest⟩ := exists_append_of_notMem free isQuoted
      obtain ⟨earlier, later, isPieces, first, second⟩ :=
        inductionHypothesis solid.of_cons isRest.symm
      rw [isFront, isPieces, List.cons_append, List.append_assoc, List.singleton_append]
      exact ⟨.atom text :: earlier, later, rfl, .quoted noBar first, second⟩

private theorem append_blank
    (first : Spells earlier front) (blank : Text.isBlank c = true)
    (second : Spells later back) : Spells (earlier ++ later) (front ++ c :: back) := by
  apply first.append _ (.blank blank second)
  intro d isHead
  cases isHead
  exact isDelimiter_of_isBlank blank

/-! ## Lines -/

private theorem dropWhile (solid : Solid pieces) (spells : Spells pieces chars) :
    Spells pieces (chars.dropWhile Text.isBlank) := by
  induction chars with
  | nil => exact spells
  | cons c chars inductionHypothesis =>
      by_cases blank : Text.isBlank c = true
      · rw [← List.nil_append (c :: chars)] at spells
        obtain ⟨earlier, later, isPieces, first, second⟩ := split_blank blank solid spells
        rw [first.eq_nil, List.nil_append] at isPieces
        rw [List.dropWhile_cons_of_pos blank]
        exact inductionHypothesis (isPieces ▸ second)
      · rw [List.dropWhile_cons_of_neg blank]
        exact spells

private theorem rdropWhile (solid : Solid pieces) (spells : Spells pieces chars) :
    Spells pieces (chars.rdropWhile Text.isBlank) := by
  induction chars using List.reverseRecOn with
  | nil => exact spells
  | append_singleton chars c inductionHypothesis =>
      by_cases blank : Text.isBlank c = true
      · obtain ⟨earlier, later, isPieces, first, second⟩ := split_blank blank solid spells
        rw [second.eq_nil, List.append_nil] at isPieces
        rw [List.rdropWhile_concat_pos _ _ _ blank]
        exact inductionHypothesis (isPieces ▸ first)
      · rw [List.rdropWhile_concat_neg _ _ _ blank]
        exact spells

private theorem trimChars (solid : Solid pieces) (spells : Spells pieces chars) :
    Spells pieces (Text.trimChars chars) :=
  rdropWhile solid (dropWhile solid spells)

/-- Trimming lines and leaving out the empty ones keeps what the lines spell. -/
theorem contentLines
    {lines : List (List Char)} (solid : Solid pieces)
    (spells : Spells pieces (List.intercalate ['\n'] lines)) :
    Spells pieces
      (List.intercalate ['\n'] ((lines.map Text.trimChars).filter (!·.isEmpty))) := by
  induction lines generalizing pieces with
  | nil => exact spells
  | cons line rest inductionHypothesis =>
      cases rest with
      | nil =>
          rw [List.intercalate_singleton] at spells
          have trimmed := spells.trimChars solid
          by_cases empty : (Text.trimChars line).isEmpty = true
          · rw [List.isEmpty_iff.mp empty] at trimmed
            simpa [empty] using trimmed
          · simpa [empty] using trimmed
      | cons next others =>
          rw [List.intercalate_cons_cons, List.append_assoc, List.singleton_append] at spells
          rcases split_blank (by decide) solid spells with
            ⟨earlier, later, isPieces, first, second⟩
          rw [isPieces, solid_append_iff] at solid
          have trimmed := first.trimChars solid.1
          have followed := inductionHypothesis solid.2 second
          rw [isPieces, List.map_cons]
          by_cases empty : (Text.trimChars line).isEmpty = true
          · rw [List.isEmpty_iff.mp empty] at trimmed
            rw [List.filter_cons_of_neg (by simp [empty]), trimmed.eq_nil]
            exact followed
          · rw [List.filter_cons_of_pos (by simpa using empty)]
            generalize contents : ((next :: others).map Text.trimChars).filter (!·.isEmpty) =
              remaining at followed
            cases remaining with
            | nil =>
                rw [followed.eq_nil, List.append_nil]
                simpa using trimmed
            | cons content more =>
                have together := trimmed.append_blank (c := '\n') (by decide) followed
                simpa using together

end Spells

mutual

private theorem solid_flat (item : Sexp) (bare : item.Bare) : Solid (flat item) := by
  cases item with
  | atom text =>
      intro other member c inText
      rw [flat, List.mem_singleton, Piece.atom.injEq] at member
      rw [member] at inText
      have notDelimiter := bare.2.1 c inText
      rw [isDelimiter, Bool.or_eq_false_iff] at notDelimiter
      exact notDelimiter.1
  | list items =>
      have inner := solid_flatAll items bare
      intro other member
      apply inner other
      simpa [flat] using member

theorem solid_flatAll (items : List Sexp) (bare : BareAll items) : Solid (flatAll items) := by
  cases items with
  | nil => simp [Solid, flatAll]
  | cons item rest =>
      rw [flatAll, solid_append_iff]
      exact ⟨solid_flat item bare.1, solid_flatAll rest bare.2⟩

end

theorem bareAll_map {α : Type} {elements : List α} {item : α → Sexp}
    (bare : ∀ element ∈ elements, (item element).Bare) : BareAll (elements.map item) := by
  induction elements with
  | nil => trivial
  | cons element rest inductionHypothesis =>
      rw [List.forall_mem_cons] at bare
      exact ⟨bare.1, inductionHypothesis bare.2⟩

end Sexp

@[simp]
theorem Text.intercalate_splitEvery (mark : Char) (chars : List Char) :
    List.intercalate [mark] (splitEvery mark chars) = chars := by
  induction chars with
  | nil => rfl
  | cons c rest inductionHypothesis =>
      rcases splitEvery_cons mark c rest with ⟨part, parts, restSplit, split⟩
      rw [restSplit] at inductionHypothesis
      rw [split]
      by_cases isMark : c = mark
      · rw [if_pos isMark, List.intercalate_cons_cons, inductionHypothesis, isMark]
        rfl
      · rw [if_neg isMark]
        cases parts with
        | nil => simpa using inductionHypothesis
        | cons next more => simpa [List.intercalate_cons_cons] using inductionHypothesis

namespace Smt

private theorem toList_contentLines (text : String) :
    (contentLines text).map String.toList =
      ((Text.splitEvery '\n' text.toList).map Text.trimChars).filter (!·.isEmpty) := by
  rw [contentLines, List.map_filterMap, ← List.filterMap_eq_filter]
  apply List.filterMap_congr
  intro line _
  cases line with
  | nil => rfl
  | cons c rest => simp [Option.guard]

@[simp]
theorem contentLines_sat (body : String) :
    contentLines ("sat\n" ++ body) = "sat" :: contentLines body := by
  have free : '\n' ∉ "sat".toList := by decide
  have split : Text.splitEvery '\n' ("sat\n" ++ body).toList =
      "sat".toList :: Text.splitEvery '\n' body.toList := by
    rw [String.toList_append]
    exact Text.splitEvery_append_mark body.toList free
  rw [contentLines, split]
  rfl

/-- What a solver may answer for a parameter. -/
inductive Answer where
  | bool (value : Bool)
  | int (value : Int64)
deriving DecidableEq, Repr

namespace Answer

def sort : Answer → ValueSort
  | .bool _ => .bool
  | .int _ => .int

def value : Answer → Value
  | .bool value => .bool value
  | .int value => .int value

/-- The term that the answer is written as. -/
def term : Answer → Sexp
  | .bool value => boolTerm value
  | .int value => intTerm value

private theorem bare_term (answer : Answer) : answer.term.Bare := by
  cases answer with
  | bool value =>
      have denotes : Denotes [] (boolTerm value) (.bool value) := denotes_boolTerm value
      exact bare_of_sort? (by simp [Interpretation.signature]) _ denotes.sorted
  | int value =>
      have denotes : Denotes [] (intTerm value) (.int value.toInt) := denotes_intTerm value
      exact bare_of_sort? (by simp [Interpretation.signature]) _ denotes.sorted

end Answer

private theorem readInteger_toString_iff {n : Nat} {word : Int64} :
    readInteger (toString n) = .ok word ↔ word.toInt = n := by
  have digits : Text.readInt64 (toString n) = Text.fitInt64 n := by
    have isDigit : ∀ c rest, Nat.toDigits 10 n = c :: rest → c.isDigit = true := by
      intro c rest split
      exact Text.isDigit_of_mem_toDigits (split ▸ List.mem_cons_self)
    rw [Text.readInt64, Nat.toString_eq_repr, Nat.toList_repr]
    split
    · rename_i empty
      exact absurd empty Nat.toDigits_ne_nil
    · rename_i split
      exact absurd (isDigit _ _ split) (by decide)
    · rename_i split
      exact absurd (isDigit _ _ split) (by decide)
    · rw [Text.readDigits, Text.natural?_toDigits]
  rw [readInteger, digits, Text.fitInt64, ← Text.int64?_eq_some_iff]
  cases Text.int64? n with
  | none => simp
  | some value => simp

private theorem magnitude_fits_iff {value : Int64} (negative : value.toInt < 0) :
    (∃ word : Int64, word.toInt = value.toInt.natAbs) ↔ value ≠ Int64.minValue := by
  constructor
  · intro fits isLeast
    rcases fits with ⟨word, isMagnitude⟩
    have least : Int64.minValue.toInt = -9223372036854775808 := by decide
    have below := word.toInt_lt
    rw [isLeast, least] at isMagnitude
    omega
  · intro notLeast
    refine ⟨-value, ?_⟩
    rw [toInt_neg_of_ne_least notLeast]
    omega

/-- An answer is read as it was written, unless it is the least word, which is not read at all. -/
theorem readValue_term_iff {answer : Answer} {value : Value} :
    readValue answer.sort answer.term = .ok value ↔
      answer ≠ .int Int64.minValue ∧ value = answer.value := by
  cases answer with
  | bool truth =>
      cases truth <;> simp [Answer.sort, Answer.term, Answer.value, boolTerm, readValue, eq_comm]
  | int number =>
      have written : readValue .int (intTerm number) =
          if number.toInt < 0 then
            (readInteger (toString number.toInt.natAbs)).map fun word => Value.int (-word)
          else (readInteger (toString number.toInt.natAbs)).map Value.int := by
        rw [intTerm]
        split
        · rfl
        · rfl
      rw [Answer.sort, Answer.term, Answer.value, written, ne_eq, Answer.int.injEq,
        ← ne_eq]
      by_cases negative : number.toInt < 0
      · rw [if_pos negative, ← magnitude_fits_iff negative]
        cases outcome : readInteger (toString number.toInt.natAbs) with
        | error cause =>
            have unfit : ¬ ∃ word : Int64, word.toInt = number.toInt.natAbs := by
              intro fits
              rcases fits with ⟨word, isMagnitude⟩
              rw [readInteger_toString_iff.mpr isMagnitude] at outcome
              cases outcome
            exact iff_of_false (by simp [Except.map]) (fun both => unfit both.1)
        | ok word =>
            have isMagnitude := readInteger_toString_iff.mp outcome
            have notLeast : word ≠ Int64.minValue := by
              intro isLeast
              rw [isLeast] at isMagnitude
              exact absurd (isMagnitude ▸ Int.natCast_nonneg _) (by decide)
            have restored : -word = number := by
              rw [← Int64.toInt_inj, toInt_neg_of_ne_least notLeast]
              omega
            have fits : ∃ word : Int64, word.toInt = number.toInt.natAbs := ⟨word, isMagnitude⟩
            simp only [Except.map, restored, Except.ok.injEq]
            exact ⟨fun same => ⟨fits, same.symm⟩, fun both => both.2.symm⟩
      · have isMagnitude : number.toInt = number.toInt.natAbs := by omega
        have notLeast : number ≠ Int64.minValue := by
          intro isLeast
          rw [isLeast] at negative
          exact negative (by decide)
        rw [if_neg negative, readInteger_toString_iff.mpr isMagnitude]
        simp [Except.map, notLeast, eq_comm]

/-! ## Entries -/

/-- The entry that answers for a variable. -/
def entryOf (answer : String → Answer) (var : Variable) : Sexp :=
  .list [.atom (symbol var.name), (answer var.name).term]

section Entries

variable {symbols : TextMap (String × ValueSort)} {answer : String → Answer}

theorem bare_entryOf {var : Variable} (word : Lexeme.isWord var.name = true) :
    (entryOf answer var).Bare :=
  ⟨(isSymbol_symbol word).bareAtom, (answer var.name).bare_term, trivial⟩

private theorem readEntry_entryOf
    {var : Variable} (known : symbols.get? (symbol var.name) = some (var.name, var.sort))
    (sorted : (answer var.name).sort = var.sort) (values : TextMap Value) :
    readEntry symbols values (entryOf answer var) =
      (readValue (answer var.name).sort (answer var.name).term).map
        fun value => values.insert var.name value := by
  rw [entryOf, readEntry, known, sorted]

/-- Entries are read one after the other, each adding its value, as long as all can be read. -/
theorem readEntries_entryOf_iff
    {order : List Variable}
    (known : ∀ var ∈ order, symbols.get? (symbol var.name) = some (var.name, var.sort))
    (sorted : ∀ var ∈ order, (answer var.name).sort = var.sort)
    {values result : TextMap Value} :
    readEntries symbols values (order.map (entryOf answer)) = .ok result ↔
      (∀ var ∈ order, answer var.name ≠ .int Int64.minValue) ∧
        result = order.foldl
          (fun values var => values.insert var.name (answer var.name).value) values := by
  induction order generalizing values with
  | nil => simp [readEntries, eq_comm]
  | cons var rest inductionHypothesis =>
      rw [List.forall_mem_cons] at known sorted
      rw [List.map_cons, readEntries, readEntry_entryOf known.1 sorted.1, List.forall_mem_cons,
        List.foldl_cons]
      cases outcome : readValue (answer var.name).sort (answer var.name).term with
      | error cause =>
          have isLeast : answer var.name = .int Int64.minValue := by
            by_contra notLeast
            rw [readValue_term_iff.mpr ⟨notLeast, rfl⟩] at outcome
            cases outcome
          simp [Except.map, isLeast]
      | ok value =>
          rcases readValue_term_iff.mp outcome with ⟨notLeast, isValue⟩
          rw [isValue, and_iff_right notLeast]
          exact inductionHypothesis known.2 sorted.2

end Entries

/-- A reply that gives entries is decided by these entries alone. -/
theorem readReply_sat
    (encoding : Encoding) {entries : List Sexp} {body : String}
    (bare : Sexp.BareAll entries)
    (spells : Sexp.Spells (Sexp.flat (.list entries)) body.toList) :
    readReply encoding ("sat\n" ++ body) =
      match readEntries encoding.symbols {} entries with
      | .ok values => .ok (.invalid ⟨values⟩)
      | .error cause => .error (.malformed cause) := by
  have solid : Sexp.Solid (Sexp.flat (.list entries)) := Sexp.solid_flat (.list entries) bare
  rw [← Text.intercalate_splitEvery '\n' body.toList] at spells
  have joined := spells.contentLines solid
  rw [← toList_contentLines] at joined
  have spelled : Sexp.Spells (Sexp.flatAll [.list entries])
      ("\n".intercalate (contentLines body)).toList := by
    rw [String.toList_intercalate, Sexp.flatAll, Sexp.flatAll, List.append_nil]
    exact joined
  rw [readReply, contentLines_sat, readLines, if_neg (by decide), if_neg (by decide),
    if_neg (by decide), if_pos rfl, readModel, Sexp.read_of_spells spelled]
  simp only [readItems]
  cases readEntries encoding.symbols {} entries with
  | error cause => rfl
  | ok values => rfl

private theorem get?_symbols
    {obligation : Obligation} {timeout : Option Nat} {encoding : Encoding}
    (encoded : encode obligation timeout = .ok encoding)
    (distinct : (obligation.parameters.map Variable.name).Nodup)
    {var : Variable} (member : var ∈ obligation.parameters) :
    encoding.symbols.get? (symbol var.name) = some (var.name, var.sort) := by
  rw [encode] at encoded
  rcases exists_ok_of_map_eq_ok encoded with ⟨body, _, isEncoding⟩
  rw [← isEncoding, TextMap.get?_ofList_eq_some_iff]
  · exact List.mem_map.mpr ⟨var, member, rfl⟩
  · have symbolsDistinct := distinct.map symbol_injective
    rw [List.map_map] at symbolsDistinct ⊢
    exact symbolsDistinct

/-- The values of a reply are those that were written into it, with any layout and in any order,
exactly when none of them is the least word. -/
theorem readReply_values_iff
    {obligation : Obligation} {timeout : Option Nat} {encoding : Encoding}
    (encoded : encode obligation timeout = .ok encoding)
    (distinct : (obligation.parameters.map Variable.name).Nodup)
    (words : ∀ var ∈ obligation.parameters, Lexeme.isWord var.name = true)
    {answer : String → Answer}
    (sorted : ∀ var ∈ obligation.parameters, (answer var.name).sort = var.sort)
    {order : List Variable} (permuted : order.Perm obligation.parameters)
    {body : String}
    (spells : Sexp.Spells (Sexp.flat (.list (order.map (entryOf answer)))) body.toList) :
    readReply encoding ("sat\n" ++ body) =
        .ok (.invalid ⟨.ofList (obligation.parameters.map
          fun var => (var.name, (answer var.name).value))⟩) ↔
      ∀ var ∈ obligation.parameters, answer var.name ≠ .int Int64.minValue := by
  have bare : Sexp.BareAll (order.map (entryOf answer)) :=
    Sexp.bareAll_map fun var member => bare_entryOf (words var (permuted.mem_iff.mp member))
  have known : ∀ var ∈ order, encoding.symbols.get? (symbol var.name) = some (var.name, var.sort) :=
    fun var member => get?_symbols encoded distinct (permuted.mem_iff.mp member)
  have orderSorted : ∀ var ∈ order, (answer var.name).sort = var.sort :=
    fun var member => sorted var (permuted.mem_iff.mp member)
  have sameValues : order.foldl
      (fun values var => values.insert var.name (answer var.name).value) {} =
        TextMap.ofList (obligation.parameters.map
          fun var => (var.name, (answer var.name).value)) := by
    have pairsDistinct : ((order.map fun var => (var.name, (answer var.name).value)).map
        Prod.fst).Nodup := by
      rw [List.map_map]
      exact (permuted.map Variable.name).nodup_iff.mpr distinct
    rw [← TextMap.ofList_perm pairsDistinct (permuted.map _), TextMap.ofList, List.foldl_map]
  have read : ∀ values, readEntries encoding.symbols {} (order.map (entryOf answer)) = .ok values ↔
      (∀ var ∈ obligation.parameters, answer var.name ≠ .int Int64.minValue) ∧
        values = TextMap.ofList (obligation.parameters.map
          fun var => (var.name, (answer var.name).value)) := by
    intro values
    rw [readEntries_entryOf_iff known orderSorted, sameValues]
    simp only [permuted.mem_iff]
  rw [readReply_sat encoding bare spells]
  cases outcome : readEntries encoding.symbols {} (order.map (entryOf answer)) with
  | error cause =>
      constructor
      · intro isOk
        cases isOk
      · intro readable
        rw [(read _).mpr ⟨readable, rfl⟩] at outcome
        cases outcome
  | ok values =>
      rcases (read values).mp outcome with ⟨readable, isValues⟩
      rw [isValues]
      exact ⟨fun _ => readable, fun _ => rfl⟩

/-- A gate that opens at a level when it is ready. -/
def gateObligation : Obligation where
  functionName := "gate"
  unknowns := [⟨"level", .int, true⟩, ⟨"ready", .bool, true⟩]
  decision := .branch (.var "ready") (.value (.int 1)) (.leaf (.value (.int 0)))
  constraints := {}
  validOutputs := [.value (.int 1)]

def gateEncoding : Encoding where
  script := scriptOf gateObligation none
    (.apply "ite" [.atom (symbol "ready"), natTerm 0, natTerm 1])
  outputs := outputsOf gateObligation
  symbols := .ofList (gateObligation.parameters.map fun var =>
    (symbol var.name, var.name, var.sort))

def gateAnswer (level : Int64) (name : String) : Answer :=
  if name = "level" then .int level else .bool false

/-- Answers for the gate on two lines, the last parameter first. -/
def gateBody (level : Int64) : String :=
  "(" ++ (entryOf (gateAnswer level) ⟨"ready", .bool, true⟩).text ++ "\n " ++
    (entryOf (gateAnswer level) ⟨"level", .int, true⟩).text ++ ")\n"

private theorem spells_gateBody (level : Int64) :
    Sexp.Spells (Sexp.flat (.list (gateObligation.parameters.reverse.map
      (entryOf (gateAnswer level))))) (gateBody level).toList := by
  have ready : (entryOf (gateAnswer level) ⟨"ready", .bool, true⟩).Bare := bare_entryOf (by decide)
  have level : (entryOf (gateAnswer level) ⟨"level", .int, true⟩).Bare := bare_entryOf (by decide)
  have alone := Sexp.spells_text _ ready (by simp [Sexp.Delimited]) Sexp.Spells.nil
  have closed := Sexp.spells_text _ level (Sexp.delimited_closing ['\n'])
    (.closing (.blank (by decide) .nil))
  have indented : Sexp.Spells _ (' ' :: _) := .blank (by decide) closed
  have together := (Sexp.Spells.opening alone).append_blank (c := '\n') (by decide) indented
  have reversed : gateObligation.parameters.reverse =
      [⟨"ready", .bool, true⟩, ⟨"level", .int, true⟩] := rfl
  rw [reversed]
  simpa [gateBody, Sexp.flat, Sexp.flatAll] using together

theorem readReply_values_gate :
    encode gateObligation none = .ok gateEncoding ∧
      readReply gateEncoding "sat\n((v_ready false)\n (v_level (- 9223372036854775807)))\n" =
        .ok (.invalid ⟨.ofList
          [("level", .int (-9223372036854775807)), ("ready", .bool false)]⟩) := by
  have encoded : encode gateObligation none = .ok gateEncoding := rfl
  have written : "sat\n((v_ready false)\n (v_level (- 9223372036854775807)))\n" =
      "sat\n" ++ gateBody (-9223372036854775807) := by decide +kernel
  have readable : ∀ var ∈ gateObligation.parameters,
      gateAnswer (-9223372036854775807) var.name ≠ .int Int64.minValue := by decide
  rw [written]
  exact ⟨encoded, (readReply_values_iff encoded (by decide) (by decide) (by decide)
    (List.reverse_perm _) (spells_gateBody _)).mpr readable⟩

/-- The least word is written by its magnitude, which is too large to be read. -/
theorem readReply_gate_least :
    readReply gateEncoding "sat\n((v_ready false)\n (v_level (- 9223372036854775808)))\n" =
      .error (.malformed (.badInteger "9223372036854775808" .tooLarge)) := by
  have written : "sat\n((v_ready false)\n (v_level (- 9223372036854775808)))\n" =
      "sat\n" ++ gateBody Int64.minValue := by decide +kernel
  have words : ∀ var ∈ gateObligation.parameters.reverse, Lexeme.isWord var.name = true := by
    decide
  have bare : Sexp.BareAll (gateObligation.parameters.reverse.map
      (entryOf (gateAnswer Int64.minValue))) :=
    Sexp.bareAll_map fun var member => bare_entryOf (words var member)
  rw [written, readReply_sat gateEncoding bare (spells_gateBody Int64.minValue)]
  rfl

end Smt

end Rulebook
