import Rulebook.Proofs.Sexp

/-!
# Texts of s-expressions

An s-expression can be written in many ways: an atom that nothing in it ends is written as it is,
any other between bars, and blanks may stand everywhere around atoms and lists. Reading undoes all
these ways of writing. It fails on a text only for its parentheses, of which those in quoted atoms
do not count: where one is closed that was not opened, or where one is left open.
-/

namespace Rulebook.Sexp

mutual

def atoms : Sexp → List String
  | .atom text => [text]
  | .list items => atomsOf items

def atomsOf : List Sexp → List String
  | [] => []
  | item :: rest => atoms item ++ atomsOf rest

end

/-- An atom that can be written, be it between bars. -/
def WritableAtom (text : String) : Prop := BareAtom text ∨ '|' ∉ text.toList

/-- The characters are a way of writing the items, one after the other. What follows an atom that
is written as it is must not lengthen it. -/
inductive Renders : List Sexp → List Char → Prop
  | nil : Renders [] []
  | blank {c : Char} {items : List Sexp} {chars : List Char} :
      Text.isBlank c = true →
      Renders items chars →
      Renders items (c :: chars)
  | bare {text : String} {items : List Sexp} {chars : List Char} :
      BareAtom text →
      Delimited chars →
      Renders items chars →
      Renders (.atom text :: items) (text.toList ++ chars)
  | quoted {text : String} {items : List Sexp} {chars : List Char} :
      ¬ BareAtom text →
      '|' ∉ text.toList →
      Renders items chars →
      Renders (.atom text :: items) ('|' :: (text.toList ++ '|' :: chars))
  | list {inner items : List Sexp} {body chars : List Char} :
      Renders inner body →
      Renders items chars →
      Renders (.list inner :: items) ('(' :: (body ++ ')' :: chars))

private theorem spells_of_renders {items : List Sexp} {chars : List Char}
    (renders : Renders items chars) : Spells (flatAll items) chars := by
  induction renders with
  | nil => exact .nil
  | blank isBlank _ inductionHypothesis => exact .blank isBlank inductionHypothesis
  | bare atom delimited _ inductionHypothesis => exact .bare atom delimited inductionHypothesis
  | quoted _ noBar _ inductionHypothesis => exact .quoted noBar inductionHypothesis
  | @list inner items body chars _ _ innerHypothesis restHypothesis =>
      have closed := Spells.closing restHypothesis
      have spelled := Spells.opening (innerHypothesis.append (delimited_closing chars) closed)
      simpa [flatAll, flat] using spelled

private theorem writable_of_renders {items : List Sexp} {chars : List Char}
    (renders : Renders items chars) : ∀ text ∈ atomsOf items, WritableAtom text := by
  induction renders with
  | nil => simp [atomsOf]
  | blank _ _ inductionHypothesis => exact inductionHypothesis
  | bare atom _ _ inductionHypothesis =>
      exact List.forall_mem_cons.mpr ⟨.inl atom, inductionHypothesis⟩
  | quoted _ noBar _ inductionHypothesis =>
      exact List.forall_mem_cons.mpr ⟨.inr noBar, inductionHypothesis⟩
  | list _ _ innerHypothesis restHypothesis =>
      exact List.forall_mem_append.mpr ⟨innerHypothesis, restHypothesis⟩

mutual

/-- An item can be written before others, with a space between them. -/
theorem exists_renders_cons
    (item : Sexp) (writable : ∀ text ∈ atoms item, WritableAtom text)
    {items : List Sexp} {chars : List Char} (renders : Renders items chars) :
    ∃ longer, Renders (item :: items) longer := by
  have spaced : Renders items (' ' :: chars) := .blank (by decide) renders
  cases item with
  | atom text =>
      by_cases isBare : BareAtom text
      · exact ⟨_, .bare isBare (delimited_space chars) spaced⟩
      · have noBar := (writable text (List.mem_singleton_self _)).resolve_left isBare
        exact ⟨_, .quoted isBare noBar spaced⟩
  | list inner =>
      obtain ⟨body, innerRenders⟩ := exists_renders inner writable
      exact ⟨_, .list innerRenders spaced⟩

private theorem exists_renders
    (items : List Sexp) (writable : ∀ text ∈ atomsOf items, WritableAtom text) :
    ∃ chars, Renders items chars := by
  cases items with
  | nil => exact ⟨[], .nil⟩
  | cons item rest =>
      have split := List.forall_mem_append.mp writable
      obtain ⟨chars, renders⟩ := exists_renders rest split.2
      exact exists_renders_cons item split.1 renders

end

inductive Paren where
  | opening
  | closing
deriving DecidableEq, Repr

def Paren.ofChar? (c : Char) : Option Paren :=
  if c = '(' then some .opening else if c = ')' then some .closing else none

/-- Where a reader of characters is: between atoms, in an atom without quotes, or in one that ends
with the given mark. -/
inductive Place where
  | between
  | word
  | quoted (mark : Char)
deriving DecidableEq, Repr

namespace Place

/-- The place behind a character. A mark inside of a word is part of the word. -/
def after : Place → Char → Place
  | .between, c =>
      if c = '|' ∨ c = '"' then .quoted c else if isDelimiter c then .between else .word
  | .word, c => if isDelimiter c then .between else .word
  | .quoted mark, c => if c = mark then .between else .quoted mark

/-- A character as a parenthesis; in a quoted atom there are none. -/
def paren? : Place → Char → Option Paren
  | .between, c | .word, c => Paren.ofChar? c
  | .quoted _, _ => none

/-- The parentheses outside of quoted atoms. -/
def parens (place : Place) : List Char → List Paren
  | [] => []
  | c :: rest => (place.paren? c).toList ++ (place.after c).parens rest

end Place

/-- How many parentheses are opened outside of quoted atoms. -/
def openings (chars : List Char) : Nat := (Place.between.parens chars).count .opening

/-- How many parentheses are closed outside of quoted atoms. -/
def closings (chars : List Char) : Nat := (Place.between.parens chars).count .closing

namespace Place

private theorem parens_append (place : Place) (front back : List Char) :
    place.parens (front ++ back) = place.parens front ++ (front.foldl after place).parens back := by
  induction front generalizing place with
  | nil => rfl
  | cons c rest inductionHypothesis =>
      rw [List.cons_append, parens, parens, inductionHypothesis, List.append_assoc,
        List.foldl_cons]

private theorem exists_prefix_of_parens
    {place : Place} {chars : List Char} {first : List Paren}
    (isFirst : first <+: place.parens chars) :
    ∃ before, before <+: chars ∧ place.parens before = first := by
  induction chars generalizing place first with
  | nil => exact ⟨[], List.prefix_rfl, (List.prefix_nil.mp isFirst).symm⟩
  | cons c rest inductionHypothesis =>
      rw [parens] at isFirst
      cases isParen : place.paren? c with
      | none =>
          rw [isParen] at isFirst
          obtain ⟨before, isBefore, rfl⟩ := inductionHypothesis isFirst
          refine ⟨c :: before, List.cons_prefix_cons.mpr ⟨rfl, isBefore⟩, ?_⟩
          rw [parens, isParen]
          rfl
      | some paren =>
          rw [isParen] at isFirst
          rcases List.prefix_cons_iff.mp isFirst with rfl | ⟨later, rfl, isLater⟩
          · exact ⟨[], List.nil_prefix, rfl⟩
          · obtain ⟨before, isBefore, rfl⟩ := inductionHypothesis isLater
            refine ⟨c :: before, List.cons_prefix_cons.mpr ⟨rfl, isBefore⟩, ?_⟩
            rw [parens, isParen]
            rfl

theorem between_after_delimiter {c : Char} (isEnd : isDelimiter c = true) :
    between.after c = between := by
  have notMark : ¬ (c = '|' ∨ c = '"') := by
    rintro (rfl | rfl)
    · exact absurd isEnd (by decide)
    · exact absurd isEnd (by decide)
  rw [after, if_neg notMark, if_pos isEnd]

theorem parens_cons_of_ne
    (place : Place) {c : Char} (notOpening : c ≠ '(') (notClosing : c ≠ ')') (rest : List Char) :
    place.parens (c :: rest) = (place.after c).parens rest := by
  have notParen : place.paren? c = none := by
    cases place with
    | between | word => rw [paren?, Paren.ofChar?, if_neg notOpening, if_neg notClosing]
    | quoted mark => rfl
  rw [parens, notParen]
  rfl

/-- A quoted atom is passed over together with its closing mark, if there is one. -/
theorem parens_quoted (mark : Char) (chars : List Char) :
    (quoted mark).parens chars =
      between.parens ((chars.dropWhile (· != mark)).drop 1) := by
  induction chars with
  | nil => rfl
  | cons c rest inductionHypothesis =>
      rw [parens, paren?, after]
      by_cases isMark : c = mark
      · simp [isMark]
      · simp [isMark, inductionHypothesis]

/-- The rest of a word is passed over. The character that ends it counts, so it is still to be read.
-/
theorem parens_word (chars : List Char) :
    word.parens chars = between.parens (chars.dropWhile (!isDelimiter ·)) := by
  induction chars with
  | nil => rfl
  | cons c rest inductionHypothesis =>
      by_cases isEnd : isDelimiter c = true
      · rw [List.dropWhile_cons_of_neg (by simpa using isEnd), parens, parens,
          between_after_delimiter isEnd, after, if_pos isEnd]
        rfl
      · have notParen := isEnd
        simp only [isDelimiter, isParen, Bool.or_eq_true, beq_iff_eq, not_or] at notParen
        rw [List.dropWhile_cons_of_pos (by simpa using isEnd),
          parens_cons_of_ne word notParen.2.1 notParen.2.2, after, if_neg isEnd,
          inductionHypothesis]

end Place

def Piece.paren? : Piece → Option Paren
  | .opening => some .opening
  | .closing => some .closing
  | .atom _ => none

/-- Cutting a text into pieces finds the parentheses outside of quoted atoms. -/
theorem parens_pieces (chars : List Char) :
    (pieces chars).filterMap Piece.paren? = Place.between.parens chars := by
  fun_induction pieces chars with
  | case1 => rfl
  | case2 rest inductionHypothesis =>
      rw [List.filterMap_cons, inductionHypothesis]
      rfl
  | case3 rest _ inductionHypothesis =>
      rw [List.filterMap_cons, inductionHypothesis]
      rfl
  | case4 c rest notOpening notClosing blank inductionHypothesis =>
      have isEnd : isDelimiter c = true := by rw [isDelimiter, blank, Bool.true_or]
      rw [inductionHypothesis, Place.parens_cons_of_ne _ notOpening notClosing,
        Place.between_after_delimiter isEnd]
  | case5 c rest notOpening notClosing _ isMark inductionHypothesis =>
      rw [List.filterMap_cons, inductionHypothesis,
        Place.parens_cons_of_ne _ notOpening notClosing, Place.after, if_pos isMark,
        Place.parens_quoted]
      rfl
  | case6 c rest notOpening notClosing notBlank notMark inductionHypothesis =>
      have notEnd : ¬ isDelimiter c = true := by
        simp [isDelimiter, isParen, notOpening, notClosing, notBlank]
      rw [List.filterMap_cons, inductionHypothesis,
        Place.parens_cons_of_ne _ notOpening notClosing, Place.after, if_neg notMark,
        if_neg notEnd, Place.parens_word]
      rfl

/-! ## Balance -/

/-- The depth behind parentheses, unless one is closed that was not opened. -/
def depthAfter : Nat → List Paren → Option Nat
  | depth, [] => some depth
  | depth, .opening :: rest => depthAfter (depth + 1) rest
  | 0, .closing :: _ => none
  | depth + 1, .closing :: rest => depthAfter depth rest

private theorem exists_prefix_cons_iff {α : Type} {head : α} {rest : List α}
    {holds : List α → Prop} :
    (∃ first, first <+: head :: rest ∧ holds first) ↔
      holds [] ∨ ∃ later, later <+: rest ∧ holds (head :: later) := by
  constructor
  · rintro ⟨first, isFirst, held⟩
    rcases List.prefix_cons_iff.mp isFirst with rfl | ⟨later, rfl, isLater⟩
    · exact .inl held
    · exact .inr ⟨later, isLater, held⟩
  · rintro (held | ⟨later, isLater, held⟩)
    · exact ⟨[], List.nil_prefix, held⟩
    · exact ⟨head :: later, List.cons_prefix_cons.mpr ⟨rfl, isLater⟩, held⟩

theorem count_closing_cons (later : List Paren) :
    (Paren.opening :: later).count .closing = later.count .closing :=
  List.count_cons_of_ne (by decide)

theorem count_opening_cons (later : List Paren) :
    (Paren.closing :: later).count .opening = later.count .opening :=
  List.count_cons_of_ne (by decide)

/-- A depth is missing exactly where some beginning closes more than has been opened. -/
theorem depthAfter_eq_none_iff (depth : Nat) (parens : List Paren) :
    depthAfter depth parens = none ↔
      ∃ first, first <+: parens ∧ depth + first.count .opening < first.count .closing := by
  fun_induction depthAfter depth parens with
  | case1 depth => simp
  | case2 depth rest inductionHypothesis =>
      rw [inductionHypothesis, exists_prefix_cons_iff]
      simp only [List.count_nil, Nat.not_lt_zero, false_or, count_closing_cons,
        List.count_cons_self, Nat.add_right_comm depth 1, Nat.add_assoc]
  | case3 rest =>
      rw [exists_prefix_cons_iff]
      refine iff_of_true rfl (.inr ⟨[], List.nil_prefix, ?_⟩)
      decide
  | case4 depth rest inductionHypothesis =>
      rw [inductionHypothesis, exists_prefix_cons_iff]
      simp only [List.count_nil, Nat.not_lt_zero, false_or, count_opening_cons,
        List.count_cons_self, Nat.add_right_comm depth 1, Nat.add_lt_add_iff_right]

private theorem count_of_depthAfter {depth final : Nat} {parens : List Paren}
    (reached : depthAfter depth parens = some final) :
    depth + parens.count .opening = final + parens.count .closing := by
  fun_induction depthAfter depth parens with
  | case1 depth =>
      cases reached
      rfl
  | case2 depth rest inductionHypothesis =>
      have balance := inductionHypothesis reached
      rw [List.count_cons_self, count_closing_cons]
      omega
  | case3 rest => cases reached
  | case4 depth rest inductionHypothesis =>
      have balance := inductionHypothesis reached
      rw [List.count_cons_self, count_opening_cons]
      omega

/-- Whether the lists can be built depends on the depth alone. -/
theorem assemble_eq_error_iff
    (current : List Sexp) (outer : List (List Sexp)) (parts : List Piece) :
    (assemble current outer parts = .error .unmatchedClosing ↔
      depthAfter outer.length (parts.filterMap Piece.paren?) = none) ∧
    (assemble current outer parts = .error .unmatchedOpening ↔
      ∃ depth, depthAfter outer.length (parts.filterMap Piece.paren?) = some (depth + 1)) := by
  fun_induction assemble current outer parts with
  | case1 current outer isClosed =>
      rw [List.isEmpty_iff.mp isClosed]
      simp [depthAfter]
  | case2 current outer isOpen =>
      cases outer with
      | nil => exact absurd rfl isOpen
      | cons parent outer => simp [depthAfter]
  | case3 current outer rest inductionHypothesis =>
      exact inductionHypothesis
  | case4 current rest =>
      simp [Piece.paren?, depthAfter]
  | case5 current rest parent outer inductionHypothesis =>
      exact inductionHypothesis
  | case6 current outer text rest inductionHypothesis =>
      exact inductionHypothesis

/-- The two errors of reading, in terms of the depth behind the parentheses of the text. -/
theorem read_eq_error_iff (text : String) :
    (read text = .error .unmatchedClosing ↔
      depthAfter 0 (Place.between.parens text.toList) = none) ∧
    (read text = .error .unmatchedOpening ↔
      ∃ depth, depthAfter 0 (Place.between.parens text.toList) = some (depth + 1)) := by
  have built := assemble_eq_error_iff [] [] (pieces text.toList)
  rwa [parens_pieces] at built

private theorem depthAfter_parens_eq_none_iff (chars : List Char) :
    depthAfter 0 (Place.between.parens chars) = none ↔
      ∃ before, before <+: chars ∧ openings before < closings before := by
  rw [depthAfter_eq_none_iff]
  simp only [Nat.zero_add]
  constructor
  · rintro ⟨first, isFirst, exceeded⟩
    obtain ⟨before, isBefore, rfl⟩ := Place.exists_prefix_of_parens isFirst
    exact ⟨before, isBefore, exceeded⟩
  · rintro ⟨before, ⟨after, split⟩, exceeded⟩
    refine ⟨Place.between.parens before, ?_, exceeded⟩
    rw [← split, Place.parens_append]
    exact List.prefix_append _ _

/-- Reading fails where a beginning closes too much or the totals differ. -/
theorem read_fails_iff (text : String) :
    (∃ error, read text = .error error) ↔
      (∃ before, before <+: text.toList ∧ openings before < closings before) ∨
        openings text.toList ≠ closings text.toList := by
  have fails := read_eq_error_iff text
  rw [← depthAfter_parens_eq_none_iff]
  cases reached : depthAfter 0 (Place.between.parens text.toList) with
  | none =>
      exact iff_of_true ⟨.unmatchedClosing, fails.1.mpr reached⟩ (.inl rfl)
  | some final =>
      have balance : openings text.toList = final + closings text.toList := by
        rw [openings, closings, ← count_of_depthAfter reached, Nat.zero_add]
      rw [reached] at fails
      cases final with
      | zero =>
          refine iff_of_false ?_ (by simp [balance])
          rintro ⟨error, isError⟩
          cases error with
          | unmatchedClosing => simp [isError] at fails
          | unmatchedOpening => simp [isError] at fails
      | succ depth =>
          exact iff_of_true ⟨.unmatchedOpening, fails.2.mpr ⟨depth, rfl⟩⟩ (.inr (by omega))

/-- Every list whose atoms are bare or free of bars has renderings, and no other has. Whatever the
rendering, reading it gives the list. Reading fails exactly where, outside of quoted atoms, some
beginning of the text closes more parentheses than it opens, or the whole text does not close as
many as it opens. -/
theorem read_inverts_rendering :
    (∀ items : List Sexp, (∃ text : String, Renders items text.toList) ↔
      ∀ text ∈ atomsOf items, BareAtom text ∨ '|' ∉ text.toList) ∧
    (∀ (items : List Sexp) (text : String), Renders items text.toList → read text = .ok items) ∧
    ∀ text : String, (∃ error, read text = .error error) ↔
      (∃ before, before <+: text.toList ∧ openings before < closings before) ∨
        openings text.toList ≠ closings text.toList := by
  refine ⟨?_, ?_, read_fails_iff⟩
  · intro items
    constructor
    · rintro ⟨text, renders⟩
      exact writable_of_renders renders
    · intro writable
      obtain ⟨chars, renders⟩ := exists_renders items writable
      refine ⟨String.ofList chars, ?_⟩
      rwa [String.toList_ofList]
  · intro items text renders
    exact read_of_spells (spells_of_renders renders)

/-- An empty list, an empty atom, a bar inside of an atom, and parentheses in another. -/
def noticeItems : List Sexp :=
  [.list [.atom "error", .atom "bad (thing"], .list [.list [], .atom "", .atom "a|b"]]

private theorem renders_notice :
    Renders noticeItems " (error |bad (thing|)\t(() ||  a|b\n)".toList := by
  have bare : Renders [.atom "a|b"] ("a|b".toList ++ ['\n']) :=
    .bare (by decide) (delimited_newline []) (.blank (by decide) .nil)
  have empty : Renders [.atom "", .atom "a|b"] ("||  a|b\n").toList :=
    .quoted (by decide) (by decide) (.blank (by decide) (.blank (by decide) bare))
  have second : Renders [.list [.list [], .atom "", .atom "a|b"]] "(() ||  a|b\n)".toList :=
    .list (.list .nil (.blank (by decide) empty)) .nil
  have thing : Renders [.atom "bad (thing"] "|bad (thing|".toList :=
    .quoted (by decide) (by decide) .nil
  have first : Renders [.atom "error", .atom "bad (thing"] "error |bad (thing|".toList :=
    .bare (by decide) (delimited_space _) (.blank (by decide) thing)
  exact .blank (by decide) (.list first (.blank (by decide) second))

/-- The totals of the second text agree, but it closes before it opens. -/
theorem read_inverts_rendering_notice :
    read " (error |bad (thing|)\t(() ||  a|b\n)" = .ok noticeItems ∧
      ∃ error, read "a )(" = .error error := by
  refine ⟨read_inverts_rendering.2.1 _ _ renders_notice, ?_⟩
  rw [read_inverts_rendering.2.2]
  exact .inl ⟨['a', ' ', ')'], ⟨['('], rfl⟩, by decide⟩

end Rulebook.Sexp
