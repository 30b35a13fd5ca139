import Rulebook.Sexp
import Rulebook.Proofs.Basic

/-!
# Reading written s-expressions

Reading goes through pieces, so this module says how pieces are spelled: with any blanks around
them, an atom as it is where nothing in it ends it, or between bars. Characters that spell pieces
are cut into just these pieces, and the pieces of s-expressions are put together to these
s-expressions again. In particular reading undoes writing where all atoms are bare.
-/

namespace Rulebook.Sexp

/-- An atom that can be written without quotes. -/
def BareAtom (text : String) : Prop :=
  text.toList ≠ [] ∧ (∀ c ∈ text.toList, isDelimiter c = false) ∧
    text.toList.head? ≠ some '|' ∧ text.toList.head? ≠ some '"'

instance (text : String) : Decidable (BareAtom text) :=
  have : Decidable (∀ c ∈ text.toList, isDelimiter c = false) := List.decidableBAll _ _
  inferInstanceAs (Decidable (_ ∧ _))

/-- Nothing follows that would lengthen an atom. -/
def Delimited (chars : List Char) : Prop :=
  ∀ c, chars.head? = some c → isDelimiter c = true

/-- The characters spell the pieces. -/
inductive Spells : List Piece → List Char → Prop
  | nil : Spells [] []
  | blank {c : Char} {pieces : List Piece} {chars : List Char} :
      Text.isBlank c = true →
      Spells pieces chars →
      Spells pieces (c :: chars)
  | opening {pieces : List Piece} {chars : List Char} :
      Spells pieces chars →
      Spells (.opening :: pieces) ('(' :: chars)
  | closing {pieces : List Piece} {chars : List Char} :
      Spells pieces chars →
      Spells (.closing :: pieces) (')' :: chars)
  | bare {text : String} {pieces : List Piece} {chars : List Char} :
      BareAtom text →
      Delimited chars →
      Spells pieces chars →
      Spells (.atom text :: pieces) (text.toList ++ chars)
  | quoted {text : String} {pieces : List Piece} {chars : List Char} :
      '|' ∉ text.toList →
      Spells pieces chars →
      Spells (.atom text :: pieces) ('|' :: (text.toList ++ '|' :: chars))

/-- Characters that spell pieces are cut into these pieces. -/
theorem pieces_of_spells {expected : List Piece} {chars : List Char}
    (spells : Spells expected chars) : pieces chars = expected := by
  induction spells with
  | nil => rw [pieces]
  | @blank c _ _ blank _ inductionHypothesis =>
      have notOpening : c ≠ '(' := by
        rintro rfl
        exact absurd blank (by decide)
      have notClosing : c ≠ ')' := by
        rintro rfl
        exact absurd blank (by decide)
      rw [pieces, if_neg notOpening, if_neg notClosing, if_pos blank, inductionHypothesis]
  | opening _ inductionHypothesis =>
      rw [pieces, if_pos rfl, inductionHypothesis]
  | closing _ inductionHypothesis =>
      rw [pieces, if_neg (by decide), if_pos rfl, inductionHypothesis]
  | @bare text _ rest atom delimited _ inductionHypothesis =>
      obtain ⟨nonempty, inside, noBar, noQuote⟩ := atom
      obtain ⟨c, word, split⟩ := List.exists_cons_of_ne_nil nonempty
      rw [split] at inside noBar noQuote
      have notDelimiter : isDelimiter c = false := inside c List.mem_cons_self
      simp only [isDelimiter, isParen, Bool.or_eq_false_iff, beq_eq_false_iff_ne] at notDelimiter
      have notMark : ¬ (c = '|' ∨ c = '"') := by
        simp only [List.head?_cons, ne_eq, Option.some.injEq] at noBar noQuote
        tauto
      have cut := takeWhile_append_delimited (!isDelimiter ·) word rest
        (fun d member => by simp [inside d (List.mem_cons_of_mem _ member)])
        (fun d first => by simp [delimited d first])
      rw [split, List.cons_append, pieces, if_neg notDelimiter.2.1, if_neg notDelimiter.2.2,
        if_neg (by simp [notDelimiter.1]), if_neg notMark, cut.1, cut.2, inductionHypothesis,
        ← split, String.ofList_toList]
  | @quoted text _ rest noBar _ inductionHypothesis =>
      have cut := takeWhile_append_delimited (· != '|') text.toList ('|' :: rest)
        (fun d member => by
          have different : d ≠ '|' := by
            rintro rfl
            exact noBar member
          simpa using different)
        (fun d first => by
          cases first
          rfl)
      rw [pieces, if_neg (by decide), if_neg (by decide), if_neg (by decide),
        if_pos (Or.inl rfl), cut.1, cut.2, List.drop_one, List.tail_cons, inductionHypothesis,
        String.ofList_toList]

/-- Spellings can be put together unless the second would lengthen an atom of the first. -/
theorem Spells.append
    {earlier later : List Piece} {front back : List Char}
    (first : Spells earlier front) (delimited : Delimited back) (second : Spells later back) :
    Spells (earlier ++ later) (front ++ back) := by
  induction first with
  | nil => exact second
  | blank isBlank _ inductionHypothesis => exact .blank isBlank inductionHypothesis
  | opening _ inductionHypothesis => exact .opening inductionHypothesis
  | closing _ inductionHypothesis => exact .closing inductionHypothesis
  | @bare text _ rest atom cut _ inductionHypothesis =>
      have stillCut : Delimited (rest ++ back) := by
        intro d isHead
        cases rest with
        | nil => exact delimited d isHead
        | cons e rest => exact cut d isHead
      have spelled := Spells.bare atom stillCut inductionHypothesis
      simpa using spelled
  | quoted noBar _ inductionHypothesis =>
      have spelled := Spells.quoted noBar inductionHypothesis
      simpa using spelled

mutual

def flat : Sexp → List Piece
  | .atom text => [.atom text]
  | .list items => .opening :: (flatAll items ++ [.closing])

def flatAll : List Sexp → List Piece
  | [] => []
  | item :: rest => flat item ++ flatAll rest

end

mutual

/-- The pieces of an item are put together as the item, at whatever depth it stands. -/
theorem assemble_flat
    (current : List Sexp) (outer : List (List Sexp)) (item : Sexp) (rest : List Piece) :
    assemble current outer (flat item ++ rest) = assemble (current ++ [item]) outer rest := by
  cases item with
  | atom text => rw [flat, List.singleton_append, assemble]
  | list items =>
      rw [flat, List.cons_append, List.append_assoc, assemble,
        assemble_flatAll [] (current :: outer) items, List.singleton_append, assemble,
        List.nil_append]

private theorem assemble_flatAll
    (current : List Sexp) (outer : List (List Sexp)) (items : List Sexp) (rest : List Piece) :
    assemble current outer (flatAll items ++ rest) = assemble (current ++ items) outer rest := by
  cases items with
  | nil => rw [flatAll, List.nil_append, List.append_nil]
  | cons item others =>
      rw [flatAll, List.append_assoc, assemble_flat current outer item,
        assemble_flatAll _ outer others, List.append_assoc, List.singleton_append]

end

/-- What spells the pieces of items is read as these items. -/
theorem read_of_spells {items : List Sexp} {text : String}
    (spells : Spells (flatAll items) text.toList) : read text = .ok items := by
  have assembled := assemble_flatAll [] [] items []
  rw [List.append_nil, List.nil_append] at assembled
  rw [read, pieces_of_spells spells, assembled]
  rfl

mutual

/-- No atom needs quotes. -/
def Bare : Sexp → Prop
  | .atom text => BareAtom text
  | .list items => BareAll items

def BareAll : List Sexp → Prop
  | [] => True
  | item :: rest => Bare item ∧ BareAll rest

end

theorem bare_apply {head : String} {arguments : List Sexp}
    (headBare : BareAtom head) (argumentsBare : BareAll arguments) :
    (apply head arguments).Bare :=
  ⟨headBare, argumentsBare⟩

theorem bareAll_atoms {symbols : List String} (bare : ∀ symbol ∈ symbols, BareAtom symbol) :
    BareAll (symbols.map .atom) := by
  induction symbols with
  | nil => trivial
  | cons symbol rest inductionHypothesis =>
      rw [List.forall_mem_cons] at bare
      exact ⟨bare.1, inductionHypothesis bare.2⟩

@[simp]
theorem delimited_space (chars : List Char) : Delimited (' ' :: chars) := by
  intro c first
  cases first
  decide

@[simp]
theorem delimited_closing (chars : List Char) : Delimited (')' :: chars) := by
  intro c first
  cases first
  decide

@[simp]
theorem delimited_newline (chars : List Char) : Delimited ('\n' :: chars) := by
  intro c first
  cases first
  decide

mutual

/-- The text of a bare item spells its pieces. -/
theorem spells_text
    (item : Sexp) (bare : item.Bare) {pieces : List Piece} {chars : List Char}
    (delimited : Delimited chars) (spells : Spells pieces chars) :
    Spells (flat item ++ pieces) (item.text.toList ++ chars) := by
  cases item with
  | atom text => exact .bare bare delimited spells
  | list items =>
      have inner :=
        spells_texts items bare (delimited_closing chars) (Spells.closing spells)
      have outer := Spells.opening inner
      simpa [flat, text] using outer

theorem spells_texts
    (items : List Sexp) (bare : BareAll items) {pieces : List Piece} {chars : List Char}
    (delimited : Delimited chars) (spells : Spells pieces chars) :
    Spells (flatAll items ++ pieces)
      (List.intercalate [' '] ((texts items).map String.toList) ++ chars) := by
  match items with
  | [] => exact spells
  | [item] =>
      have single := spells_text item bare.1 delimited spells
      simpa [flatAll, texts] using single
  | item :: next :: rest =>
      have others := spells_texts (next :: rest) bare.2 delimited spells
      have spaced := spells_text item bare.1 (delimited_space _) (Spells.blank (by decide) others)
      simpa [flatAll, texts] using spaced

end

mutual

theorem newline_notMem_text (item : Sexp) (bare : item.Bare) : '\n' ∉ item.text.toList := by
  cases item with
  | atom text =>
      intro member
      exact absurd (bare.2.1 _ member) (by decide)
  | list items =>
      have inner := newline_notMem_texts items bare
      simpa [text] using inner

theorem newline_notMem_texts (items : List Sexp) (bare : BareAll items) :
    '\n' ∉ List.intercalate [' '] ((texts items).map String.toList) := by
  match items with
  | [] => simp [texts]
  | [item] =>
      have single := newline_notMem_text item bare.1
      simpa [texts] using single
  | item :: next :: rest =>
      have first := newline_notMem_text item bare.1
      have others := newline_notMem_texts (next :: rest) bare.2
      simp only [texts, List.map_cons] at others
      simp [texts, first, others]

end

@[simp]
theorem texts_atoms (symbols : List String) : texts (symbols.map Sexp.atom) = symbols := by
  induction symbols with
  | nil => rfl
  | cons symbol rest inductionHypothesis =>
      rw [List.map_cons, texts, inductionHypothesis, text]

end Rulebook.Sexp
