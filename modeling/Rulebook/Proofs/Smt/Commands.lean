import Rulebook.Proofs.Decimal
import Rulebook.Proofs.Smt.Script
import Rulebook.Proofs.TextMap

/-!
# Runs of commands

How runs of declarations and of assertions change what the commands after them are checked
against, and why commands that are well sorted over proper symbols never need quotes.
-/

namespace Rulebook.Smt

private theorem isAlphanum_bounds {c : Char} (alphanumeric : c.isAlphanum = true) :
    48 ≤ c.toNat ∧ c.toNat ≤ 122 := by
  have bounds : ∀ {lower upper : UInt32}, lower ≤ c.val → c.val ≤ upper →
      lower.toNat ≤ c.toNat ∧ c.toNat ≤ upper.toNat :=
    fun above below => ⟨UInt32.le_iff_toNat_le.mp above, UInt32.le_iff_toNat_le.mp below⟩
  rcases Bool.or_eq_true_iff.mp alphanumeric with letter | digit
  · rcases Bool.or_eq_true_iff.mp letter with capital | small
    · have inRange := of_decide_eq_true capital
      have between : 65 ≤ c.toNat ∧ c.toNat ≤ 90 := bounds inRange.1 inRange.2
      omega
    · obtain ⟨above, below⟩ := Bool.and_eq_true_iff.mp small
      have between : 97 ≤ c.toNat ∧ c.toNat ≤ 122 :=
        bounds (of_decide_eq_true above) (of_decide_eq_true below)
      omega
  · obtain ⟨above, below⟩ := Bool.and_eq_true_iff.mp digit
    have between : 48 ≤ c.toNat ∧ c.toNat ≤ 57 :=
      bounds (of_decide_eq_true above) (of_decide_eq_true below)
    omega

private theorem isSymbolChar_apart {c : Char} (symbolic : isSymbolChar c = true) :
    Sexp.isDelimiter c = false ∧ c ≠ '|' ∧ c ≠ '"' := by
  rcases Bool.or_eq_true_iff.mp symbolic with alphanumeric | listed
  · have bounds := isAlphanum_bounds alphanumeric
    have notBlank : Text.isBlank c = false := by
      simp only [Text.isBlank, Text.blankRanges, List.any_cons, List.any_nil, Bool.or_false,
        Bool.or_eq_false_iff, Bool.and_eq_false_iff, decide_eq_false_iff_not]
      omega
    have different : ∀ d : Char, d.toNat < 48 ∨ 122 < d.toNat → c ≠ d := by
      rintro d outside rfl
      omega
    have notParen : Sexp.isParen c = false := by
      simp [Sexp.isParen, different '(' (by decide), different ')' (by decide)]
    exact ⟨by rw [Sexp.isDelimiter, notBlank, notParen]; rfl, different '|' (by decide),
      different '"' (by decide)⟩
  · have apart : "~!@$%^&*_-+=<>.?/".toList.all
        (fun d => !Sexp.isDelimiter d && d != '|' && d != '"') = true := by
      decide
    have ofThis := List.all_eq_true.mp apart c (List.contains_iff_mem.mp listed)
    simpa [and_assoc] using ofThis

theorem bareAtom_of_symbolChars {text : String}
    (nonempty : text.toList ≠ []) (symbolic : ∀ c ∈ text.toList, isSymbolChar c = true) :
    Sexp.BareAtom text := by
  refine ⟨nonempty, fun c member => (isSymbolChar_apart (symbolic c member)).1, ?_, ?_⟩
  · intro head
    exact (isSymbolChar_apart (symbolic _ (List.mem_of_head? head))).2.1 rfl
  · intro head
    exact (isSymbolChar_apart (symbolic _ (List.mem_of_head? head))).2.2 rfl

theorem IsSymbol.bareAtom {text : String} (isSymbol : IsSymbol text) : Sexp.BareAtom text := by
  obtain ⟨⟨first, rest, split, _⟩, symbolic, _⟩ := isSymbol
  exact bareAtom_of_symbolChars (by simp [split]) symbolic

private theorem digits_of_numeral? {text : String} {n : Nat} (number : numeral? text = some n) :
    text.toList ≠ [] ∧ ∀ c ∈ text.toList, c.isDigit = true := by
  rw [numeral?] at number
  split at number
  · rename_i zero
    rw [zero, List.forall_mem_singleton]
    exact ⟨List.cons_ne_nil _ _, rfl⟩
  · cases number
  · exact Text.isDigit_of_natural? number

/-- Constants of the theories need no quotes. -/
theorem bareAtom_of_constant? {text : String} {datum : Datum}
    (constant : constant? text = some datum) : Sexp.BareAtom text := by
  rw [constant?] at constant
  split at constant
  · rename_i isTrue
    rw [isTrue]
    decide
  · split at constant
    · rename_i isFalse
      rw [isFalse]
      decide
    · obtain ⟨n, number, _⟩ := Option.map_eq_some_iff.mp constant
      obtain ⟨nonempty, digits⟩ := digits_of_numeral? number
      refine bareAtom_of_symbolChars nonempty fun c member => ?_
      simp [isSymbolChar, Char.isAlphanum, digits c member]

private theorem bareAtom_of_ofName? {name : String} {operator : Operator}
    (named : Operator.ofName? name = some operator) : Sexp.BareAtom name := by
  have sameName := List.find?_some named
  rw [decide_eq_true_eq] at sameName
  rw [← sameName]
  cases operator <;> decide

mutual

/-- A well sorted term needs no quotes if the symbols do not. -/
theorem bare_of_sort?
    {signature : Signature} (symbols : ∀ entry ∈ signature, Sexp.BareAtom entry.1)
    (term : Sexp) {sort : ValueSort} (sorted : sort? signature term = some sort) :
    term.Bare := by
  match term with
  | .atom text =>
      rw [sort?] at sorted
      split at sorted
      · rename_i constant
        exact bareAtom_of_constant? constant
      · exact symbols (text, sort) (TextMap.mem_of_lookup sorted)
  | .list [] => cases sorted
  | .list (.list _ :: _) => cases sorted
  | .list (.atom name :: arguments) =>
      rw [sort?] at sorted
      split at sorted
      · rename_i named argumentsSorted
        exact ⟨bareAtom_of_ofName? named, bareAll_of_sorts? symbols arguments argumentsSorted⟩
      · cases sorted

theorem bareAll_of_sorts?
    {signature : Signature} (symbols : ∀ entry ∈ signature, Sexp.BareAtom entry.1)
    (terms : List Sexp) {sorts : List ValueSort} (sorted : sorts? signature terms = some sorts) :
    Sexp.BareAll terms := by
  match terms with
  | [] => trivial
  | term :: rest =>
      rw [sorts?] at sorted
      split at sorted
      · rename_i termSorted restSorted
        exact ⟨bare_of_sort? symbols term termSorted, bareAll_of_sorts? symbols rest restSorted⟩
      · cases sorted

end

def declareAll (signature : Signature) : List Command :=
  signature.map fun (symbol, sort) => .declareConst symbol sort

/-- The values of declared constants. -/
def Assignment.interpret (assignment : Assignment) (signature : Signature) : Interpretation :=
  signature.map fun (symbol, sort) => (symbol, assignment.datum symbol sort)

@[simp]
theorem Assignment.sort_datum (assignment : Assignment) (symbol : String) (sort : ValueSort) :
    (assignment.datum symbol sort).sort = sort := by
  cases sort <;> rfl

@[simp]
theorem Assignment.signature_interpret (assignment : Assignment) (signature : Signature) :
    (assignment.interpret signature).signature = signature := by
  simp [interpret, Interpretation.signature, Function.comp_def]

theorem Assignment.lookup_interpret
    (assignment : Assignment) (signature : Signature) (symbol : String) :
    (assignment.interpret signature).lookup symbol =
      (signature.lookup symbol).map (assignment.datum symbol) := by
  induction signature with
  | nil => rfl
  | cons entry rest inductionHypothesis =>
      have unfolded : assignment.interpret (entry :: rest) =
          (entry.1, assignment.datum entry.1 entry.2) :: assignment.interpret rest := rfl
      rw [unfolded, TextMap.lookup_cons_eq_ite, TextMap.lookup_cons_eq_ite, inductionHypothesis]
      split
      · rename_i same
        rw [same, Option.map_some]
      · rfl

/-- Declarations are well formed if they introduce different symbols that are not known yet. -/
theorem wellFormed_declarations
    {declared signature : Signature} {rest : List Command}
    (symbols : ∀ entry ∈ declared, IsSymbol entry.1)
    (distinct : (declared.map Prod.fst).Nodup)
    (fresh : ∀ entry ∈ declared, signature.lookup entry.1 = none)
    (restWellFormed : WellFormed (declared.reverse ++ signature) rest) :
    WellFormed signature (declareAll declared ++ rest) := by
  induction declared generalizing signature with
  | nil => exact restWellFormed
  | cons entry declared inductionHypothesis =>
      rw [List.forall_mem_cons] at symbols fresh
      rw [List.map_cons, List.nodup_cons] at distinct
      rw [List.reverse_cons, List.append_assoc, List.singleton_append] at restWellFormed
      refine ⟨symbols.1, fresh.1, ?_⟩
      refine inductionHypothesis symbols.2 distinct.2 ?_ restWellFormed
      intro other member
      have different : other.1 ≠ entry.1 := by
        intro same
        exact distinct.1 (same ▸ List.mem_map_of_mem member)
      rw [TextMap.lookup_cons_eq_ite, if_neg different]
      exact fresh.2 other member

/-- Declarations ask for nothing. They make the values of the constants known. -/
theorem satisfies_declarations
    (assignment : Assignment) (declared signature : Signature) (rest : List Command) :
    Satisfies assignment (assignment.interpret signature) (declareAll declared ++ rest) ↔
      Satisfies assignment (assignment.interpret (declared.reverse ++ signature)) rest := by
  induction declared generalizing signature with
  | nil => rfl
  | cons entry declared inductionHypothesis =>
      rw [List.reverse_cons, List.append_assoc, List.singleton_append]
      exact inductionHypothesis (entry :: signature)

theorem wellFormed_assertions
    {terms : List Sexp} {signature : Signature} {rest : List Command}
    (sorted : ∀ term ∈ terms, sort? signature term = some .bool)
    (restWellFormed : WellFormed signature rest) :
    WellFormed signature (terms.map .assert ++ rest) := by
  induction terms with
  | nil => exact restWellFormed
  | cons term terms inductionHypothesis =>
      rw [List.forall_mem_cons] at sorted
      exact ⟨sorted.1, inductionHypothesis sorted.2⟩

theorem satisfies_assertions
    (assignment : Assignment) (interpretation : Interpretation)
    (terms : List Sexp) (rest : List Command) :
    Satisfies assignment interpretation (terms.map .assert ++ rest) ↔
      (∀ term ∈ terms, value? interpretation term = some (.bool true)) ∧
        Satisfies assignment interpretation rest := by
  induction terms with
  | nil => simp
  | cons term terms inductionHypothesis =>
      rw [List.map_cons, List.cons_append, Satisfies, inductionHypothesis, List.forall_mem_cons,
        and_assoc]

end Rulebook.Smt
