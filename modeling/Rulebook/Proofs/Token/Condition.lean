import Rulebook.Proofs.Flatness
import Rulebook.Proofs.Smt.Rendering
import Rulebook.Proofs.Token.Writing

/-!
# Tokens in the text of a condition

The text of a condition is cut into the tokens that its structure suggests, provided that its
names and constants can be written in the source at all: an operand in parentheses keeps its tokens
between two more, and the parts of a junction stand apart by its keyword.
-/

namespace Rulebook

/-- The symbol that a comparison is written with. -/
def Comparator.mark : Comparator → Symbol
  | .lt => .less
  | .le => .lessEqual
  | .gt => .greater
  | .ge => .greaterEqual
  | .eq => .equal
  | .ne => .notEqual

/-- The keyword between the parts of a junction. -/
def Junction.word : Junction → Keyword
  | .and => .andKw
  | .or => .orKw

def Value.tokens : Value → List Token
  | .none => [.keyword .noneKw]
  | .bool true => [.keyword .trueKw]
  | .bool false => [.keyword .falseKw]
  | .int value =>
      if value.toInt < 0 then [.symbol .minus, .int (-value)] else [.int value]
  | .string text => [.string text]

namespace Condition

/-- Tokens as an operand of something that binds at `outer`. -/
def encloseTokens (inner outer : Nat) (tokens : List Token) : List Token :=
  if inner ≤ outer then .symbol .leftParen :: (tokens ++ [.symbol .rightParen]) else tokens

mutual

/-- The tokens in the text of a condition; none for one that is kept as text. -/
def tokens : Condition → List Token
  | .literal true => [.keyword .trueKw]
  | .literal false => [.keyword .falseKw]
  | .var name => [.name name]
  | .comparison name op constant => .name name :: .symbol op.mark :: constant.tokens
  | .junction kind parts =>
      List.intercalate [.keyword kind.word] (operandTokens kind.level parts)
  | .not operand => .keyword .notKw :: encloseTokens operand.level 2 operand.tokens
  | .verbatim _ => []

def operandTokens (outer : Nat) : List Condition → List (List Token)
  | [] => []
  | part :: rest => encloseTokens part.level outer part.tokens :: operandTokens outer rest

end

end Condition

/-- A word of the source that is not reserved. -/
def IsIdentifier (text : String) : Prop := Lexeme.isWord text = true ∧ Keyword.ofText? text = none

instance (text : String) : Decidable (IsIdentifier text) := inferInstanceAs (Decidable (_ ∧ _))

/-- A constant that has a literal in the source: the magnitude of the least integer is too large,
and no string literal knows the long escapes. -/
def Value.Writable : Value → Prop
  | .int value => value ≠ Int64.minValue
  | .string text => ∀ c ∈ text.toList, Text.IsShort c
  | .none | .bool _ => True

instance (value : Value) : Decidable value.Writable :=
  match value with
  | .int _ => inferInstanceAs (Decidable (_ ≠ _))
  | .string text => List.decidableBAll _ text.toList
  | .none | .bool _ => .isTrue trivial

namespace Condition

/-- The names and constants of a condition without parts can be written. -/
def WritableAtTop : Condition → Prop
  | .var name => IsIdentifier name
  | .comparison name _ constant => IsIdentifier name ∧ constant.Writable
  | .verbatim _ => False
  | .literal _ | .junction _ _ | .not _ => True

instance (condition : Condition) : Decidable condition.WritableAtTop :=
  match condition with
  | .var _ => inferInstanceAs (Decidable (IsIdentifier _))
  | .comparison _ _ _ => inferInstanceAs (Decidable (_ ∧ _))
  | .verbatim _ => .isFalse id
  | .literal _ | .junction _ _ | .not _ => .isTrue trivial

/-- Everything in the condition can be written. -/
def Writable (condition : Condition) : Prop := ∀ node ∈ condition.nodes, node.WritableAtTop

instance (condition : Condition) : Decidable condition.Writable :=
  inferInstanceAs (Decidable (∀ node ∈ condition.nodes, node.WritableAtTop))

theorem Writable.of_junction {kind : Junction} {parts : List Condition}
    (writable : (junction kind parts).Writable) : ∀ part ∈ parts, part.Writable :=
  (forall_nodes_junction_iff.mp writable).2

theorem Writable.of_not {operand : Condition} (writable : (not operand).Writable) :
    operand.Writable :=
  (List.forall_mem_cons.mp writable).2

/-- What can be written as a whole can be written at its top. -/
theorem Writable.atTop {condition : Condition} (writable : condition.Writable) :
    condition.WritableAtTop := by
  apply writable
  cases condition <;> exact List.mem_cons_self

end Condition

private theorem written_word {word : String} (isWord : Lexeme.isWord word = true) :
    Written word.toList [.ofWord word] := by
  rw [Lexeme.isWord] at isWord
  cases chars : word.toList with
  | nil =>
      rw [chars] at isWord
      cases isWord
  | cons first more =>
      rw [chars, Bool.and_eq_true_iff] at isWord
      rw [← chars]
      exact .word chars isWord.1 (List.all_eq_true.mp isWord.2)

theorem written_keyword (word : Keyword) : Written word.text.toList [.keyword word] := by
  have isWord : Lexeme.isWord word.text = true := by cases word <;> decide
  have isKeyword : Token.ofWord word.text = .keyword word := by cases word <;> decide
  have written := written_word isWord
  rw [isKeyword] at written
  exact written

theorem written_name {name : String} (isIdentifier : IsIdentifier name) :
    Written name.toList [.name name] := by
  have written := written_word isIdentifier.1
  rw [Token.ofWord, isIdentifier.2] at written
  exact written

private theorem written_mark (op : Comparator) : Written op.symbol.toList [.symbol op.mark] where
  cuts := by
    intro following stops
    rcases stops with ⟨stop, rest, isFollowing, listed⟩
    have notEqual : '=' ≠ stop := by
      intro isEqual
      rw [← isEqual] at listed
      exact absurd listed (by decide)
    have less : Lexeme.symbol? ('<' :: stop :: rest) = some .less := by
      simp [Lexeme.symbol?, Symbol.all, Symbol.text, notEqual]
    have greater : Lexeme.symbol? ('>' :: stop :: rest) = some .greater := by
      simp [Lexeme.symbol?, Symbol.all, Symbol.text, notEqual]
    rw [isFollowing]
    cases op with
    | lt => exact CutsInto.symbol rfl (by decide) less
    | gt => exact CutsInto.symbol rfl (by decide) greater
    | le | ge | eq | ne => exact .symbol rfl (by decide) rfl
  balanced := by
    intro depth
    cases op <;> rfl

private theorem toList_toString_int (n : Int) :
    (toString n).toList =
      if n < 0 then '-' :: Nat.toDigits 10 n.natAbs else Nat.toDigits 10 n.natAbs := by
  cases n with
  | ofNat n =>
      have same : toString (Int.ofNat n) = toString n := rfl
      rw [if_neg (by simp), same, Nat.toString_eq_repr, Nat.toList_repr]
      rfl
  | negSucc n =>
      have same : toString (Int.negSucc n) = "-" ++ toString (n + 1) := rfl
      rw [if_pos (Int.negSucc_lt_zero n), same, String.toList_append, Nat.toString_eq_repr,
        Nat.toList_repr]
      rfl

private theorem written_int {value : Int64} (notLeast : value ≠ Int64.minValue) :
    Written (toString value.toInt).toList (Value.int value).tokens := by
  rw [Value.tokens, toList_toString_int]
  by_cases negative : value.toInt < 0
  · have magnitude : (-value).toInt = value.toInt.natAbs := by
      rw [toInt_neg_of_ne_least notLeast]
      omega
    rw [if_pos negative, if_pos negative]
    exact .negative magnitude
  · have magnitude : value.toInt = value.toInt.natAbs := by omega
    rw [if_neg negative, if_neg negative]
    exact .number magnitude

private theorem written_value {value : Value} (writable : value.Writable) :
    Written value.text.toList value.tokens := by
  cases value with
  | none => exact written_keyword .noneKw
  | bool truth =>
      cases truth with
      | true => exact written_keyword .trueKw
      | false => exact written_keyword .falseKw
  | int number => exact written_int writable
  | string text => exact .quoted writable

namespace Condition

private theorem written_enclose
    {text : String} {tokens : List Token} (inner outer : Nat)
    (written : Written text.toList tokens) :
    Written (enclose inner outer text).toList (encloseTokens inner outer tokens) := by
  rw [enclose, encloseTokens]
  by_cases loose : inner ≤ outer
  · rw [if_pos loose, if_pos loose, String.toList_append, String.toList_append]
    exact written.enclosed
  · rw [if_neg loose, if_neg loose]
    exact written

mutual

/-- The text of a condition is cut into its tokens, by the structure of the condition. -/
theorem written_text (condition : Condition) (flat : condition.Flat)
    (writable : condition.Writable) : Written condition.text.toList condition.tokens := by
  match condition with
  | .literal true => exact written_keyword .trueKw
  | .literal false => exact written_keyword .falseKw
  | .var name => exact written_name writable.atTop
  | .comparison name op constant =>
      have parts := writable.atTop
      have written := (written_name parts.1).spaced
        ((written_mark op).spaced (written_value parts.2))
      simpa [text, tokens] using written
  | .junction kind parts =>
      have several := (flat_junction_iff.mp flat).1
      have nonempty : parts ≠ [] := by
        intro isEmpty
        rw [isEmpty] at several
        cases several
      have written := written_operands kind parts nonempty
        (fun part member => ((flat_junction_iff.mp flat).2 part member).2) writable.of_junction
      rw [text, tokens, String.toList_intercalate]
      exact written
  | .not operand =>
      have written := written_text operand (flat_not_iff.mp flat) writable.of_not
      have negated := (written_keyword .notKw).spaced (written_enclose operand.level 2 written)
      simpa [text, tokens, Keyword.text] using negated
  | .verbatim text => exact writable.atTop.elim

theorem written_operands (kind : Junction) (parts : List Condition) (nonempty : parts ≠ [])
    (flat : ∀ part ∈ parts, part.Flat) (writable : ∀ part ∈ parts, part.Writable) :
    Written
      (List.intercalate kind.separator.toList
        ((operandTexts kind.level parts).map String.toList))
      (List.intercalate [.keyword kind.word] (operandTokens kind.level parts)) := by
  match parts with
  | [] => exact absurd rfl nonempty
  | [part] =>
      have written := written_text part (flat part List.mem_cons_self)
        (writable part List.mem_cons_self)
      have single := written_enclose part.level kind.level written
      simpa [operandTexts, operandTokens] using single
  | part :: next :: rest =>
      rw [List.forall_mem_cons] at flat writable
      have written := written_text part flat.1 writable.1
      have first := written_enclose part.level kind.level written
      have others := written_operands kind (next :: rest) (List.cons_ne_nil _ _) flat.2 writable.2
      have together := first.spaced ((written_keyword kind.word).spaced others)
      have separator : kind.separator.toList = ' ' :: (kind.word.text.toList ++ [' ']) := by
        cases kind <;> decide
      rw [separator] at together ⊢
      simpa [operandTexts, operandTokens] using together

end

end Condition

end Rulebook
