import Rulebook.Token.Lexeme

/-!
# What lexemes cover

A lexeme is cut off with the characters it covers: a gap covers blanks, a comment or a joined line,
a line break covers just that, and a token covers at least one character.
-/

namespace Rulebook

def IsLineBreak (text : List Char) : Prop :=
  text = ['\n'] ∨ text = ['\r', '\n']

/-- Nothing of the line is left. -/
def AtLineEnd (following : List Char) : Prop :=
  following = [] ∨ ∃ lineBreak rest, IsLineBreak lineBreak ∧ following = lineBreak ++ rest

/-- A stretch of the source that means nothing by itself, before what follows it. -/
inductive Ignored : List Char → List Char → Prop
  | blanks {text following : List Char} :
      (∀ c ∈ text, c = ' ' ∨ c = '\t' ∨ c = '\x0c') →
      Ignored text following
  | comment {text following : List Char} :
      (∀ c ∈ text, c ≠ '\r' ∧ c ≠ '\n') →
      AtLineEnd following →
      Ignored ('#' :: text) following
  | joined {lineBreak following : List Char} :
      IsLineBreak lineBreak →
      Ignored ('\\' :: lineBreak) following
  | lineBreak {lineBreak following : List Char} :
      IsLineBreak lineBreak →
      Ignored lineBreak following

namespace Token

def isLayout : Token → Bool
  | .newline | .indent | .dedent => true
  | _ => false

/-- The text of a word or symbol is its spelling, and that of a marked string is kept as it is. -/
def Spells (text : List Char) : Token → Prop
  | .keyword word => text = word.text.toList
  | .symbol mark => text = mark.text.toList
  | .name spelled => text = spelled.toList
  | .markedString written => text = written.toList
  | .int _ | .float _ | .string _ => text ≠ []
  | .newline | .indent | .dedent => False

end Token

namespace Lexeme

@[simp]
theorem take_run (p : Char → Bool) (chars : List Char) :
    chars.take (run p chars) = chars.takeWhile p :=
  (List.prefix_iff_eq_take.mp (List.takeWhile_prefix p)).symm

@[simp]
theorem drop_run (p : Char → Bool) (chars : List Char) :
    chars.drop (run p chars) = chars.dropWhile p := by
  calc chars.drop (run p chars)
      = (chars.takeWhile p ++ chars.dropWhile p).drop (chars.takeWhile p).length := by
        rw [List.takeWhile_append_dropWhile]
        rfl
    _ = chars.dropWhile p := List.drop_left

private theorem all_take_run {p : Char → Bool} {chars : List Char} {c : Char}
    (member : c ∈ chars.take (run p chars)) : p c = true := by
  rw [take_run] at member
  exact List.all_eq_true.mp List.all_takeWhile c member

private theorem head_drop_run {p : Char → Bool} {chars rest : List Char} {c : Char}
    (isRest : chars.drop (run p chars) = c :: rest) : p c = false := by
  have stopped := List.head?_dropWhile_not p chars
  rw [← drop_run, isRest] at stopped
  exact stopped

/-- An integer, a float or a fault. -/
inductive IsNumeral : Lexeme → Prop
  | int {value : Int64} : IsNumeral (.token (.int value))
  | float {value : Number.Binary64} : IsNumeral (.token (.float value))
  | fault : IsNumeral .fault

theorem ofInteger_isNumeral (base : Nat) (digits : List Char) :
    (ofInteger base digits).IsNumeral := by
  rw [ofInteger]
  split
  · exact .int
  · exact .fault

private theorem ofDigits_isNumeral (c : Char) (rest : List Char) :
    (ofDigits c rest).1.IsNumeral := by
  unfold ofDigits
  dsimp only
  split
  · exact .float
  · split
    · exact ofInteger_isNumeral _ _
    · exact .float

private theorem ofNumber_isNumeral (c : Char) (rest : List Char) :
    (ofNumber c rest).1.IsNumeral := by
  unfold ofNumber
  split
  · split
    · dsimp only
      split
      · exact ofDigits_isNumeral _ _
      · exact ofInteger_isNumeral _ _
    · exact ofDigits_isNumeral _ _
  · exact ofDigits_isNumeral _ _

/-- A string is read with at least its first quote, and a marked one is kept as written. -/
theorem ofString_cases {chars : List Char} {lexeme : Lexeme} {count : Nat}
    (isString : ofString? chars = some (lexeme, count)) :
    lexeme = .fault ∨ 0 < count ∧ ((∃ content, lexeme = .token (.string content)) ∨
      lexeme = .token (.markedString (String.ofList (chars.take count)))) := by
  unfold ofString? at isString
  split at isString
  · cases isString
  · rename_i mark _
    dsimp only at isString
    have wide : 0 < quoteLength ((chars.drop mark.length).headD '"') (chars.drop mark.length) := by
      rw [quoteLength]
      split <;> decide
    generalize quoteLength _ (chars.drop mark.length) = width at isString wide
    generalize (if width = 3 then longBody else shortBody) _ _ = body at isString
    split at isString
    · obtain ⟨rfl, rfl⟩ := Prod.mk.inj (Option.some.inj isString)
      refine .inr ⟨by omega, ?_⟩
      split
      · exact .inl ⟨_, rfl⟩
      · exact .inr rfl
    · split at isString
      · cases isString
      · cases isString
        exact .inl rfl

private theorem ofWord_spells (text : List Char) :
    (Token.ofWord (String.ofList text)).Spells text := by
  rw [Token.ofWord]
  split
  · rename_i word isKeyword
    rw [Keyword.ofText?] at isKeyword
    have found := List.find?_some isKeyword
    have spelled : word.text = String.ofList text := of_decide_eq_true found
    rw [Token.Spells, spelled, String.toList_ofList]
  · rw [Token.Spells, String.toList_ofList]

private theorem symbol_spells {chars : List Char} {mark : Symbol}
    (isSymbol : symbol? chars = some mark) :
    chars.take mark.text.length = mark.text.toList := by
  rw [symbol?] at isSymbol
  have found := List.find?_some isSymbol
  have leads : mark.text.toList <+: chars := List.isPrefixOf_iff_prefix.mp found
  rw [← String.length_toList]
  exact (List.prefix_iff_eq_take.mp leads).symm

private theorem cons_take_pred {c : Char} {rest : List Char} {count : Nat} (positive : 0 < count) :
    c :: rest.take (count - 1) = (c :: rest).take count := by
  obtain ⟨pred, rfl⟩ := Nat.exists_eq_succ_of_ne_zero (Nat.pos_iff_ne_zero.mp positive)
  rfl

/-- What a lexeme covers, before what follows it. -/
def Covers (text following : List Char) : Lexeme → Prop
  | .gap => Ignored text following
  | .lineBreak => IsLineBreak text
  | .token spelled => spelled.Spells text
  | .fault => True

private theorem IsNumeral.covers {lexeme : Lexeme} {text following : List Char}
    (numeral : lexeme.IsNumeral) (nonempty : text ≠ []) : lexeme.Covers text following := by
  cases numeral with
  | int => exact nonempty
  | float => exact nonempty
  | fault => trivial

private theorem covers_blanks {c : Char} {rest : List Char} (isBlank : isSpace c = true) :
    Ignored (c :: rest.take (run isSpace rest)) (rest.drop (run isSpace rest)) := by
  refine .blanks ?_
  intro d member
  have blank : isSpace d = true := by
    rcases List.mem_cons.mp member with rfl | later
    · exact isBlank
    · exact all_take_run later
  simpa [isSpace, or_assoc] using blank

/-- A comment runs up to the line end, as long as no carriage return stands there alone. -/
theorem covers_comment {rest : List Char}
    (noLoneReturn : ∀ later,
      rest.drop (run (fun d => d != '\r' && d != '\n') rest) = '\r' :: later →
        ∃ last, later = '\n' :: last) :
    Ignored ('#' :: rest.take (run (fun d => d != '\r' && d != '\n') rest))
      (rest.drop (run (fun d => d != '\r' && d != '\n') rest)) := by
  refine .comment ?_ ?_
  · intro d member
    have inLine := all_take_run member
    simpa using inLine
  · cases isRest : rest.drop (run (fun d => d != '\r' && d != '\n') rest) with
    | nil => exact .inl rfl
    | cons d later =>
        have stopped := head_drop_run isRest
        have isEnd : d = '\r' ∨ d = '\n' := by
          by_cases isReturn : d = '\r'
          · exact .inl isReturn
          · simpa [isReturn] using stopped
        rcases isEnd with rfl | rfl
        · obtain ⟨following, rfl⟩ := noLoneReturn later isRest
          exact .inr ⟨['\r', '\n'], following, .inr rfl, rfl⟩
        · exact .inr ⟨['\n'], later, .inl rfl, rfl⟩

/-- One pass through the ways a lexeme can start. -/
theorem next_covers {c : Char} {rest : List Char} {lexeme : Lexeme} {count : Nat}
    (isNext : next c rest = (lexeme, count))
    (noLoneReturn : ∀ later, rest.drop count = '\r' :: later → ∃ last, later = '\n' :: last) :
    lexeme.Covers (c :: rest.take count) (rest.drop count) := by
  unfold next at isNext
  split at isNext
  · rename_i isBlank
    cases isNext
    exact covers_blanks isBlank
  split at isNext
  · rename_i isHash
    cases isNext
    rw [isHash]
    exact covers_comment noLoneReturn
  split at isNext
  · rename_i isBackslash
    rw [isBackslash]
    split at isNext
    · cases isNext
      exact .joined (.inl rfl)
    · cases isNext
      exact .joined (.inr rfl)
    · cases isNext
      trivial
  split at isNext
  · rename_i isBreak
    cases isNext
    rw [isBreak]
    exact .inl rfl
  split at isNext
  · rename_i isReturn
    rw [isReturn]
    split at isNext
    · cases isNext
      exact .inr rfl
    · cases isNext
      trivial
  split at isNext
  · have numeral := ofNumber_isNumeral c rest
    rw [isNext] at numeral
    exact numeral.covers (List.cons_ne_nil _ _)
  split at isNext
  · cases isNext
    exact List.cons_ne_nil _ _
  split at isNext
  · rename_i lexeme length isString
    obtain ⟨rfl, rfl⟩ := Prod.mk.inj isNext
    rcases ofString_cases isString with rfl | ⟨positive, ⟨content, rfl⟩ | rfl⟩
    · trivial
    · exact List.cons_ne_nil _ _
    · rw [cons_take_pred positive, Covers, Token.Spells, String.toList_ofList]
  split at isNext
  · cases isNext
    exact ofWord_spells _
  split at isNext
  · rename_i mark isSymbol
    have positive : 0 < mark.text.length := by cases mark <;> decide
    cases isNext
    rw [cons_take_pred positive, Covers, Token.Spells, symbol_spells isSymbol]
  · cases isNext
    trivial

end Lexeme

end Rulebook
