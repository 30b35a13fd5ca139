import Rulebook.Proofs.Basic
import Rulebook.Proofs.Decimal
import Rulebook.Proofs.Token.Emission

/-!
# Tokens read from written text

A token is written as a text from which it can be cut again, provided that what follows does not
lengthen it. Words, numbers, quoted texts and symbols are such texts in front of a space, a closing
parenthesis or a colon; and texts that stand side by side, with or without a space between them,
are cut into the tokens of one and then those of the other.
-/

namespace Rulebook

namespace Lexeme

/-- Characters that no word, number or quoted text goes on with. -/
def stopChars : List Char := [' ', '(', ')', ':', '\n']

/-- What follows starts with such a character. -/
def Stops (following : List Char) : Prop := ∃ c rest, following = c :: rest ∧ c ∈ stopChars

@[simp]
theorem stops_space (rest : List Char) : Stops (' ' :: rest) := ⟨' ', rest, rfl, by decide⟩

@[simp]
theorem stops_closing (rest : List Char) : Stops (')' :: rest) := ⟨')', rest, rfl, by decide⟩

/-- A run of characters that are none of these ends before them. -/
theorem run_append_of_stops
    {p : Char → Bool} {word following : List Char} (inside : ∀ c ∈ word, p c = true)
    (outside : stopChars.all (!p ·) = true) (stops : Stops following) :
    run p (word ++ following) = word.length := by
  rcases stops with ⟨c, rest, isFollowing, listed⟩
  have stopped : p c = false := by simpa using List.all_eq_true.mp outside c listed
  have cut := takeWhile_append_delimited p word following inside (by
    intro d isHead
    rw [isFollowing, List.head?_cons, Option.some.injEq] at isHead
    rw [← isHead]
    exact stopped)
  rw [run, cut.1]

/-- A character with which only words, strings and symbols start. -/
def isOrdinary (c : Char) : Bool :=
  !isSpace c && c != '#' && c != '\\' && c != '\n' && c != '\r' && !c.isDigit && c != '.'

/-- Where only words, strings and symbols start, they are tried in this order. -/
theorem next_of_isOrdinary {c : Char} (rest : List Char) (ordinary : isOrdinary c = true) :
    next c rest =
      match ofString? (c :: rest) with
      | some (lexeme, length) => (lexeme, length - 1)
      | none =>
          if startsWord c then
            (.token (.ofWord (String.ofList (c :: rest.take (run continuesWord rest)))),
              run continuesWord rest)
          else
            match symbol? (c :: rest) with
            | some mark => (.token (.symbol mark), mark.text.length - 1)
            | none => (.fault, 0) := by
  simp only [isOrdinary, Bool.and_eq_true, Bool.not_eq_true', bne_iff_ne, ne_eq] at ordinary
  rcases ordinary with ⟨⟨⟨⟨⟨⟨notSpace, notHash⟩, notBackslash⟩, notBreak⟩, notReturn⟩, notDigit⟩,
    notPoint⟩
  unfold next
  rw [if_neg (by simp [notSpace]), if_neg notHash, if_neg notBackslash, if_neg notBreak,
    if_neg notReturn, if_neg (by simp [notDigit])]
  exact if_neg (by simp [notPoint])

private theorem startsWord_bound {c : Char} (starts : startsWord c = true) : 58 ≤ c.toNat := by
  rcases Bool.or_eq_true_iff.mp starts with letter | isBar
  · rcases Bool.or_eq_true_iff.mp letter with capital | small
    · have above : 65 ≤ c.toNat := UInt32.le_iff_toNat_le.mp (of_decide_eq_true capital).1
      omega
    · have bounds := Bool.and_eq_true_iff.mp small
      have above : 97 ≤ c.toNat := UInt32.le_iff_toNat_le.mp (of_decide_eq_true bounds.1)
      omega
  · rw [beq_iff_eq] at isBar
    rw [isBar]
    decide

private theorem isDigit_of_startsWord {c : Char} (starts : startsWord c = true) :
    c.isDigit = false := by
  have bound := startsWord_bound starts
  rw [← Bool.not_eq_true, Char.isDigit_iff_toNat]
  intro digit
  have below : c.toNat ≤ 57 := digit.2
  omega

private theorem ne_of_class {p : Char → Bool} {c d : Char} (inClass : p c = true)
    (outside : p d = false) :
    c ≠ d := by
  intro same
  rw [same, outside] at inClass
  cases inClass

theorem isSpace_eq_false {p : Char → Bool} {c : Char} (inClass : p c = true)
    (outside : [' ', '\t', '\x0c'].all (!p ·) = true) : isSpace c = false := by
  simp only [List.all_cons, List.all_nil, Bool.and_true, Bool.and_eq_true,
    Bool.not_eq_true'] at outside
  have notSpace := ne_of_class inClass outside.1
  have notTab := ne_of_class inClass outside.2.1
  have notFeed := ne_of_class inClass outside.2.2
  simp [isSpace, notSpace, notTab, notFeed]

private theorem isQuote_eq_false {p : Char → Bool} {c : Char} (inClass : p c = true)
    (outside : ['"', '\''].all (!p ·) = true) : isQuote c = false := by
  simp only [List.all_cons, List.all_nil, Bool.and_true, Bool.and_eq_true,
    Bool.not_eq_true'] at outside
  have notDouble := ne_of_class inClass outside.1
  have notSingle := ne_of_class inClass outside.2
  simp [isQuote, notDouble, notSingle]

private theorem continuesWord_of_startsWord {c : Char} (starts : startsWord c = true) :
    continuesWord c = true := by
  rcases Bool.or_eq_true_iff.mp starts with letter | isBar
  · rw [continuesWord, Char.isAlphanum, letter, Bool.true_or, Bool.true_or]
  · rw [continuesWord, isBar, Bool.or_true]

/-- No string starts at a word, as no quote stands behind its first letters. -/
theorem stringMark?_word
    {first : Char} {more following : List Char} (starts : startsWord first = true)
    (continues : ∀ c ∈ more, continuesWord c = true) (stops : Stops following) :
    stringMark? (first :: (more ++ following)) = none := by
  have notQuote : ∀ c, continuesWord c = true → isQuote c = false :=
    fun c inWord => isQuote_eq_false inWord (by decide)
  have firstNotQuote := notQuote first (continuesWord_of_startsWord starts)
  rcases stops with ⟨stop, rest, isFollowing, listed⟩
  have stopNotQuote : isQuote stop = false := by
    have outside : stopChars.all (!isQuote ·) = true := by decide
    simpa using List.all_eq_true.mp outside stop listed
  have stopNoMark : isFormatMark [first, stop] = false := by
    have outside : stopChars.all
        (fun c => !isRawLetter c && !isFormatLetter c) = true := by decide
    have ofStop := List.all_eq_true.mp outside stop listed
    simp only [Bool.and_eq_true, Bool.not_eq_true'] at ofStop
    simp [isFormatMark, ofStop.1, ofStop.2]
  rw [isFollowing]
  match more, continues with
  | [], _ =>
      simp [stringMark?, firstNotQuote, stopNotQuote, stopNoMark, isPlainMark]
  | [second], continues =>
      have secondNotQuote := notQuote second (continues second (by simp))
      simp [stringMark?, firstNotQuote, secondNotQuote, stopNotQuote]
  | second :: third :: others, continues =>
      have secondNotQuote := notQuote second (continues second (by simp))
      have thirdNotQuote := notQuote third (continues third (by simp))
      simp [stringMark?, firstNotQuote, secondNotQuote, thirdNotQuote]

private theorem isOrdinary_of_startsWord {c : Char} (starts : startsWord c = true) :
    isOrdinary c = true := by
  have notSpace : isSpace c = false := isSpace_eq_false starts (by decide)
  have notDigit : c.isDigit = false := isDigit_of_startsWord starts
  have others : ∀ d, startsWord d = false → c ≠ d := fun d outside => ne_of_class starts outside
  simp [isOrdinary, notSpace, notDigit, others '#' (by decide), others '\\' (by decide),
    others '\n' (by decide), others '\r' (by decide), others '.' (by decide)]

/-- A word is cut off as a whole. -/
theorem next_word
    {first : Char} {more following : List Char} (starts : startsWord first = true)
    (continues : ∀ c ∈ more, continuesWord c = true) (stops : Stops following) :
    next first (more ++ following) =
      (.token (.ofWord (String.ofList (first :: more))), more.length) := by
  have noString : ofString? (first :: (more ++ following)) = none := by
    rw [ofString?, stringMark?_word starts continues stops]
  have length : run continuesWord (more ++ following) = more.length :=
    run_append_of_stops continues (by decide) stops
  rw [next_of_isOrdinary _ (isOrdinary_of_startsWord starts), noString]
  simp only [if_pos starts, length, List.take_left]

/-- A character with which only symbols start. -/
def isPunctuation (c : Char) : Bool :=
  isOrdinary c && !isQuote c && !startsWord c

private theorem stringMark?_punctuation {c : Char} (rest : List Char)
    (mark : isPunctuation c = true) :
    stringMark? (c :: rest) = none := by
  simp only [isPunctuation, Bool.and_eq_true, Bool.not_eq_true'] at mark
  have noLetter : ∀ d, startsWord d = true → c ≠ d := by
    intro d isLetter same
    rw [← same, mark.2] at isLetter
    cases isLetter
  have notRaw : isRawLetter c = false := by
    simp [isRawLetter, noLetter 'r' (by decide), noLetter 'R' (by decide)]
  have notFormat : isFormatLetter c = false := by
    simp [isFormatLetter, noLetter 'f' (by decide), noLetter 'F' (by decide),
      noLetter 'b' (by decide), noLetter 'B' (by decide)]
  have notPlain : isPlainMark [c] = false := by
    simp [isPlainMark, noLetter 'r' (by decide), noLetter 'R' (by decide),
      noLetter 'u' (by decide), noLetter 'U' (by decide)]
  have notMark : isFormatMark [c] = false := notFormat
  cases rest with
  | nil => simp [stringMark?, mark.1.2]
  | cons d others =>
      have notPair : isFormatMark [c, d] = false := by
        rw [isFormatMark, notRaw, notFormat, Bool.false_and, Bool.false_and, Bool.false_or]
      have noPair : isPlainMark [c, d] = false := rfl
      simp [stringMark?, mark.1.2, notPlain, notMark, noPair, notPair]

private theorem next_symbol {c : Char} {rest : List Char} {mark : Symbol}
    (punctuation : isPunctuation c = true) (isSymbol : symbol? (c :: rest) = some mark) :
    next c rest = (.token (.symbol mark), mark.text.length - 1) := by
  have noString : ofString? (c :: rest) = none := by
    rw [ofString?, stringMark?_punctuation rest punctuation]
  simp only [isPunctuation, Bool.and_eq_true, Bool.not_eq_true'] at punctuation
  rw [next_of_isOrdinary rest punctuation.1.1, noString, isSymbol, punctuation.2]
  simp only [Bool.false_eq_true, if_false]

private theorem isDigitOrBar_of_isDigit {c : Char} (digit : c.isDigit = true) :
    isDigitOrBar c = true := by
  rw [isDigitOrBar, digit, Bool.true_or]

private theorem ofDigits_digits
    {first : Char} {more following : List Char}
    (digits : ∀ c ∈ more, c.isDigit = true) (stops : Stops following) :
    ofDigits first (more ++ following) = (ofInteger 10 (first :: more), more.length) := by
  have length : run isDigitOrBar (more ++ following) = more.length :=
    run_append_of_stops (fun c member => isDigitOrBar_of_isDigit (digits c member)) (by decide)
      stops
  rcases stops with ⟨stop, rest, isFollowing, listed⟩
  have notPoint : stop ≠ '.' := by
    intro isPoint
    rw [isPoint] at listed
    exact absurd listed (by decide)
  have noExponent : exponentLength (stop :: rest) = 0 := by
    have outside : stopChars.all (fun c => !(c == 'e' || c == 'E')) = true := by decide
    have ofStop := List.all_eq_true.mp outside stop listed
    rw [Bool.not_eq_true'] at ofStop
    unfold exponentLength
    dsimp only
    rw [ofStop, if_neg Bool.false_ne_true]
  rw [isFollowing] at length ⊢
  unfold ofDigits
  simp only [length, List.drop_left, List.take_left]
  split
  · rename_i isPoint
    injection isPoint with sameHead _
    exact absurd sameHead notPoint
  · rw [noExponent, if_pos rfl]

private theorem ofNumber_digits
    {first : Char} {more following : List Char} (leading : first = '0' → more = [])
    (digits : ∀ c ∈ more, c.isDigit = true) (stops : Stops following) :
    ofNumber first (more ++ following) = (ofInteger 10 (first :: more), more.length) := by
  have decimal : ofDigits first (more ++ following) = (ofInteger 10 (first :: more), more.length) :=
    ofDigits_digits digits stops
  unfold ofNumber
  split
  · rename_i letter others isSplit
    have noMore : more = [] := leading rfl
    rcases stops with ⟨stop, rest, isFollowing, listed⟩
    rw [noMore, isFollowing, List.nil_append, List.cons.injEq] at isSplit
    have noBase : base? letter = none := by
      have outside : stopChars.all (fun c => (base? c).isNone) = true := by decide
      rw [← isSplit.1]
      simpa using List.all_eq_true.mp outside stop listed
    rw [noBase]
    exact decimal
  · exact decimal

/-- The digits of a number are cut off as the number. -/
theorem next_number
    {n : Nat} {word : Int64} {first : Char} {more following : List Char}
    (fits : word.toInt = n) (written : Nat.toDigits 10 n = first :: more)
    (stops : Stops following) :
    next first (more ++ following) = (.token (.int word), more.length) := by
  have areDigits : ∀ c ∈ first :: more, c.isDigit = true := by
    intro c member
    rw [← written] at member
    exact Text.isDigit_of_mem_toDigits member
  rw [List.forall_mem_cons] at areDigits
  have leading : first = '0' → more = [] := by
    intro isZero
    by_cases positive : 0 < n
    · have head := Text.head?_toDigits_ne_zero positive
      rw [written, isZero] at head
      exact absurd rfl head
    · have zero : n = 0 := by omega
      rw [zero] at written
      injection written with _ noMore
      exact noMore.symm
  have others : ∀ d, d.isDigit = false → first ≠ d :=
    fun d outside => ne_of_class areDigits.1 outside
  have notSpace : isSpace first = false := isSpace_eq_false areDigits.1 (by decide)
  have noBars : Number.withoutBars (first :: more) = first :: more := by
    rw [Number.withoutBars, List.filter_eq_self]
    intro c member
    have digit : c.isDigit = true := by
      rcases List.mem_cons.mp member with isFirst | later
      · rw [isFirst]
        exact areDigits.1
      · exact areDigits.2 c later
    exact bne_iff_ne.mpr (ne_of_class digit (by decide))
  have number : ofInteger 10 (first :: more) = .token (.int word) := by
    rw [ofInteger, noBars, ← written, Text.natural?_toDigits, Option.bind_some,
      Text.int64?_eq_some_iff.mpr fits]
  unfold next
  rw [if_neg (by simp [notSpace]), if_neg (others '#' (by decide)),
    if_neg (others '\\' (by decide)), if_neg (others '\n' (by decide)),
    if_neg (others '\r' (by decide)), if_pos areDigits.1,
    ofNumber_digits leading areDigits.2 stops, number]

end Lexeme

/-! ## Quoted texts -/

namespace Text

/-- The characters with an escape of two characters, and what stands behind its backslash. -/
def escapePairs : List (Char × Char) :=
  [('\x00', '0'), ('\t', 't'), ('\r', 'r'), ('\n', 'n'), ('"', '"'), ('\\', '\\')]

/-- Quoting writes the character as itself or with an escape of two characters. -/
def IsShort (c : Char) : Prop :=
  escapeChar c = [c] ∨ escapeChar c ∈ escapePairs.map fun pair => ['\\', pair.2]

instance (c : Char) : Decidable (IsShort c) := inferInstanceAs (Decidable (_ ∨ _))

/-- A short character is written as itself, being none of those that end a text or its line, or as
one of the escape pairs. -/
theorem escapeChar_cases {c : Char} (short : IsShort c) :
    escapeChar c = [c] ∧ c ≠ '"' ∧ c ≠ '\\' ∧ c ≠ '\r' ∧ c ≠ '\n' ∨
      ∃ d, escapeChar c = ['\\', d] ∧ (c, d) ∈ escapePairs := by
  by_cases special : c ∈ escapePairs.map Prod.fst
  · rcases List.mem_map.mp special with ⟨pair, listed, isFirst⟩
    have table : escapePairs.all (fun pair => escapeChar pair.1 = ['\\', pair.2]) = true := by
      decide
    have escaped := of_decide_eq_true (List.all_eq_true.mp table pair listed)
    rw [isFirst] at escaped
    exact .inr ⟨pair.2, escaped, isFirst ▸ listed⟩
  · simp only [escapePairs, List.map_cons, List.map_nil, List.mem_cons, List.not_mem_nil,
      or_false, not_or] at special
    rcases special with ⟨notNull, notTab, notReturn, notBreak, notQuote, notBackslash⟩
    refine .inl ⟨?_, notQuote, notBackslash, notReturn, notBreak⟩
    rcases short with itself | listed
    · exact itself
    · have written : escapeChar c =
          if isPrintable c then [c]
          else ['\\', 'u', '\x7b'] ++ hexDigits c.toNat ++ ['\x7d'] := by
        rw [escapeChar, if_neg notNull, if_neg notTab, if_neg notReturn, if_neg notBreak,
          if_neg notQuote, if_neg notBackslash]
      by_cases printable : isPrintable c = true
      · rw [written, if_pos printable]
      · rcases List.mem_map.mp listed with ⟨pair, _, isEscape⟩
        have length := congrArg List.length isEscape
        rw [written, if_neg printable] at length
        simp at length

end Text

namespace Lexeme

private theorem unescape_escapeChar {c : Char} (rest : List Char) (short : Text.IsShort c) :
    unescape (Text.escapeChar c ++ rest) = c :: unescape rest := by
  rcases Text.escapeChar_cases short with ⟨itself, _, notBackslash, _⟩ | ⟨d, escaped, listed⟩
  · rw [itself, List.singleton_append, unescape]
    intro _ _ isBackslash
    exact absurd isBackslash notBackslash
  · rw [escaped]
    simp only [Text.escapePairs, List.mem_cons, Prod.mk.injEq, List.not_mem_nil, or_false]
      at listed
    rcases listed with ⟨rfl, rfl⟩ | ⟨rfl, rfl⟩ | ⟨rfl, rfl⟩ | ⟨rfl, rfl⟩ | ⟨rfl, rfl⟩ | ⟨rfl, rfl⟩
      <;> rfl

private theorem shortBody_escapeChar
    {c : Char} {rest : List Char} {length : Nat} {closed : Bool} (short : Text.IsShort c)
    (ofRest : shortBody '"' rest = (length, closed)) :
    shortBody '"' (Text.escapeChar c ++ rest) =
      (length + (Text.escapeChar c).length, closed) := by
  rcases Text.escapeChar_cases short with
    ⟨itself, notQuote, notBackslash, notReturn, notBreak⟩ | ⟨d, escaped, listed⟩
  · have inLine : ¬ (c = '\r' ∨ c = '\n') := by
      intro lineEnd
      rcases lineEnd with isReturn | isBreak
      · exact notReturn isReturn
      · exact notBreak isBreak
    rw [itself, List.singleton_append]
    unfold shortBody
    rw [if_neg notQuote, if_neg notBackslash, if_neg inLine, ofRest]
    rfl
  · have notBreak : d ≠ '\n' := by
      have table : Text.escapePairs.all (fun pair => pair.2 != '\n') = true := by decide
      exact bne_iff_ne.mp (List.all_eq_true.mp table (c, d) listed)
    have notQuote : '\\' ≠ '"' := by decide
    rw [escaped, List.cons_append, List.singleton_append]
    unfold shortBody
    rw [if_neg notQuote, if_pos rfl]
    dsimp only
    rw [if_neg notBreak, ofRest]
    rfl

/-- The body of a quoted text ends at its closing quote and stands for the text. -/
theorem body_quoted {chars : List Char} (short : ∀ c ∈ chars, Text.IsShort c)
    (following : List Char) :
    shortBody '"' (chars.flatMap Text.escapeChar ++ '"' :: following) =
        ((chars.flatMap Text.escapeChar).length, true) ∧
      unescape (chars.flatMap Text.escapeChar) = chars := by
  induction chars with
  | nil =>
      refine ⟨?_, rfl⟩
      unfold shortBody
      exact if_pos rfl
  | cons c rest inductionHypothesis =>
      rw [List.forall_mem_cons] at short
      have ofRest := inductionHypothesis short.2
      rw [List.flatMap_cons, List.append_assoc, shortBody_escapeChar short.1 ofRest.1,
        unescape_escapeChar _ short.1, ofRest.2, List.length_append, Nat.add_comm]
      exact ⟨rfl, rfl⟩

private theorem quoteLength_quoted {chars following : List Char}
    (short : ∀ c ∈ chars, Text.IsShort c)
    (stops : Stops following) :
    quoteLength '"' ('"' :: (chars.flatMap Text.escapeChar ++ '"' :: following)) = 1 := by
  have notLong : ['"', '"', '"'].isPrefixOf
      ('"' :: (chars.flatMap Text.escapeChar ++ '"' :: following)) = false := by
    cases chars with
    | nil =>
        rcases stops with ⟨stop, rest, isFollowing, listed⟩
        have notQuote : '"' ≠ stop := by
          intro isQuote
          rw [← isQuote] at listed
          exact absurd listed (by decide)
        rw [isFollowing]
        simp [List.isPrefixOf, notQuote]
    | cons c rest =>
        rcases Text.escapeChar_cases (short c List.mem_cons_self) with
          ⟨itself, notQuote, _⟩ | ⟨d, escaped, _⟩
        · simp [List.isPrefixOf, itself, notQuote.symm]
        · simp [List.isPrefixOf, escaped]
  rw [quoteLength, notLong]
  rfl

private theorem ofString?_quoted {text : String} {following : List Char}
    (short : ∀ c ∈ text.toList, Text.IsShort c) (stops : Stops following) :
    ofString? ('"' :: (text.toList.flatMap Text.escapeChar ++ '"' :: following)) =
      some (.token (.string text), (text.toList.flatMap Text.escapeChar).length + 2) := by
  have mark : ∀ rest, stringMark? ('"' :: rest) = some [] := fun rest => rfl
  rcases body_quoted short following with ⟨body, content⟩
  unfold ofString?
  simp only [mark, List.length_nil, List.drop_zero, List.headD_cons,
    quoteLength_quoted short stops, Nat.reduceEqDiff, if_false, List.drop_succ_cons, body,
    List.take_left, if_true]
  have plain : isPlainMark [] = true := rfl
  have count : ∀ length : Nat, 0 + 1 + length + 1 = length + 2 := by omega
  have value : stringContent [] (text.toList.flatMap Text.escapeChar) = text := by
    rw [stringContent, List.any_nil, if_neg Bool.false_ne_true, content, String.ofList_toList]
  rw [if_pos plain, value, count]

private theorem next_quoted {text : String} {following : List Char}
    (short : ∀ c ∈ text.toList, Text.IsShort c) (stops : Stops following) :
    next '"' (text.toList.flatMap Text.escapeChar ++ '"' :: following) =
      (.token (.string text), (text.toList.flatMap Text.escapeChar).length + 1) := by
  rw [next_of_isOrdinary _ (by decide), ofString?_quoted short stops]
  rfl

end Lexeme

/-! ## Texts of several tokens -/

/-- The pieces are tokens of one line, with gaps between them. -/
inductive InLine : List Piece → List Token → Prop
  | nil : InLine [] []
  | gap {text : List Char} {cut : List Piece} {tokens : List Token} :
      InLine cut tokens →
      InLine (⟨.gap, text⟩ :: cut) tokens
  | token {token : Token} {text : List Char} {cut : List Piece} {tokens : List Token} :
      InLine cut tokens →
      InLine (⟨.token token, text⟩ :: cut) (token :: tokens)

private theorem InLine.append
    {first second : List Piece} {tokens others : List Token}
    (inFirst : InLine first tokens) (inSecond : InLine second others) :
    InLine (first ++ second) (tokens ++ others) := by
  induction inFirst with
  | nil => exact inSecond
  | gap _ inductionHypothesis => exact .gap inductionHypothesis
  | token _ inductionHypothesis => exact .token inductionHypothesis

/-- Tokens of one line come out as they are, and change nothing but the depth. -/
theorem InLine.advances
    {cut : List Piece} {tokens : List Token} (inLine : InLine cut tokens) {layout : Layout}
    (started : layout.atLineStart = false) :
    ∃ emitted offset, Layout.Advances layout cut emitted
        { layout with offset, depth := tokens.foldl Layout.depthAfter layout.depth } ∧
      emitted.map Located.node = tokens := by
  induction inLine generalizing layout with
  | nil => exact ⟨[], layout.offset, .nil, rfl⟩
  | @gap text _ _ _ inductionHypothesis =>
      rcases @inductionHypothesis { layout with offset := (layout.cover text).stop } started with
        ⟨emitted, offset, advances, isTokens⟩
      exact ⟨[] ++ emitted, offset, .cons .gap advances, isTokens⟩
  | @token token text _ _ _ inductionHypothesis =>
      have notStart : ¬ (layout.atLineStart = true ∧ layout.depth = 0) := by
        intro starts
        rw [started] at starts
        cases starts.1
      rcases @inductionHypothesis
          { layout with
            offset := (layout.cover text).stop, depth := Layout.depthAfter layout.depth token }
          started with
        ⟨emitted, offset, advances, isTokens⟩
      refine ⟨_, offset, .cons (.inLine notStart) advances, ?_⟩
      rw [List.map_append, isTokens]
      rfl

/-- In front of what follows, the text is cut into the tokens, the first of which it starts with. -/
def CutsInto (text : List Char) (tokens : List Token) (following : List Char) : Prop :=
  ∃ first spelled cut rest, tokens = first :: rest ∧ InLine cut rest ∧
    pieces (text ++ following) = ⟨.token first, spelled⟩ :: (cut ++ pieces following)

private theorem notSpace_of_pieces {chars spelled : List Char} {token : Token} {others : List Piece}
    (cut : pieces chars = ⟨.token token, spelled⟩ :: others) :
    ∃ c rest, chars = c :: rest ∧ Lexeme.isSpace c = false := by
  cases chars with
  | nil =>
      rw [pieces] at cut
      cases cut
  | cons c rest =>
      refine ⟨c, rest, rfl, ?_⟩
      by_contra space
      rw [Bool.not_eq_false] at space
      have isNext : Lexeme.next c rest = (.gap, Lexeme.run Lexeme.isSpace rest) := by
        unfold Lexeme.next
        rw [if_pos space]
      rw [Layout.pieces_cons isNext (by simp)] at cut
      cases cut

/-- Spaces before a token are one gap. -/
theorem pieces_spaces {chars spelled : List Char} {token : Token} {others : List Piece}
    (cut : pieces chars = ⟨.token token, spelled⟩ :: others) (width : Nat) :
    pieces (List.replicate (width + 1) ' ' ++ chars) =
      ⟨.gap, List.replicate (width + 1) ' '⟩ :: pieces chars := by
  rcases notSpace_of_pieces cut with ⟨c, rest, isChars, notSpace⟩
  have length : Lexeme.run Lexeme.isSpace (List.replicate width ' ' ++ chars) = width := by
    have inside : ∀ d ∈ List.replicate width ' ', Lexeme.isSpace d = true := by
      intro d member
      rw [List.eq_of_mem_replicate member]
      decide
    rw [Lexeme.run, List.takeWhile_append_of_pos inside, isChars, List.takeWhile_cons, notSpace]
    simp
  have isNext : Lexeme.next ' ' (List.replicate width ' ' ++ chars) = (.gap, width) := by
    unfold Lexeme.next
    rw [if_pos (by decide), length]
  rw [List.replicate_succ, List.cons_append, Layout.pieces_cons isNext (by simp),
    List.take_append_of_le_length (by simp), List.drop_append_of_le_length (by simp)]
  simp

namespace CutsInto

variable {text other following : List Char} {tokens others : List Token}

theorem of_next {c : Char} {rest following : List Char} {token : Token}
    (isNext : Lexeme.next c (rest ++ following) = (.token token, rest.length)) :
    CutsInto (c :: rest) [token] following := by
  refine ⟨token, c :: rest, [], [], rfl, .nil, ?_⟩
  rw [List.cons_append, Layout.pieces_cons isNext (by simp), List.take_left, List.drop_left]
  rfl

theorem symbol {c : Char} {rest : List Char} {mark : Symbol}
    (spelled : mark.text.toList = c :: rest) (punctuation : Lexeme.isPunctuation c = true)
    (alone : Lexeme.symbol? (c :: (rest ++ following)) = some mark) :
    CutsInto (c :: rest) [.symbol mark] following := by
  have isNext := Lexeme.next_symbol punctuation alone
  rw [← String.length_toList, spelled, List.length_cons, Nat.add_sub_cancel] at isNext
  exact .of_next isNext

/-- Texts may be put together if the first is cut off before the second. -/
theorem append (first : CutsInto text tokens (other ++ following))
    (second : CutsInto other others following) :
    CutsInto (text ++ other) (tokens ++ others) following := by
  rcases first with ⟨token, spelled, front, rest, isTokens, inFront, isCut⟩
  rcases second with ⟨next, nextSpelled, back, later, isOthers, inBack, isNext⟩
  refine ⟨token, spelled, front ++ ⟨.token next, nextSpelled⟩ :: back, rest ++ next :: later, ?_,
    inFront.append (.token inBack), ?_⟩
  · rw [isTokens, isOthers, List.cons_append]
  · rw [List.append_assoc, isCut, isNext, List.append_assoc, List.cons_append]

/-- A space keeps two texts apart. -/
theorem spaced (first : CutsInto text tokens (' ' :: (other ++ following)))
    (second : CutsInto other others following) :
    CutsInto (text ++ ' ' :: other) (tokens ++ others) following := by
  rcases first with ⟨token, spelled, front, rest, isTokens, inFront, isCut⟩
  rcases second with ⟨next, nextSpelled, back, later, isOthers, inBack, isNext⟩
  have space : pieces (' ' :: (other ++ following)) =
      ⟨.gap, [' ']⟩ :: pieces (other ++ following) := pieces_spaces isNext 0
  refine ⟨token, spelled, front ++ ⟨.gap, [' ']⟩ :: ⟨.token next, nextSpelled⟩ :: back,
    rest ++ next :: later, ?_, inFront.append (.gap (.token inBack)), ?_⟩
  · rw [isTokens, isOthers, List.cons_append]
  · rw [List.append_assoc, List.cons_append, isCut, space, isNext, List.append_assoc,
      List.cons_append, List.cons_append]

end CutsInto

/-- The text is cut into the tokens wherever these end, and the brackets among them match. -/
structure Written (text : List Char) (tokens : List Token) : Prop where
  cuts : ∀ following, Lexeme.Stops following → CutsInto text tokens following
  balanced : ∀ depth, tokens.foldl Layout.depthAfter depth = depth

namespace Written

variable {text other : List Char} {tokens others : List Token}

theorem spaced (first : Written text tokens) (second : Written other others) :
    Written (text ++ ' ' :: other) (tokens ++ others) where
  cuts := fun following stops =>
    (first.cuts _ (Lexeme.stops_space _)).spaced (second.cuts following stops)
  balanced := by
    intro depth
    rw [List.foldl_append, first.balanced, second.balanced]

theorem word {word : String} {first : Char} {more : List Char}
    (isWord : word.toList = first :: more) (starts : Lexeme.startsWord first = true)
    (continues : ∀ c ∈ more, Lexeme.continuesWord c = true) :
    Written word.toList [.ofWord word] where
  cuts := by
    intro following stops
    have isNext := Lexeme.next_word starts continues stops
    rw [← isWord, String.ofList_toList] at isNext
    rw [isWord]
    exact .of_next isNext
  balanced := by
    intro depth
    rw [Token.ofWord]
    split
    · rfl
    · rfl

theorem quoted {text : String} (short : ∀ c ∈ text.toList, Text.IsShort c) :
    Written (Text.quoted text).toList [.string text] where
  cuts := by
    intro following stops
    have isNext := Lexeme.next_quoted short stops
    rw [Text.quoted, String.toList_ofList, Text.quotedChars]
    apply CutsInto.of_next
    rw [List.append_assoc, List.singleton_append, isNext, List.length_append]
    rfl
  balanced := fun _ => rfl

/-- A number that fits a word is written with its digits. -/
theorem number {n : Nat} {word : Int64} (fits : word.toInt = n) :
    Written (Nat.toDigits 10 n) [.int word] where
  cuts := by
    intro following stops
    rcases List.exists_cons_of_ne_nil (Nat.toDigits_ne_nil (n := n) (b := 10)) with
      ⟨first, more, written⟩
    have isNext := Lexeme.next_number fits written stops
    rw [written]
    exact .of_next isNext
  balanced := fun _ => rfl

theorem negative {n : Nat} {word : Int64} (fits : word.toInt = n) :
    Written ('-' :: Nat.toDigits 10 n) [.symbol .minus, .int word] where
  cuts := by
    intro following stops
    have digits := (number fits).cuts following stops
    have alone : Lexeme.symbol? ('-' :: ([] ++ (Nat.toDigits 10 n ++ following))) =
        some .minus := by
      rcases List.exists_cons_of_ne_nil (Nat.toDigits_ne_nil (n := n) (b := 10)) with
        ⟨first, more, written⟩
      have digit : first.isDigit = true :=
        Text.isDigit_of_mem_toDigits (written ▸ List.mem_cons_self)
      have others : ∀ d, d.isDigit = false → d ≠ first :=
        fun d outside => (Lexeme.ne_of_class digit outside).symm
      rw [written]
      simp [Lexeme.symbol?, Symbol.all, Symbol.text, others '>' (by decide),
        others '=' (by decide)]
    exact (CutsInto.symbol rfl (by decide) alone).append digits
  balanced := fun _ => rfl

/-- Parentheses may stand around any text. -/
theorem enclosed (inside : Written text tokens) :
    Written ('(' :: (text ++ [')']))
      (.symbol .leftParen :: (tokens ++ [.symbol .rightParen])) where
  cuts := by
    intro following stops
    have closing : CutsInto [')'] [.symbol .rightParen] following := .symbol rfl (by decide) rfl
    have filled := (inside.cuts _ (Lexeme.stops_closing following)).append closing
    have opening : CutsInto ['('] [.symbol .leftParen] (text ++ [')'] ++ following) :=
      .symbol rfl (by decide) rfl
    exact opening.append filled
  balanced := by
    intro depth
    rw [List.foldl_cons, List.foldl_append, inside.balanced]
    rfl

end Written

/-! ## Lines -/

namespace Layout

@[simp]
theorem byteLength_spaces (width : Nat) : byteLength (List.replicate width ' ') = width := by
  induction width with
  | zero => rfl
  | succ width inductionHypothesis =>
      have isSum : byteLength (' ' :: List.replicate width ' ') =
          1 + byteLength (List.replicate width ' ') := rfl
      rw [List.replicate_succ, isSum, inductionHypothesis, Nat.add_comm]

/-- Spaces before a token move the layout on and do nothing else. -/
theorem advances_spaces
    {chars spelled : List Char} {token : Token} {others : List Piece}
    (cut : pieces chars = ⟨.token token, spelled⟩ :: others) (layout : Layout) (width : Nat) :
    ∃ gaps, pieces (List.replicate width ' ' ++ chars) = gaps ++ pieces chars ∧
      Advances layout gaps [] { layout with offset := layout.offset + width } := by
  cases width with
  | zero => exact ⟨[], rfl, .nil⟩
  | succ width =>
      refine ⟨[⟨.gap, List.replicate (width + 1) ' '⟩], pieces_spaces cut width, ?_⟩
      have moved : Advances layout [⟨.gap, List.replicate (width + 1) ' '⟩] ([] ++ [])
          { layout with offset := (layout.cover (List.replicate (width + 1) ' ')).stop } :=
        .cons .gap .nil
      rw [cover, byteLength_spaces] at moved
      exact moved

/-- Between two lines, where no bracket is open. -/
def atMargin (offset : Nat) (indents : List Nat) : Layout :=
  { offset, indents, lineStart := offset }

/-- A line of written tokens adds the changes of blocks, the tokens and a line end. -/
theorem advances_line
    {text rest : List Char} {tokens : List Token} (cuts : CutsInto text tokens ('\n' :: rest))
    (balanced : tokens.foldl depthAfter 0 = 0)
    {width : Nat} {outer indents : List Nat} {marks : List Token}
    (isStart : startLine? width outer = some (marks, indents)) (start : Nat) :
    ∃ cut emitted stop,
      pieces (List.replicate width ' ' ++ (text ++ '\n' :: rest)) = cut ++ pieces rest ∧
        Advances (atMargin start outer) cut emitted (atMargin stop indents) ∧
        emitted.map Located.node = marks ++ tokens ++ [.newline] := by
  rcases cuts with ⟨first, spelled, cut, others, isTokens, inLine, isCut⟩
  rcases advances_spaces isCut (atMargin start outer) width with ⟨gaps, isGaps, spaces⟩
  let indented : Layout := { atMargin start outer with offset := start + width }
  let started : Layout :=
    { indented with
      offset := (indented.cover spelled).stop, indents, depth := depthAfter 0 first,
      atLineStart := false }
  rcases inLine.advances (show started.atLineStart = false from rfl) with
    ⟨emitted, offset, advances, isOthers⟩
  have column : start + width - start = width := Nat.add_sub_cancel_left start width
  have starts : indented.Emits spelled (.token first)
      (marks.map (⟨·, .point indented.offset⟩) ++ [⟨first, indented.cover spelled⟩]) started :=
    .lineStart rfl rfl (column.symm ▸ isStart)
  have closed : others.foldl depthAfter started.depth = 0 := by
    rw [isTokens, List.foldl_cons] at balanced
    exact balanced
  rw [closed] at advances
  have ends : Emits { started with offset, depth := 0 } ['\n'] .lineBreak
      [⟨.newline, Layout.cover { started with offset, depth := 0 } ['\n']⟩]
      (atMargin (offset + 1) indents) :=
    .lineEnd rfl rfl
  have isBreak : pieces ('\n' :: rest) = ⟨.lineBreak, ['\n']⟩ :: pieces rest :=
    @pieces_cons '\n' rest .lineBreak 0 rfl (by simp)
  have line := spaces.append (.cons starts (advances.append (.cons ends .nil)))
  refine ⟨_, _, offset + 1, ?_, line, ?_⟩
  · rw [isGaps, isCut, isBreak]
    simp
  · simp [isOthers, isTokens, Function.comp_def]

end Layout

end Rulebook
