import Rulebook.Proofs.Evaluation
import Rulebook.Proofs.Token.Emission

/-!
# The layout of a token stream

Which layout token may come next depends on the token before it and on the number of open blocks.
The state of the layout always agrees with these two, so the streams it emits are balanced and have
their line ends and changes of indentation where they belong.
-/

namespace Rulebook

/-- A stream of tokens with well-formed layout. -/
structure WellLaid (kinds : List Token) : Prop where
  ends : kinds = [] ∨ ∃ front closed, kinds = front ++ .newline :: List.replicate closed .dedent
  starts : ∀ first ∈ kinds.head?, first ≠ .newline ∧ first ≠ .indent ∧ first ≠ .dedent
  newline_apart : ∀ before after, kinds ≠ before ++ .newline :: .newline :: after
  indent_after : ∀ before after, kinds = before ++ .indent :: after →
    before.getLast? = some .newline
  dedent_after : ∀ before after, kinds = before ++ .dedent :: after →
    before.getLast? = some .newline ∨ before.getLast? = some .dedent
  balanced : ∀ front, front <+: kinds → front.count .dedent ≤ front.count .indent
  closed : kinds.count .dedent = kinds.count .indent

private theorem Token.ne_layout {token : Token} (plain : token.isLayout = false) :
    token ≠ .newline ∧ token ≠ .indent ∧ token ≠ .dedent := by
  refine ⟨?_, ?_, ?_⟩
  · rintro rfl
    cases plain
  · rintro rfl
    cases plain
  · rintro rfl
    cases plain

/-- The tokens may come after the previous one, if there is one, inside the given number of
blocks. -/
inductive Laid : Option Token → Nat → List Token → Prop
  | nil {previous : Option Token} :
      (∀ token ∈ previous, token = .newline ∨ token = .dedent) →
      Laid previous 0 []
  | token {previous : Option Token} {depth : Nat} {token : Token} {rest : List Token} :
      token.isLayout = false →
      Laid (some token) depth rest →
      Laid previous depth (token :: rest)
  | newline {last : Token} {depth : Nat} {rest : List Token} :
      last.isLayout = false →
      Laid (some .newline) depth rest →
      Laid (some last) depth (.newline :: rest)
  | indent {depth : Nat} {rest : List Token} :
      Laid (some .indent) (depth + 1) rest →
      Laid (some .newline) depth (.indent :: rest)
  | dedent {last : Token} {depth : Nat} {rest : List Token} :
      last = .newline ∨ last = .dedent →
      Laid (some .dedent) depth rest →
      Laid (some last) (depth + 1) (.dedent :: rest)

namespace Laid

variable {previous : Option Token} {depth : Nat} {before rest kinds : List Token}

private theorem tail {token : Token} (laid : Laid previous depth (token :: rest)) :
    ∃ inner, Laid (some token) inner rest ∧
      inner + [token].count .dedent = depth + [token].count .indent := by
  cases laid with
  | token plain later =>
      obtain ⟨-, notIndent, notDedent⟩ := Token.ne_layout plain
      refine ⟨depth, later, ?_⟩
      rw [List.count_singleton, List.count_singleton, if_neg, if_neg]
      · simpa using notIndent
      · simpa using notDedent
  | newline plain later => exact ⟨depth, later, rfl⟩
  | indent later => exact ⟨depth + 1, later, rfl⟩
  | @dedent last depth rest follows later => exact ⟨depth, later, rfl⟩

/-- What is left after some tokens is laid out inside the blocks that these leave open. -/
theorem drop (laid : Laid previous depth (before ++ rest)) :
    ∃ inner, Laid (before.getLast?.or previous) inner rest ∧
      inner + before.count .dedent = depth + before.count .indent := by
  induction before generalizing previous depth with
  | nil => exact ⟨depth, laid, rfl⟩
  | cons token others inductionHypothesis =>
      obtain ⟨middle, later, isCount⟩ := laid.tail
      obtain ⟨inner, last, isInnerCount⟩ := inductionHypothesis later
      have isLast : (token :: others).getLast?.or previous = others.getLast?.or (some token) := by
        rw [List.getLast?_cons]
        cases others.getLast? <;> rfl
      rw [isLast, List.count_cons, List.count_cons]
      refine ⟨inner, last, ?_⟩
      rw [List.count_singleton, List.count_singleton] at isCount
      omega

/-- All blocks are closed behind the last line end. -/
theorem ends (laid : Laid previous depth kinds) :
    (∃ front closed, kinds = front ++ .newline :: List.replicate closed .dedent) ∨
      (∀ token ∈ previous, token = .newline ∨ token = .dedent) ∧
        kinds = List.replicate depth .dedent := by
  induction laid with
  | nil closes => exact .inr ⟨closes, rfl⟩
  | @token previous depth token rest plain _ inductionHypothesis =>
      rcases inductionHypothesis with ⟨front, closed, rfl⟩ | ⟨closes, -⟩
      · exact .inl ⟨token :: front, closed, rfl⟩
      · rcases closes token rfl with rfl | rfl <;> cases plain
  | @newline last depth rest plain _ inductionHypothesis =>
      rcases inductionHypothesis with ⟨front, closed, rfl⟩ | ⟨-, rfl⟩
      · exact .inl ⟨.newline :: front, closed, rfl⟩
      · exact .inl ⟨[], depth, rfl⟩
  | @indent depth rest _ inductionHypothesis =>
      rcases inductionHypothesis with ⟨front, closed, rfl⟩ | ⟨closes, -⟩
      · exact .inl ⟨.indent :: front, closed, rfl⟩
      · rcases closes .indent rfl with impossible | impossible <;> cases impossible
  | @dedent last depth rest follows _ inductionHypothesis =>
      rcases inductionHypothesis with ⟨front, closed, rfl⟩ | ⟨-, rfl⟩
      · exact .inl ⟨.dedent :: front, closed, rfl⟩
      · refine .inr ⟨?_, rfl⟩
        intro token isLast
        cases isLast
        exact follows

/-- Every requirement is met by what may come after what. -/
theorem wellLaid (laid : Laid none 0 kinds) : WellLaid kinds where
  ends := by
    rcases laid.ends with atNewline | ⟨-, isEmpty⟩
    · exact .inr atNewline
    · exact .inl isEmpty
  starts := by
    intro first isFirst
    obtain ⟨rest, rfl⟩ := List.head?_eq_some_iff.mp isFirst
    cases laid with
    | token plain _ => exact Token.ne_layout plain
  newline_apart := by
    rintro before after rfl
    obtain ⟨inner, second, -⟩ := laid.drop
    obtain ⟨deeper, adjacent, -⟩ := second.tail
    cases adjacent with
    | token plain _ => cases plain
    | newline plain _ => cases plain
  indent_after := by
    rintro before after rfl
    obtain ⟨inner, last, -⟩ := laid.drop
    rw [Option.or_none] at last
    generalize isLast : before.getLast? = previous at last
    cases last with
    | token plain _ => cases plain
    | indent => rfl
  dedent_after := by
    rintro before after rfl
    obtain ⟨inner, last, -⟩ := laid.drop
    rw [Option.or_none] at last
    generalize isLast : before.getLast? = previous at last
    cases last with
    | token plain _ => cases plain
    | dedent follows _ =>
        rcases follows with rfl | rfl
        · exact .inl rfl
        · exact .inr rfl
  balanced := by
    rintro front ⟨rest, rfl⟩
    obtain ⟨inner, -, isCount⟩ := laid.drop
    omega
  closed := by
    rw [← List.append_nil kinds] at laid
    obtain ⟨inner, last, isCount⟩ := laid.drop
    generalize kinds.getLast?.or none = previous at last
    cases last
    omega

/-- Blocks end one after the other. -/
theorem dedents {last : Token} (closed : Nat) (follows : last = .newline ∨ last = .dedent)
    (laid : ∀ token, token = .newline ∨ token = .dedent → Laid (some token) depth rest) :
    Laid (some last) (depth + closed) (List.replicate closed .dedent ++ rest) := by
  induction closed generalizing last with
  | zero => exact laid last follows
  | succ closed inductionHypothesis => exact .dedent follows (inductionHypothesis (.inr rfl))

private theorem replicate_dedent {last : Token} (follows : last = .newline ∨ last = .dedent)
    (closed : Nat) : Laid (some last) closed (List.replicate closed .dedent) := by
  have atEnd : ∀ token, token = .newline ∨ token = .dedent → Laid (some token) 0 [] := by
    intro token closes
    refine .nil ?_
    intro other isToken
    cases isToken
    exact closes
  have ended := dedents closed follows atEnd
  rw [List.append_nil, Nat.zero_add] at ended
  exact ended

end Laid

namespace Layout

/-- The state agrees with the last token emitted, if there is one. -/
inductive Agrees (layout : Layout) : Option Token → Prop
  | start :
      layout.indents = [] →
      layout.atLineStart = true →
      layout.depth = 0 →
      Agrees layout none
  | lineStart :
      layout.indents ≠ [] →
      layout.atLineStart = true →
      layout.depth = 0 →
      Agrees layout (some .newline)
  | inLine {last : Token} :
      layout.indents ≠ [] →
      layout.atLineStart = false →
      last.isLayout = false →
      Agrees layout (some last)

private theorem Agrees.moved {layout : Layout} {previous : Option Token}
    (agrees : layout.Agrees previous)
    (offset lineStart : Nat) : Agrees { layout with offset, lineStart } previous := by
  cases agrees with
  | start based starts outside => exact .start based starts outside
  | lineStart based starts outside => exact .lineStart based starts outside
  | inLine based started plain => exact .inLine based started plain

private theorem Agrees.finish {layout : Layout} {previous : Option Token}
    (agrees : layout.Agrees previous) :
    Laid previous (layout.indents.length - 1) (layout.finish.map (·.node)) := by
  cases agrees with
  | start based starts outside =>
      rw [Layout.finish, if_pos starts, based]
      exact .nil (by simp)
  | lineStart based starts outside =>
      rw [Layout.finish, if_pos starts, List.nil_append, List.map_replicate]
      exact .replicate_dedent (.inl rfl) _
  | inLine based started plain =>
      rw [Layout.finish, if_neg (by simp [started]), List.map_append, List.map_replicate]
      exact .newline plain (.replicate_dedent (.inl rfl) _)

end Layout

private theorem Token.Spells.plain {token : Token} {text : List Char} (spells : token.Spells text) :
    token.isLayout = false := by
  cases token with
  | newline | indent | dedent => cases spells
  | keyword | symbol | float | int | string | markedString | name => rfl

namespace Layout

@[simp]
theorem map_node_marks (marks : List Token) (offset : Nat) :
    (marks.map fun mark => Located.mk mark (.point offset)).map Located.node = marks := by
  rw [List.map_map]
  exact List.map_id marks

/-- One lexeme keeps the agreement, and its tokens may stand before what is laid out after it. -/
theorem Emits.laid {layout next : Layout} {text following : List Char} {lexeme : Lexeme}
    {emitted : List (Located Token)} {previous : Option Token} {kinds : List Token}
    (emits : layout.Emits text lexeme emitted next) (covers : lexeme.Covers text following)
    (agrees : layout.Agrees previous)
    (later : ∀ last, next.Agrees last → Laid last (next.indents.length - 1) kinds) :
    Laid previous (layout.indents.length - 1) (emitted.map (·.node) ++ kinds) := by
  cases emits with
  | gap => exact later previous (agrees.moved _ _)
  | nested inside => exact later previous (agrees.moved _ _)
  | blankLine outside starts =>
      refine later previous ?_
      have moved := agrees.moved (layout.cover text).stop (layout.cover text).stop
      rw [starts] at moved
      exact moved
  | lineEnd outside started =>
      cases agrees with
      | start _ starts _ => cases started.symm.trans starts
      | lineStart _ starts _ => cases started.symm.trans starts
      | inLine based _ plain => exact .newline plain (later _ (.lineStart based rfl outside))
  | @inLine token started =>
      have plain : token.isLayout = false := Token.Spells.plain covers
      cases agrees with
      | start _ starts outside => exact absurd ⟨starts, outside⟩ started
      | lineStart _ starts outside => exact absurd ⟨starts, outside⟩ started
      | inLine based isStarted _ => exact .token plain (later _ (.inLine based isStarted plain))
  | @lineStart token marks indents starts outside isStart =>
      have plain : token.isLayout = false := Token.Spells.plain covers
      obtain ⟨based, isCase⟩ := startLine_cases isStart
      have line : ∀ last, Laid last (indents.length - 1) (token :: kinds) :=
        fun last => .token plain (later _ (.inLine based rfl plain))
      have positive : 0 < indents.length := List.length_pos_iff.mpr based
      rw [List.map_append, map_node_marks, List.append_assoc, List.map_singleton,
        List.singleton_append]
      cases agrees with
      | start unset _ _ =>
          rcases isCase with ⟨_, rfl, isLength⟩ | ⟨set, _, _⟩ | ⟨closed, _, isLength⟩
          · have laid := line none
            rw [isLength] at laid
            rw [unset]
            exact laid
          · exact absurd unset set
          · rw [unset, List.length_nil] at isLength
            omega
      | lineStart outer _ _ =>
          have outerPositive : 0 < layout.indents.length := List.length_pos_iff.mpr outer
          rcases isCase with ⟨unset, _, _⟩ | ⟨_, rfl, isLength⟩ | ⟨closed, rfl, isLength⟩
          · exact absurd unset outer
          · have laid := line (some .indent)
            have deeper : indents.length - 1 = layout.indents.length - 1 + 1 := by omega
            rw [deeper] at laid
            exact .indent laid
          · have isDepth : layout.indents.length - 1 = indents.length - 1 + closed := by omega
            rw [isDepth]
            exact .dedents closed (.inl rfl) fun last _ => line (some last)
      | inLine _ started _ => cases starts.symm.trans started

/-- By induction on the lexemes, each of which keeps the agreement. -/
theorem Lays.laid {layout : Layout} {chars : List Char} {out : List (Located Token)}
    {previous : Option Token} (lays : Lays layout chars out) (agrees : layout.Agrees previous) :
    Laid previous (layout.indents.length - 1) (out.map (·.node)) := by
  induction lays generalizing previous with
  | finish layout => exact agrees.finish
  | step covers _ emits _ inductionHypothesis =>
      rw [List.map_append]
      exact emits.laid covers agrees fun last agreesAfter => inductionHypothesis agreesAfter

end Layout

/-- The tokens of a source have well-formed layout. -/
theorem tokenize_wellLaid (source : String) (tokens : List (Located Token))
    (tokenized : tokenize source = .ok tokens) : WellLaid (tokens.map (·.node)) := by
  have lays : Layout.Lays {} source.toList tokens := Layout.lays_of_tokens tokenized
  have start : Layout.Agrees {} none := .start rfl rfl rfl
  exact (lays.laid start).wellLaid

/-- A snippet that is indented as a whole, with a line break in brackets, a blank line and a block
that is open at the end. -/
theorem tokenize_wellLaid_snippet :
    let tokens : List (Located Token) :=
      [⟨.keyword .ifKw, ⟨2, 4⟩⟩, ⟨.name "a", ⟨5, 6⟩⟩, ⟨.symbol .colon, ⟨6, 7⟩⟩,
        ⟨.newline, ⟨7, 8⟩⟩, ⟨.indent, ⟨12, 12⟩⟩, ⟨.name "b", ⟨12, 13⟩⟩,
        ⟨.symbol .leftParen, ⟨13, 14⟩⟩, ⟨.int 1, ⟨15, 16⟩⟩, ⟨.symbol .rightParen, ⟨16, 17⟩⟩,
        ⟨.newline, ⟨17, 18⟩⟩, ⟨.name "c", ⟨23, 24⟩⟩, ⟨.newline, ⟨30, 30⟩⟩, ⟨.dedent, ⟨30, 30⟩⟩]
    tokenize "  if a:\n    b(\n1)\n\n    c # end" = .ok tokens ∧
      WellLaid (tokens.map (·.node)) := by
  intro tokens
  have tokenized : tokenize "  if a:\n    b(\n1)\n\n    c # end" = .ok tokens :=
    toOption_eq_some_iff.mp (by decide +kernel)
  exact ⟨tokenized, tokenize_wellLaid _ tokens tokenized⟩

end Rulebook
