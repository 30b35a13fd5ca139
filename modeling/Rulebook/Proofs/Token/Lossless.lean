import Rulebook.Proofs.Evaluation
import Rulebook.Proofs.Token.Emission

/-!
# Tokens cover the source

The tokens of a source lie on it one after the other, each over characters of its own, and what
lies between them means nothing. The offsets are counted in bytes, but always between characters.
-/

namespace Rulebook

@[simp]
theorem byteLength_append (front back : List Char) :
    byteLength (front ++ back) = byteLength front + byteLength back := by
  induction front with
  | nil => exact (Nat.zero_add _).symm
  | cons c rest inductionHypothesis =>
      rw [List.cons_append, byteLength, List.foldr_cons, ← byteLength, inductionHypothesis]
      exact (Nat.add_assoc _ _ _).symm

theorem byteLength_append_append (front middle back : List Char) :
    byteLength (front ++ middle ++ back) =
      byteLength front + byteLength middle + byteLength back := by
  rw [byteLength_append, byteLength_append]

/-- Stretches that mean nothing, one after the other, before what follows them. -/
inductive Gap : List Char → List Char → Prop
  | nil {following : List Char} : Gap [] following
  | cons {text rest following : List Char} :
      Ignored text (rest ++ following) →
      Gap rest following →
      Gap (text ++ rest) following

/-- What a token covers, before what follows it. Only the line end that closes the source and
changes of indentation cover nothing. -/
def Token.Occupies (text following : List Char) : Token → Prop
  | .newline => IsLineBreak text ∨ text = [] ∧ following = []
  | .indent | .dedent => text = []
  | token => text ≠ [] ∧ token.Spells text

private theorem Token.Spells.occupies {token : Token} {text following : List Char}
    (spells : token.Spells text) (nonempty : text ≠ []) : token.Occupies text following := by
  cases token with
  | newline | indent | dedent => cases spells
  | keyword | symbol | float | int | string | markedString | name => exact ⟨nonempty, spells⟩

/-- The tokens lie on the source in order, over whole characters, with gaps before, between and
after them. -/
structure Lossless (source : List Char) (tokens : List (Located Token)) : Prop where
  occupied : ∀ token ∈ tokens, ∃ before text after, source = before ++ text ++ after ∧
    token.span = ⟨byteLength before, byteLength (before ++ text)⟩ ∧
    token.node.Occupies text after
  bounded : ∀ token ∈ tokens,
    token.span.start ≤ token.span.stop ∧ token.span.stop ≤ byteLength source
  ordered : tokens.Pairwise fun earlier later => earlier.span.stop ≤ later.span.start
  between : ∀ front back, tokens = front ++ back →
    ∃ before gap after, source = before ++ gap ++ after ∧
      byteLength before = (front.getLast?.map (·.span.stop)).getD 0 ∧
      byteLength (before ++ gap) = (back.head?.map (·.span.start)).getD (byteLength source) ∧
      Gap gap after

/-- The tokens lie on the characters that start at the offset. -/
inductive Tiled : Nat → List Char → List (Located Token) → Prop
  | finish {offset : Nat} {gap : List Char} :
      Gap gap [] →
      Tiled offset gap []
  | token {offset : Nat} {gap text rest : List Char} {token : Located Token}
      {tokens : List (Located Token)} :
      Gap gap (text ++ rest) →
      token.node.Occupies text rest →
      token.span = ⟨offset + byteLength gap, offset + byteLength gap + byteLength text⟩ →
      Tiled (offset + byteLength gap + byteLength text) rest tokens →
      Tiled offset (gap ++ (text ++ rest)) (token :: tokens)

namespace Tiled

variable {offset : Nat} {chars text following before : List Char} {tokens : List (Located Token)}

private theorem skip (ignored : Ignored text following)
    (tiled : Tiled (offset + byteLength text) following tokens) :
    Tiled offset (text ++ following) tokens := by
  cases tiled with
  | finish gap =>
      rw [← List.append_nil following] at ignored
      exact .finish (.cons ignored gap)
  | @token _ gap covered rest token tokens isGap occupies isSpan later =>
      rw [← List.append_assoc]
      rw [Nat.add_assoc offset, ← byteLength_append] at isSpan later
      exact .token (.cons ignored isGap) occupies isSpan later

theorem cover {token : Token} (occupies : token.Occupies text following)
    (tiled : Tiled (offset + byteLength text) following tokens) :
    Tiled offset (text ++ following) (⟨token, ⟨offset, offset + byteLength text⟩⟩ :: tokens) :=
  .token .nil occupies rfl tiled

theorem mark {token : Token} (occupies : token.Occupies [] chars)
    (tiled : Tiled offset chars tokens) :
    Tiled offset chars (⟨token, .point offset⟩ :: tokens) := by
  have covered : Tiled offset ([] ++ chars) (⟨token, ⟨offset, offset + byteLength []⟩⟩ :: tokens) :=
    cover occupies tiled
  exact covered

theorem marks {marks : List Token} (occupies : ∀ token ∈ marks, token.Occupies [] chars)
    (tiled : Tiled offset chars tokens) :
    Tiled offset chars (marks.map (⟨·, .point offset⟩) ++ tokens) := by
  induction marks with
  | nil => exact tiled
  | cons token others inductionHypothesis =>
      have later := inductionHypothesis fun other member =>
        occupies other (List.mem_cons_of_mem token member)
      exact later.mark (occupies token List.mem_cons_self)

/-- Every token lies on its text. -/
theorem occupied (tiled : Tiled offset chars tokens) (isOffset : offset = byteLength before)
    {token : Located Token} (member : token ∈ tokens) :
    ∃ front text after, before ++ chars = front ++ text ++ after ∧
      token.span = ⟨byteLength front, byteLength (front ++ text)⟩ ∧
      token.node.Occupies text after := by
  induction tiled generalizing before with
  | finish => cases member
  | @token offset gap text rest first tokens _ occupies isSpan _ inductionHypothesis =>
      rcases List.mem_cons.mp member with rfl | later
      · refine ⟨before ++ gap, text, rest, ?_, ?_, occupies⟩
        · simp only [List.append_assoc]
        · rw [isSpan, isOffset, byteLength_append_append, byteLength_append]
      · have isNext : offset + byteLength gap + byteLength text =
            byteLength (before ++ gap ++ text) := by
          rw [isOffset, byteLength_append_append]
        obtain ⟨front, covered, after, isSplit, isLater⟩ := inductionHypothesis isNext later
        refine ⟨front, covered, after, ?_, isLater⟩
        rw [← isSplit]
        simp only [List.append_assoc]

private theorem offset_le_start (tiled : Tiled offset chars tokens) :
    ∀ token ∈ tokens, offset ≤ token.span.start := by
  induction tiled with
  | finish => simp
  | @token offset gap text rest first tokens _ _ isSpan _ inductionHypothesis =>
      intro token member
      rcases List.mem_cons.mp member with rfl | later
      · rw [isSpan]
        exact Nat.le_add_right offset _
      · have bound := inductionHypothesis token later
        omega

private theorem ordered (tiled : Tiled offset chars tokens) :
    tokens.Pairwise fun earlier later => earlier.span.stop ≤ later.span.start := by
  induction tiled with
  | finish => exact .nil
  | @token offset gap text rest first tokens _ _ isSpan following inductionHypothesis =>
      refine .cons ?_ inductionHypothesis
      intro later member
      rw [isSpan]
      exact following.offset_le_start later member

/-- What is left between two tokens is a gap. -/
theorem between (tiled : Tiled offset chars tokens) (isOffset : offset = byteLength before)
    {front back : List (Located Token)} (isTokens : tokens = front ++ back) :
    ∃ earlier gap after, before ++ chars = earlier ++ gap ++ after ∧
      byteLength earlier = (front.getLast?.map (·.span.stop)).getD offset ∧
      byteLength (earlier ++ gap) =
        (back.head?.map (·.span.start)).getD (byteLength (before ++ chars)) ∧
      Gap gap after := by
  induction tiled generalizing before front with
  | @finish offset gap isGap =>
      obtain ⟨rfl, rfl⟩ := List.append_eq_nil_iff.mp isTokens.symm
      exact ⟨before, gap, [], (List.append_nil _).symm, isOffset.symm, rfl, isGap⟩
  | @token offset gap text rest first tokens isGap _ isSpan _ inductionHypothesis =>
      cases front with
      | nil =>
          cases isTokens
          refine ⟨before, gap, text ++ rest, (List.append_assoc _ _ _).symm, isOffset.symm, ?_,
            isGap⟩
          rw [byteLength_append, ← isOffset, List.head?_cons, Option.map_some, isSpan]
          rfl
      | cons token others =>
          cases isTokens
          have isNext : offset + byteLength gap + byteLength text =
              byteLength (before ++ gap ++ text) := by
            rw [isOffset, byteLength_append_append]
          obtain ⟨earlier, between, after, isSplit, isStart, isStop, lies⟩ :=
            inductionHypothesis isNext rfl
          have sameChars : before ++ gap ++ text ++ rest = before ++ (gap ++ (text ++ rest)) := by
            simp only [List.append_assoc]
          rw [sameChars] at isSplit isStop
          refine ⟨earlier, between, after, isSplit, ?_, isStop, lies⟩
          rw [isStart, List.getLast?_cons]
          cases others.getLast? with
          | none => rw [Option.getD_none, Option.map_some, isSpan]; rfl
          | some last => rfl

theorem lossless (tiled : Tiled 0 chars tokens) : Lossless chars tokens := by
  have isOffset : 0 = byteLength [] := rfl
  have occupied : ∀ token ∈ tokens, ∃ front text after, chars = front ++ text ++ after ∧
      token.span = ⟨byteLength front, byteLength (front ++ text)⟩ ∧
      token.node.Occupies text after :=
    fun token member => tiled.occupied isOffset member
  refine ⟨occupied, ?_, tiled.ordered, fun front back => tiled.between isOffset⟩
  intro token member
  obtain ⟨front, text, after, rfl, isSpan, -⟩ := occupied token member
  rw [isSpan, byteLength_append_append, byteLength_append]
  exact ⟨Nat.le_add_right _ _, Nat.le_add_right _ _⟩

end Tiled

namespace Layout

variable {layout next : Layout} {text following : List Char} {lexeme : Lexeme}
  {emitted out : List (Located Token)}

private theorem tiled_finish (layout : Layout) : Tiled layout.offset [] layout.finish := by
  have atEnd : Tiled layout.offset [] [] := .finish .nil
  have dedents : Tiled layout.offset []
      (List.replicate (layout.indents.length - 1) ⟨.dedent, .point layout.offset⟩) := by
    have empty : ∀ token ∈ List.replicate (layout.indents.length - 1) Token.dedent,
        token.Occupies [] [] := by
      intro token member
      cases List.eq_of_mem_replicate member
      rfl
    have marked := atEnd.marks empty
    rw [List.map_replicate, List.append_nil] at marked
    exact marked
  rw [finish]
  split
  · exact dedents
  · exact dedents.mark (.inr ⟨rfl, rfl⟩)

/-- The tokens of a lexeme lie on its text, before those that follow. -/
theorem Emits.tiled (emits : layout.Emits text lexeme emitted next)
    (covers : lexeme.Covers text following) (nonempty : text ≠ [])
    (tiled : Tiled next.offset following out) :
    Tiled layout.offset (text ++ following) (emitted ++ out) := by
  cases emits with
  | gap => exact tiled.skip covers
  | nested => exact tiled.skip (.lineBreak covers)
  | blankLine => exact tiled.skip (.lineBreak covers)
  | lineEnd => exact tiled.cover (.inl covers)
  | @inLine token => exact tiled.cover (Token.Spells.occupies covers nonempty)
  | @lineStart token marks indents starts outside isStart =>
      have line := tiled.cover (Token.Spells.occupies covers nonempty)
      rw [List.append_assoc]
      refine line.marks ?_
      intro mark member
      rcases (startLine_cases isStart).2 with ⟨_, rfl, _⟩ | ⟨_, rfl, _⟩ | ⟨closed, rfl, _⟩
      · cases member
      · cases List.mem_singleton.mp member
        rfl
      · cases List.eq_of_mem_replicate member
        rfl

theorem Lays.tiled {chars : List Char} (lays : Lays layout chars out) :
    Tiled layout.offset chars out := by
  induction lays with
  | finish layout => exact tiled_finish layout
  | step covers nonempty emits _ inductionHypothesis =>
      exact emits.tiled covers nonempty inductionHypothesis

end Layout

/-- The tokens of a source and the gaps between them make up the source. -/
theorem tokenize_lossless (source : String) (tokens : List (Located Token))
    (tokenized : tokenize source = .ok tokens) : Lossless source.toList tokens := by
  have lays : Layout.Lays {} source.toList tokens := Layout.lays_of_tokens tokenized
  exact lays.tiled.lossless

/-- A comment and a string with a letter of two bytes, line breaks of both kinds, and a joined
line. -/
theorem tokenize_lossless_joined :
    let tokens : List (Located Token) :=
      [⟨.name "x", ⟨6, 7⟩⟩, ⟨.symbol .assign, ⟨8, 9⟩⟩, ⟨.string "é", ⟨10, 14⟩⟩,
        ⟨.keyword .isKw, ⟨19, 21⟩⟩, ⟨.name "y", ⟨22, 23⟩⟩, ⟨.newline, ⟨23, 24⟩⟩]
    tokenize "# é\r\nx = 'é' \\\n  is y\n" = .ok tokens ∧
      Lossless "# é\r\nx = 'é' \\\n  is y\n".toList tokens := by
  intro tokens
  have tokenized : tokenize "# é\r\nx = 'é' \\\n  is y\n" = .ok tokens :=
    toOption_eq_some_iff.mp (by decide +kernel)
  exact ⟨tokenized, tokenize_lossless _ tokens tokenized⟩

end Rulebook
