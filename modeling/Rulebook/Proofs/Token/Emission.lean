import Rulebook.Proofs.Basic
import Rulebook.Proofs.Token.Cutting
import Rulebook.Token.Layout

/-!
# What each lexeme adds to the tokens

A lexeme of the source adds some tokens and changes the state of the layout. A source that has
tokens is a sequence of such steps, none of them a fault, followed by the tokens that end it.
-/

namespace Rulebook

namespace Layout

/-- The span of the characters that come next. -/
def cover (layout : Layout) (text : List Char) : Span :=
  ⟨layout.offset, layout.offset + byteLength text⟩

/-- A lexeme that covers the text adds the tokens and leads to another state. -/
inductive Emits (layout : Layout) (text : List Char) :
    Lexeme → List (Located Token) → Layout → Prop
  | gap : Emits layout text .gap [] { layout with offset := (layout.cover text).stop }
  /-- A line break between brackets. -/
  | nested :
      layout.depth ≠ 0 →
      Emits layout text .lineBreak [] { layout with offset := (layout.cover text).stop }
  | blankLine :
      layout.depth = 0 →
      layout.atLineStart = true →
      Emits layout text .lineBreak []
        { layout with
          offset := (layout.cover text).stop, atLineStart := true,
          lineStart := (layout.cover text).stop }
  | lineEnd :
      layout.depth = 0 →
      layout.atLineStart = false →
      Emits layout text .lineBreak [⟨.newline, layout.cover text⟩]
        { layout with
          offset := (layout.cover text).stop, atLineStart := true,
          lineStart := (layout.cover text).stop }
  | inLine {token : Token} :
      ¬ (layout.atLineStart = true ∧ layout.depth = 0) →
      Emits layout text (.token token) [⟨token, layout.cover text⟩]
        { layout with
          offset := (layout.cover text).stop, depth := depthAfter layout.depth token }
  | lineStart {token : Token} {marks : List Token} {indents : List Nat} :
      layout.atLineStart = true →
      layout.depth = 0 →
      startLine? (layout.offset - layout.lineStart) layout.indents = some (marks, indents) →
      Emits layout text (.token token)
        (marks.map (⟨·, .point layout.offset⟩) ++ [⟨token, layout.cover text⟩])
        { layout with
          offset := (layout.cover text).stop, indents, depth := depthAfter layout.depth token,
          atLineStart := false }

private theorem unindent_length (column : Nat) (indents : List Nat) :
    (unindent column indents).1.length + (unindent column indents).2 = indents.length := by
  induction indents with
  | nil => rfl
  | cons level outer inductionHypothesis =>
      rw [unindent]
      split
      · rw [List.length_cons, ← inductionHypothesis]
        rfl
      · rfl

/-- A line sets the base column, opens a block, or closes as many blocks as it leaves. -/
theorem startLine_cases {column : Nat} {indents remaining : List Nat} {marks : List Token}
    (starts : startLine? column indents = some (marks, remaining)) :
    remaining ≠ [] ∧
      (indents = [] ∧ marks = [] ∧ remaining.length = 1 ∨
        indents ≠ [] ∧ marks = [.indent] ∧ remaining.length = indents.length + 1 ∨
        ∃ closed, marks = List.replicate closed .dedent ∧
          remaining.length + closed = indents.length) := by
  unfold startLine? at starts
  split at starts
  · cases starts
    exact ⟨by simp, .inl ⟨rfl, rfl, rfl⟩⟩
  · split at starts
    · cases starts
      exact ⟨by simp, .inr (.inl ⟨by simp, rfl, rfl⟩)⟩
    · dsimp only at starts
      split at starts
      · rename_i top outer _ isColumn
        cases starts
        refine ⟨?_, .inr (.inr ⟨_, rfl, unindent_length column (top :: outer)⟩)⟩
        intro isEmpty
        rw [isEmpty] at isColumn
        cases isColumn
      · cases starts

private theorem emits_of_tokens {layout : Layout} {piece : Piece} {rest : List Piece}
    {out : List (Located Token)} (laid : layout.tokens (piece :: rest) = .ok out) :
    ∃ emitted next tail, layout.Emits piece.text piece.lexeme emitted next ∧
      next.tokens rest = .ok tail ∧ out = emitted ++ tail := by
  obtain ⟨lexeme, text⟩ := piece
  rw [tokens] at laid
  dsimp only at laid
  split at laid
  · cases laid
  · exact ⟨_, _, _, .gap, laid, rfl⟩
  · split at laid
    · rename_i outside
      split at laid
      · rename_i starts
        exact ⟨_, _, _, .blankLine outside starts, laid, rfl⟩
      · rename_i started
        obtain ⟨tail, later, rfl⟩ := exists_ok_of_map_eq_ok laid
        exact ⟨_, _, tail, .lineEnd outside (Bool.eq_false_iff.mpr started), later, rfl⟩
    · rename_i inside
      exact ⟨_, _, _, .nested inside, laid, rfl⟩
  · split at laid
    · rename_i starts
      split at laid
      · cases laid
      · rename_i marks indents isStart
        obtain ⟨tail, later, rfl⟩ := exists_ok_of_map_eq_ok laid
        refine ⟨_, _, tail, .lineStart starts.1 starts.2 isStart, later, ?_⟩
        rw [List.append_assoc]
        rfl
    · rename_i started
      obtain ⟨tail, later, rfl⟩ := exists_ok_of_map_eq_ok laid
      exact ⟨_, _, tail, .inLine started, later, rfl⟩

private theorem tokens_of_emits {layout next : Layout} {piece : Piece} {rest : List Piece}
    {emitted tail : List (Located Token)}
    (emits : layout.Emits piece.text piece.lexeme emitted next)
    (later : next.tokens rest = .ok tail) :
    layout.tokens (piece :: rest) = .ok (emitted ++ tail) := by
  obtain ⟨lexeme, text⟩ := piece
  rw [tokens]
  cases emits with
  | gap => exact later
  | nested inside =>
      dsimp only
      rw [if_neg inside]
      exact later
  | blankLine outside starts =>
      dsimp only
      rw [if_pos outside, if_pos starts]
      exact later
  | lineEnd outside started =>
      dsimp only [cover] at later ⊢
      rw [if_pos outside, started, if_neg Bool.false_ne_true, later]
      rfl
  | inLine started =>
      dsimp only [cover] at later ⊢
      rw [if_neg started, later]
      rfl
  | lineStart starts outside isStart =>
      dsimp only [cover] at later ⊢
      rw [if_pos ⟨starts, outside⟩, isStart]
      dsimp only
      rw [later, List.append_assoc]
      rfl

/-- Pieces add tokens one after the other. -/
inductive Advances : Layout → List Piece → List (Located Token) → Layout → Prop
  | nil {layout : Layout} : Advances layout [] [] layout
  | cons {layout middle last : Layout} {text : List Char} {lexeme : Lexeme} {rest : List Piece}
      {emitted later : List (Located Token)} :
      layout.Emits text lexeme emitted middle →
      Advances middle rest later last →
      Advances layout (⟨lexeme, text⟩ :: rest) (emitted ++ later) last

theorem Advances.append {layout middle last : Layout} {cut rest : List Piece}
    {emitted later : List (Located Token)} (first : Advances layout cut emitted middle)
    (second : Advances middle rest later last) :
    Advances layout (cut ++ rest) (emitted ++ later) last := by
  induction first with
  | nil => exact second
  | cons emits _ inductionHypothesis =>
      rw [List.append_assoc]
      exact .cons emits (inductionHypothesis second)

/-- Pieces that advance the layout add their tokens before those of the rest. -/
theorem tokens_of_advances {layout last : Layout} {cut rest : List Piece}
    {emitted tail : List (Located Token)} (advances : Advances layout cut emitted last)
    (later : last.tokens rest = .ok tail) :
    layout.tokens (cut ++ rest) = .ok (emitted ++ tail) := by
  induction advances with
  | nil => exact later
  | cons emits _ inductionHypothesis =>
      rw [List.append_assoc]
      exact tokens_of_emits emits (inductionHypothesis later)

/-- The source is laid out from the state on, with the given tokens. -/
inductive Lays : Layout → List Char → List (Located Token) → Prop
  | finish (layout : Layout) : Lays layout [] layout.finish
  | step {layout next : Layout} {text following : List Char} {lexeme : Lexeme}
      {emitted out : List (Located Token)} :
      lexeme.Covers text following →
      text ≠ [] →
      layout.Emits text lexeme emitted next →
      Lays next following out →
      Lays layout (text ++ following) (emitted ++ out)

theorem pieces_fault {c : Char} {rest : List Char} {count : Nat}
    (isNext : Lexeme.next c rest = (.fault, count)) :
    pieces (c :: rest) = [⟨.fault, c :: rest.take count⟩] := by
  rw [pieces]
  simp only [isNext]
  rfl

/-- A source is cut behind its first lexeme, unless this is a fault. -/
theorem pieces_cons {c : Char} {rest : List Char} {lexeme : Lexeme} {count : Nat}
    (isNext : Lexeme.next c rest = (lexeme, count)) (sound : lexeme ≠ .fault) :
    pieces (c :: rest) = ⟨lexeme, c :: rest.take count⟩ :: pieces (rest.drop count) := by
  rw [pieces]
  simp only [isNext]
  rw [if_neg sound]

private theorem tokens_fault_ne (layout : Layout) {chars text : List Char}
    {out : List (Located Token)}
    (isFault : pieces chars = [⟨.fault, text⟩]) : layout.tokens (pieces chars) ≠ .ok out := by
  rw [isFault, tokens]
  intro laid
  cases laid

private theorem next_return (rest : List Char) :
    Lexeme.next '\r' rest =
      match rest with
      | '\n' :: _ => (.lineBreak, 1)
      | _ => (.fault, 0) := rfl

private theorem exists_of_tokens_return {layout : Layout} {later : List Char}
    {out : List (Located Token)} (laid : layout.tokens (pieces ('\r' :: later)) = .ok out) :
    ∃ last, later = '\n' :: last := by
  have isNext := next_return later
  split at isNext
  · exact ⟨_, rfl⟩
  · exact absurd laid (layout.tokens_fault_ne (pieces_fault isNext))

/-- Tokens that were found lay out the source, lexeme by lexeme. -/
theorem lays_of_tokens {layout : Layout} {chars : List Char} {out : List (Located Token)}
    (laid : layout.tokens (pieces chars) = .ok out) : Lays layout chars out := by
  induction chars using pieces.induct generalizing layout out with
  | case1 =>
      rw [pieces, tokens] at laid
      cases laid
      exact .finish layout
  | case2 c rest count isNext => exact absurd laid (layout.tokens_fault_ne (pieces_fault isNext))
  | case3 c rest lexeme count isNext sound inductionHypothesis =>
      rw [pieces_cons isNext sound] at laid
      obtain ⟨emitted, next, tail, emits, later, rfl⟩ := emits_of_tokens laid
      have noLoneReturn :
          ∀ later, rest.drop count = '\r' :: later → ∃ last, later = '\n' :: last := by
        intro following isReturn
        rw [isReturn] at later
        exact exists_of_tokens_return later
      have covers := Lexeme.next_covers isNext noLoneReturn
      have steps := Lays.step covers (List.cons_ne_nil _ _) emits (inductionHypothesis later)
      rw [List.cons_append, List.take_append_drop] at steps
      exact steps

end Layout

end Rulebook
