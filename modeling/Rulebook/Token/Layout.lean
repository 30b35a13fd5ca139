import Rulebook.Source.Fault
import Rulebook.Token.Lexeme

/-!
# Layout

Line breaks end logical lines, and a change of indentation opens or closes blocks. Inside brackets
line breaks mean nothing. The first logical line sets the base indentation, so a snippet indented
as a whole reads like one that starts at the margin.
-/

namespace Rulebook

/-- Where the layout stands between two pieces of the source. -/
structure Layout where
  /-- The offset of the next piece. -/
  offset : Nat := 0
  /-- The columns of the open blocks, innermost first. -/
  indents : List Nat := []
  /-- How many brackets are open. -/
  depth : Nat := 0
  atLineStart : Bool := true
  /-- Where the current line starts. -/
  lineStart : Nat := 0
deriving DecidableEq, Repr

namespace Layout

/-- Closes the blocks deeper than `column`: what stays open, and the number closed. -/
def unindent (column : Nat) : List Nat → List Nat × Nat
  | [] => ([], 0)
  | level :: outer =>
      if column < level then
        let (remaining, closed) := unindent column outer
        (remaining, closed + 1)
      else (level :: outer, 0)

/-- The effect of a line starting at `column`: the layout tokens before it and the blocks then
open. There is none if the line returns to a column where no block is open. -/
def startLine? (column : Nat) (indents : List Nat) : Option (List Token × List Nat) :=
  match indents with
  | [] => some ([], [column])
  | top :: _ =>
      if top < column then some ([.indent], column :: indents)
      else
        let (remaining, closed) := unindent column indents
        if remaining.head? = some column then
          some (List.replicate closed .dedent, remaining)
        else none

/-- The change in bracket depth; a closing bracket too many is ignored. -/
def depthAfter (depth : Nat) : Token → Nat
  | .symbol mark =>
      if mark.opensGroup then depth + 1
      else if mark.closesGroup then depth - 1
      else depth
  | _ => depth

/-- The tokens that end the source: a last line end, and the blocks still open. -/
def finish (layout : Layout) : List (Located Token) :=
  (if layout.atLineStart then [] else [⟨.newline, .point layout.offset⟩]) ++
    List.replicate (layout.indents.length - 1) ⟨.dedent, .point layout.offset⟩

/-- Turns pieces into tokens with layout. -/
def tokens (layout : Layout) : List Piece → Except (Located SourceFault) (List (Located Token))
  | [] => .ok layout.finish
  | piece :: rest =>
      let span : Span := ⟨layout.offset, layout.offset + byteLength piece.text⟩
      match piece.lexeme with
      | .fault => .error ⟨.unexpectedCharacter (String.ofList piece.text), span⟩
      | .gap => tokens { layout with offset := span.stop } rest
      | .lineBreak =>
          if layout.depth = 0 then
            let ended := { layout with
              offset := span.stop, atLineStart := true, lineStart := span.stop }
            if layout.atLineStart then tokens ended rest
            else (tokens ended rest).map (⟨.newline, span⟩ :: ·)
          else tokens { layout with offset := span.stop } rest
      | .token token =>
          let depth := depthAfter layout.depth token
          if layout.atLineStart ∧ layout.depth = 0 then
            match startLine? (span.start - layout.lineStart) layout.indents with
            | none => .error ⟨.unmatchedUnindent, span⟩
            | some (marks, indents) =>
                let started := { layout with
                  offset := span.stop, indents, depth, atLineStart := false }
                (tokens started rest).map
                  (marks.map (⟨·, .point span.start⟩) ++ ⟨token, span⟩ :: ·)
          else
            (tokens { layout with offset := span.stop, depth } rest).map (⟨token, span⟩ :: ·)

end Layout

/-- The tokens of a source text. -/
def tokenize (source : String) : Except (Located SourceFault) (List (Located Token)) :=
  Layout.tokens {} (pieces source.toList)

end Rulebook
