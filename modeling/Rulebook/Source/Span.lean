/-!
# Spans of source text

A span is a half-open stretch of the source, in bytes of its UTF-8 form.
-/

namespace Rulebook

structure Span where
  start : Nat
  stop : Nat
deriving DecidableEq, Repr

/-- The number of bytes of the UTF-8 form. -/
def byteLength (chars : List Char) : Nat :=
  chars.foldr (fun c rest => c.utf8Size + rest) 0

/-- Splits off exactly `count` bytes, unless that would cut a character. -/
def splitBytes? : Nat → List Char → Option (List Char × List Char)
  | 0, rest => some ([], rest)
  | _ + 1, [] => none
  | count + 1, c :: rest =>
      if c.utf8Size ≤ count + 1 then
        (splitBytes? (count + 1 - c.utf8Size) rest).map fun (front, back) => (c :: front, back)
      else none

namespace Span

/-- The empty span at an offset. -/
def point (offset : Nat) : Span := ⟨offset, offset⟩

/-- The smallest span that holds both. -/
def merge (left right : Span) : Span :=
  ⟨min left.start right.start, max left.stop right.stop⟩

/-- From the start of the first span to the end of the second. -/
def through (first last : Span) : Span := ⟨first.start, last.stop⟩

/-- The covered characters; a span reaching past the end is clamped, and one whose ends cut a
character covers nothing. -/
def sliceChars (span : Span) (source : List Char) : List Char :=
  let stop := min span.stop (byteLength source)
  let start := min span.start stop
  match splitBytes? start source with
  | none => []
  | some (_, rest) =>
      match splitBytes? (stop - start) rest with
      | none => []
      | some (covered, _) => covered

def slice (span : Span) (source : String) : String :=
  String.ofList (span.sliceChars source.toList)

def text (span : Span) : String :=
  toString span.start ++ ".." ++ toString span.stop

end Span

/-- A value together with the stretch of source it was read from. -/
structure Located (α : Type) where
  node : α
  span : Span
deriving DecidableEq, Repr

end Rulebook
