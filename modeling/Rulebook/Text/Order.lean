/-!
# The order of texts

Texts are ordered by their UTF-8 bytes, the first differing byte deciding and a proper beginning
coming first. This agrees with the order by code points.
-/

namespace Rulebook.Text

/-- Lexicographic comparison of two byte sequences. -/
def compareBytes : List UInt8 → List UInt8 → Ordering
  | [], [] => .eq
  | [], _ :: _ => .lt
  | _ :: _, [] => .gt
  | x :: xs, y :: ys => (compare x y).then (compareBytes xs ys)

def compareText (left right : String) : Ordering :=
  compareBytes left.toByteArray.data.toList right.toByteArray.data.toList

private theorem compareBytes_eq_iff (left right : List UInt8) :
    compareBytes left right = .eq ↔ left = right := by
  induction left generalizing right with
  | nil => cases right <;> simp [compareBytes]
  | cons x xs inductionHypothesis =>
      cases right with
      | nil => simp [compareBytes]
      | cons y ys => simp [compareBytes, inductionHypothesis, Ordering.then_eq_eq]

private theorem compareBytes_swap (left right : List UInt8) :
    compareBytes left right = (compareBytes right left).swap := by
  induction left generalizing right with
  | nil => cases right <;> rfl
  | cons x xs inductionHypothesis =>
      cases right with
      | nil => rfl
      | cons y ys =>
          rw [compareBytes, compareBytes, Ordering.swap_then, ← inductionHypothesis,
            ← Std.OrientedCmp.eq_swap]

private theorem compareBytes_lt_trans {left middle right : List UInt8}
    (first : compareBytes left middle = .lt) (second : compareBytes middle right = .lt) :
    compareBytes left right = .lt := by
  induction left generalizing middle right with
  | nil =>
      cases right with
      | nil => cases middle <;> simp [compareBytes] at second
      | cons z zs => rfl
  | cons x xs inductionHypothesis =>
      cases middle with
      | nil => simp [compareBytes] at first
      | cons y ys =>
          cases right with
          | nil => simp [compareBytes] at second
          | cons z zs =>
              rw [compareBytes, Ordering.then_eq_lt] at first second ⊢
              rcases first with first | ⟨sameFirst, first⟩
              · rcases second with second | ⟨sameSecond, _⟩
                · exact .inl (Std.TransCmp.lt_trans first second)
                · exact .inl (Std.compare_eq_iff_eq.mp sameSecond ▸ first)
              · rw [Std.compare_eq_iff_eq.mp sameFirst]
                rcases second with second | ⟨sameSecond, second⟩
                · exact .inl second
                · exact .inr ⟨sameSecond, inductionHypothesis first second⟩

@[simp]
theorem compareText_eq_iff (left right : String) :
    compareText left right = .eq ↔ left = right := by
  rw [compareText, compareBytes_eq_iff, Array.toList_inj, ← ByteArray.ext_iff]
  exact String.toByteArray_inj

theorem compareText_swap (left right : String) :
    compareText left right = (compareText right left).swap :=
  compareBytes_swap _ _

theorem compareText_lt_trans {left middle right : String}
    (first : compareText left middle = .lt) (second : compareText middle right = .lt) :
    compareText left right = .lt :=
  compareBytes_lt_trans first second

end Rulebook.Text
