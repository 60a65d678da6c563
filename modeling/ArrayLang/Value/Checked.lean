import ArrayLang.Value.Elements

set_option autoImplicit false

/-!
# Arrays whose shape and elements agree

Whoever brings shape and elements from outside builds an array through
`Value.ofElements?`, which refuses too many axes first and a wrong number of
elements second.

A well-formed array has at most `maxRank` axes, an element count that can be
computed from the left without reaching the bound, and exactly that many
elements; and so have all arrays inside its boxes.
-/

namespace ArrayLang

/-! ## Building with a check -/

/-- Why shape and elements do not make an array. -/
inductive Malformed where
  /-- more axes than arrays have -/
  | rank (got : Nat)
  /-- the shape asks for another number of elements -/
  | count (shape : Shape) (got : Nat)
  deriving DecidableEq, Repr

namespace Malformed

/-- The fault in words. -/
def message : Malformed → String
  | rank got => "rank " ++ got.repr ++ " exceeds maximum " ++ maxRank.repr
  | count shape got =>
    "assertion `left == right` failed: element count does not match shape " ++ shape.text
      ++ "\n  left: " ++ shape.count.repr ++ "\n right: " ++ got.repr

end Malformed

namespace Value

/-- Lay elements out in a shape, if it has at most `maxRank` axes and asks for
exactly so many elements. -/
def ofElements? (shape : Shape) (elements : Elements) : Except Malformed Value :=
  if maxRank < shape.rank then .error (.rank shape.rank)
  else if shape.count ≠ elements.length then .error (.count shape elements.length)
  else .ok (ofElements shape elements)

/-- The check passes exactly when rank and count are right, and changes nothing. -/
theorem ofElements?_eq_ok_iff (s : Shape) (e : Elements) (v : Value) :
    ofElements? s e = .ok v ↔
      s.rank ≤ maxRank ∧ s.count = e.length ∧ v = ofElements s e := by
  unfold ofElements?
  split
  · rename_i h
    simp [Nat.not_le.2 h]
  · rename_i h
    split
    · rename_i hc
      simp [hc]
    · rename_i hc
      simp only [ne_eq, Decidable.not_not] at hc
      simp [Nat.le_of_not_lt h, hc, eq_comm]

end Value

/-! ## Well-formed arrays -/

/-- Few enough axes, and every running product of the lengths below the bound. -/
def Shape.Fits (s : Shape) : Prop :=
  s.rank ≤ maxRank ∧ ∀ k, Shape.count (s.take k) < countBound

namespace Value

/-- The shape fits, and there are as many elements as it asks for. -/
def WellFormedHere (v : Value) : Prop := v.shape.Fits ∧ v.shape.count = v.count

/-- Shape and elements agree, through every box. -/
def WellFormed (v : Value) : Prop := v.Everywhere WellFormedHere

theorem wellFormed_plain_iff (shape : Shape) (items : List Element) :
    (plain shape items).WellFormed ↔ shape.Fits ∧ shape.count = items.length := Iff.rfl

/-- A well-formed array stores as many elements as its shape asks for. -/
theorem WellFormed.count_eq {v : Value} (h : v.WellFormed) : v.shape.count = v.count := h.here.2

/-- A well-formed array passes the check of `ofElements?`. -/
theorem WellFormed.ofElements?_eq {v : Value} (h : v.WellFormed) :
    ofElements? v.shape v.elements = .ok v := by
  rw [ofElements?_eq_ok_iff]
  refine ⟨h.here.1.1, ?_, (ofElements_elements v).symm⟩
  rw [h.count_eq, length_elements]

end Value

end ArrayLang
