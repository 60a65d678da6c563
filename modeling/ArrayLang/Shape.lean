set_option autoImplicit false

/-!
# Shapes

The shape of an array lists its axis lengths, outermost first; its elements are
stored in row-major order.  Lengths are natural numbers.  A machine can only
address fewer than `2 ^ 64` elements, so the count that a new shape asks for is
computed under that bound, axis by axis from the left.  No other limit is put on the
number of elements: that they may be too many for the memory of a machine is left out.
-/

namespace ArrayLang

/-- The axis lengths of an array, outermost axis first. -/
abbrev Shape := List Nat

/-- The largest number of axes of an array. -/
def maxRank : Nat := 3

/-- Element counts lie strictly below this bound, `2 ^ 64`. -/
def countBound : Nat := 18446744073709551616

namespace Shape

/-- The number of axes. -/
abbrev rank (s : Shape) : Nat := s.length

/-- The number of elements of an array of this shape: the product of the axis
lengths, and one for a scalar. -/
def count : Shape → Nat
  | [] => 1
  | n :: rest => n * count rest

@[simp] theorem count_nil : count [] = 1 := rfl

@[simp] theorem count_cons (n : Nat) (rest : Shape) : count (n :: rest) = n * count rest := rfl

/-- Multiply one more axis into a running count, unless the product reaches the
bound. -/
def timesAxis? (running n : Nat) : Option Nat :=
  if running * n < countBound then some (running * n) else none

/-- The element count, computed from the left; `none` as soon as a running
product reaches the bound. -/
def boundedCount? (s : Shape) : Option Nat := s.foldlM timesAxis? 1

/-- The axis lengths separated by a comma and a space, in square brackets. -/
def text (s : Shape) : String := "[" ++ ", ".intercalate (s.map Nat.repr) ++ "]"

end Shape

end ArrayLang
